import CrapsStrategy.Proofs.Except
import CrapsStrategy.Token.Lexer

/-!
# `CrapsStrategy.Proofs.Token.Lexer`: which tokens a text has

Every token but the last comes out of one piece of the text, and
`lexed_of_piece` says what all of these have in common: they are not
the end of the input, and no segment of a name has two low lines in a
row. Beyond line ends they are no line ends either
(`written_of_piece`). `tokenize_eq_ok` carries the first through the
scan, where the end of the input is added once and comes last.
-/

set_option autoImplicit false

namespace CrapsStrategy

/-- A token that can stand for a piece of text. -/
def Token.Lexed : Token → Prop
  | endOfInput => False
  | name path => ∀ segment ∈ Lexer.segments path.toList, Lexer.hasDunder segment = false
  | _ => True

/-- No piece of a text stands for the end of the input. -/
theorem Token.Lexed.ne_endOfInput {token : Token} (h : token.Lexed) : token ≠ .endOfInput := by
  rintro rfl
  exact h

/-- A token that can stand for a piece of text on one line. -/
def Token.Written (token : Token) : Prop :=
  token.Lexed ∧ token ≠ .newline

namespace Lexer

variable {position : Position} {t : Token} {p : Piece}

/-- A quoted text is a text. -/
theorem written_of_textPiece {quote : Char} {rest : List Char}
    (h : textPiece quote position rest = .ok p) (ht : p.token = some t) : t.Written := by
  unfold textPiece at h
  split at h
  · cases h
    cases ht
    exact ⟨trivial, nofun⟩
  · cases h

/-- A number is an integer or a double. -/
theorem written_of_numberToken {whole fraction : List Char}
    (h : numberToken whole fraction = .ok t) : t.Written := by
  unfold numberToken at h
  dsimp only at h
  split at h
  · obtain ⟨_, h⟩ := ite_error_eq_ok.1 h
    cases h
    exact ⟨trivial, nofun⟩
  · cases h
    exact ⟨trivial, nofun⟩

/-- A piece that begins with a digit is a number. -/
theorem written_of_numberPiece {cs : List Char} (h : numberPiece position cs = .ok p)
    (ht : p.token = some t) : t.Written := by
  unfold numberPiece at h
  dsimp only at h
  split at h
  · cases h
  · split at h
    · rename_i token htoken
      cases h
      cases ht
      exact written_of_numberToken htoken
    · cases h

/-- A word is a keyword, a reserved word or a name, and a name stays as
it is. -/
theorem written_wordToken {word : String}
    (h : ∀ segment ∈ segments word.toList, hasDunder segment = false) :
    (wordToken word).Written := by
  unfold wordToken
  split
  -- The last case has all words that are not keywords.
  case h_10 =>
    split
    · exact ⟨trivial, nofun⟩
    · exact ⟨h, nofun⟩
  all_goals exact ⟨trivial, nofun⟩

/-- A piece that begins like a name is a word, and none of its segments
has two low lines in a row. -/
theorem written_of_namePiece {cs : List Char} (h : namePiece position cs = .ok p)
    (ht : p.token = some t) : t.Written := by
  unfold namePiece at h
  dsimp only at h
  split at h
  · cases h
  · rename_i hsegments
    cases h
    cases ht
    have hclean : ∀ segment ∈ segments (String.ofList (cs.take (nameLength cs))).toList,
        hasDunder segment = false := by
      intro segment hsegment
      rw [String.toList_ofList] at hsegment
      simpa using List.find?_eq_none.1 hsegments segment hsegment
    split
    · exact ⟨hclean, nofun⟩
    · exact written_wordToken hclean

/-- What is read as a symbol is written as one. -/
theorem written_of_symbolPiece {c : Char} {rest : List Char}
    (h : symbolPiece position c rest = .ok p) (ht : p.token = some t) : t.Written := by
  unfold symbolPiece at h
  split at h
  · cases h
    cases ht
    exact ⟨trivial, nofun⟩
  · cases h

section

variable {dialect : Dialect} {depth : Nat} {c : Char} {rest : List Char}

/-- Beyond line ends every piece with a token is written on one line. -/
theorem written_of_piece (hline : c ≠ '\n') (h : piece dialect depth position c rest = .ok p)
    (ht : p.token = some t) : t.Written := by
  rw [piece, if_neg hline] at h
  -- Blanks and comments first; the other kinds have their own lemmas.
  split at h
  · cases h
    cases ht
  · split at h
    · cases h
      cases ht
    · split at h
      · exact written_of_textPiece h ht
      · split at h
        · exact written_of_numberPiece h ht
        · split at h
          · exact written_of_namePiece h ht
          · exact written_of_symbolPiece h ht

/-- A token that a piece of text stands for, of any kind. -/
theorem lexed_of_piece (h : piece dialect depth position c rest = .ok p)
    (ht : p.token = some t) : t.Lexed := by
  by_cases hline : c = '\n'
  · rw [piece, if_pos hline] at h
    cases h
    split at ht
    · cases ht
      trivial
    · cases ht
  · exact (written_of_piece hline h ht).1

end

/-- The tokens of a scan can all stand for pieces, but for the last one,
which is the end of the input. -/
theorem scan_eq_ok {dialect : Dialect} {depth : Nat} {cs : List Char} {tokens : List Located}
    (h : scan dialect depth position cs = .ok tokens) :
    ∃ init last, tokens = init ++ [⟨.endOfInput, last⟩] ∧ ∀ t ∈ init, t.token.Lexed := by
  induction depth, position, cs using scan.induct generalizing tokens with
  | case1 depth position =>
    rw [scan] at h
    cases h
    exact ⟨[], position, rfl, fun t ht => absurd ht List.not_mem_nil⟩
  | case2 depth position c rest ih =>
    rw [scan] at h
    obtain ⟨piece, hpiece, h⟩ := bind_eq_ok.1 h
    obtain ⟨later, hlater, h⟩ := bind_eq_ok.1 h
    obtain ⟨init, last, htokens, hinit⟩ := ih piece hlater
    cases h
    subst htokens
    split
    · rename_i token htoken
      refine ⟨⟨token, position⟩ :: init, last, rfl, fun t ht => ?_⟩
      rcases List.mem_cons.1 ht with hfirst | hlater
      · subst hfirst
        exact lexed_of_piece hpiece htoken
      · exact hinit t hlater
    · exact ⟨init, last, rfl, hinit⟩

end Lexer

/-- The end of the input is the last token, and no other one. -/
theorem tokenize_eq_ok {dialect : Dialect} {source : String} {tokens : List Located}
    (h : tokenize dialect source = .ok tokens) :
    ∃ init last, tokens = init ++ [⟨.endOfInput, last⟩] ∧ ∀ t ∈ init, t.token.Lexed :=
  Lexer.scan_eq_ok h

end CrapsStrategy
