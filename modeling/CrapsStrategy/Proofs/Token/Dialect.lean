import CrapsStrategy.Proofs.Token.Lexer

/-!
# `CrapsStrategy.Proofs.Token.Dialect`: one text in both dialects

Where both dialects have tokens for a text, the tokens of the condition
are those of the script without its line ends (`tokenize_condition_eq`),
each at its own place. The dialects part in two kinds of pieces only: a
line end, which is blank in a condition, and `#`, which starts no piece
of one. How deep in brackets a piece is does not matter.
-/

set_option autoImplicit false

namespace CrapsStrategy

/-- Tokens as if they all stood on one line. -/
def oneLine (ts : List Located) : List Located :=
  ts.filter fun t => t.token ≠ .newline

section

variable {t : Located} {ts : List Located}

/-- Any token but a line end stays on the line. -/
theorem oneLine_cons (ht : t.token ≠ .newline) : oneLine (t :: ts) = t :: oneLine ts :=
  List.filter_cons_of_pos (decide_eq_true ht)

/-- A line end is left out. -/
theorem oneLine_newline (ht : t.token = .newline) : oneLine (t :: ts) = oneLine ts :=
  List.filter_cons_of_neg (by simp [ht])

/-- A keyword stays on the line. -/
theorem oneLine_keyword {word : Keyword} (ht : t.token = .keyword word) :
    oneLine (t :: ts) = t :: oneLine ts :=
  oneLine_cons (by simp [ht])

/-- A symbol stays on the line. -/
theorem oneLine_symbol {symbol : Symbol} (ht : t.token = .symbol symbol) :
    oneLine (t :: ts) = t :: oneLine ts :=
  oneLine_cons (by simp [ht])

/-- A token of a kind that line ends are not of. -/
theorem oneLine_of_eq_some {β : Type} {f : Token → Option β} {b : β} (ht : f t.token = some b)
    (hnewline : f .newline = none) : oneLine (t :: ts) = t :: oneLine ts := by
  refine oneLine_cons fun hline => ?_
  rw [hline, hnewline] at ht
  cases ht

end

namespace Lexer

variable {depth depth' : Nat} {position : Position} {c : Char} {rest : List Char} {p q : Piece}

/-! ### Pieces -/

/-- No piece of a condition starts with the sign of a comment. -/
theorem piece_condition_hash (depth : Nat) (position : Position) (rest : List Char) :
    piece .condition depth position '#' rest =
      .error (.syntaxAt position (.unexpectedChar '#')) := by
  have hnone : Symbol.atStart? ('#' :: rest) = none := by
    simp [Symbol.atStart?, Symbol.all, Symbol.text]
  have hblank : Text.isBlank '#' = false := by decide
  have hdigit : Text.isDigit '#' = false := by decide
  have hname : isNameStart '#' = false := by decide
  rw [piece, if_neg (by decide), hblank, if_neg (by decide), if_neg (by decide),
    if_neg (by decide), hdigit, if_neg (by decide), hname, if_neg (by decide), symbolPiece, hnone]

/-- Beyond line ends and comments a piece is the same in both dialects.
-/
theorem piece_script_eq (hline : c ≠ '\n') (hhash : c ≠ '#') :
    piece .script depth' position c rest = piece .condition depth position c rest := by
  simp [piece, hline, hhash]

/-- What the dialects make of one piece: the same, or a line end in a
script and nothing in a condition. -/
theorem pieces_agree (hcondition : piece .condition depth position c rest = .ok p)
    (hscript : piece .script depth' position c rest = .ok q) :
    p.more = q.more ∧
      (p.token = q.token ∧ q.token ≠ some .newline ∨
        p.token = none ∧ q.token = some .newline) := by
  by_cases hline : c = '\n'
  · rw [piece, if_pos hline] at hcondition hscript
    cases hcondition
    cases hscript
    by_cases hdepth : depth' = 0 <;> simp [hdepth]
  · have hhash : c ≠ '#' := by
      rintro rfl
      rw [piece_condition_hash] at hcondition
      cases hcondition
    rw [piece_script_eq hline hhash, hcondition] at hscript
    cases hscript
    refine ⟨rfl, .inl ⟨rfl, fun ht => ?_⟩⟩
    exact (written_of_piece hline hcondition ht).2 rfl

/-! ### Texts -/

/-- A scan in both dialects: the tokens of the condition are those of
the script on one line. The depths may differ, as only a script counts a
line end by its brackets. -/
theorem scan_condition_eq {cs : List Char} {tokens lines : List Located}
    (hcondition : scan .condition depth position cs = .ok tokens)
    (hscript : scan .script depth' position cs = .ok lines) : tokens = oneLine lines := by
  induction depth, position, cs using scan.induct generalizing depth' tokens lines with
  | case1 depth position =>
    rw [scan] at hcondition hscript
    cases hcondition
    cases hscript
    rfl
  | case2 depth position c rest ih =>
    rw [scan] at hcondition hscript
    obtain ⟨p, hp, hcondition⟩ := bind_eq_ok.1 hcondition
    obtain ⟨q, hq, hscript⟩ := bind_eq_ok.1 hscript
    obtain ⟨later, hlater, hcondition⟩ := bind_eq_ok.1 hcondition
    obtain ⟨laterLines, hlaterLines, hscript⟩ := bind_eq_ok.1 hscript
    cases hcondition
    cases hscript
    obtain ⟨hmore, htokens⟩ := pieces_agree hp hq
    rw [← hmore] at hlaterLines
    -- The depths may have come apart here, which is why both are general.
    have hrest := ih p hlater hlaterLines
    rcases htokens with ⟨hsame, hline⟩ | ⟨hnone, hline⟩
    · rw [hsame]
      cases htoken : q.token with
      | none => exact hrest
      | some token =>
        have htoken : token ≠ .newline := fun heq => hline (by rw [htoken, heq])
        rw [hrest]
        exact (oneLine_cons htoken).symm
    · rw [hnone, hline, hrest]
      exact (oneLine_newline rfl).symm

/-- A condition of blanks has no tokens. -/
theorem scan_blank {cs : List Char} (hcs : cs.all Text.isBlank = true) (depth : Nat)
    (position : Position) :
    ∃ last, scan .condition depth position cs = .ok [⟨.endOfInput, last⟩] := by
  induction cs generalizing depth position with
  | nil =>
    rw [scan]
    exact ⟨position, rfl⟩
  | cons c rest ih =>
    rw [List.all_cons, Bool.and_eq_true] at hcs
    have hpiece : piece .condition depth position c rest = .ok { token := none, more := 0 } := by
      unfold piece
      split
      · rfl
      · exact if_pos hcs.1
    obtain ⟨last, hlater⟩ :=
      ih hcs.2 (depthAfter depth none) (position.advanceBy (c :: rest.take 0))
    refine ⟨last, ?_⟩
    rw [scan, hpiece]
    show (scan _ _ _ (rest.drop 0) >>= _) = _
    rw [List.drop_zero, hlater]
    rfl

end Lexer

/-- The tokens of a text as a condition are its tokens as a script, but
for the line ends. -/
theorem tokenize_condition_eq {source : String} {tokens lines : List Located}
    (hcondition : tokenize .condition source = .ok tokens)
    (hscript : tokenize .script source = .ok lines) : tokens = oneLine lines :=
  Lexer.scan_condition_eq hcondition hscript

/-- A blank text has no token but the end of the input. -/
theorem tokenize_blank {source : String} (h : Text.isBlankText source = true) :
    ∃ last, tokenize .condition source = .ok [⟨.endOfInput, last⟩] :=
  Lexer.scan_blank h 0 .start

end CrapsStrategy
