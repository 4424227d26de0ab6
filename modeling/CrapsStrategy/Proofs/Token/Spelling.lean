import CrapsStrategy.Proofs.Token.Spacing

/-!
# `CrapsStrategy.Proofs.Token.Spelling`: how tokens are written

`Token.IsSpelled` says which characters a token stands for, without the
lexer: the digits of a number, the quotes of a text literal and what its
escapes mean, the path of a name, the letters of a word in any case. The
characters of a piece are those of its token, or the piece is a blank or
a comment and has none (`piece_cases`). All pieces that are cut off in
front of a text as one lexeme go through `Spells.of_lexeme`.
-/

set_option autoImplicit false

namespace CrapsStrategy

open Text

/-! ### Spellings -/

/-- The letters of a keyword, in small ones. -/
def Keyword.letters : Keyword → String
  | true => "true"
  | false => "false"
  | none => "none"
  | and => "and"
  | or => "or"
  | not => "not"
  | isIn => "in"
  | ifThen => "if"
  | otherwise => "else"

namespace Lexer

/-- What stands between the quotes of a text literal, and the content
that it means. -/
inductive Escaped (quote : Char) : List Char → List Char → Prop
  | nil : Escaped quote [] []
  | plain {c : Char} {cs content : List Char} (hquote : c ≠ quote) (hslash : c ≠ '\\')
      (h : Escaped quote cs content) : Escaped quote (c :: cs) (c :: content)
  | known {c e : Char} {cs content : List Char} (he : escape? c = some e)
      (h : Escaped quote cs content) : Escaped quote ('\\' :: c :: cs) (e :: content)
  | unknown {c : Char} {cs content : List Char} (hc : escape? c = none)
      (h : Escaped quote cs content) : Escaped quote ('\\' :: c :: cs) ('\\' :: c :: content)

/-- A dotted name: characters of names, with no more than one point
between two of them. -/
inductive IsPath : List Char → Prop
  | last {c : Char} (hc : isNameChar c = true) : IsPath [c]
  | cons {c : Char} {cs : List Char} (hc : isNameChar c = true) (h : IsPath cs) : IsPath (c :: cs)
  | point {c : Char} {cs : List Char} (hc : isNameChar c = true) (h : IsPath cs) :
      IsPath (c :: '.' :: cs)

end Lexer

/-- Whether characters are those of a token. The end of the input has
none. -/
def Token.IsSpelled (cs : List Char) : Token → Prop
  | int i => cs ≠ [] ∧ (∀ c ∈ cs, isDigit c = true) ∧ (natOfDigits cs : Int) = i.toInt
  | float x => ∃ whole fraction : List Char, whole ≠ [] ∧ fraction ≠ [] ∧
      (∀ c ∈ whole ++ fraction, isDigit c = true) ∧ cs = whole ++ '.' :: fraction ∧
      x = Decimal.nearestDouble false (natOfDigits (whole ++ fraction)) (-(fraction.length : Int))
  | text s => ∃ (quote : Char) (body : List Char), (quote = '\'' ∨ quote = '"') ∧
      Lexer.Escaped quote body s.toList ∧ cs = quote :: (body ++ [quote])
  | name path => cs = path.toList ∧ Lexer.IsPath cs ∧ cs.head?.any Lexer.isNameStart = true ∧
      (∀ word : Keyword, lowerAscii path ≠ word.letters) ∧
      lowerAscii path ∉ Lexer.reservedWords
  | keyword word => lowerAscii (String.ofList cs) = word.letters
  | reserved word => word ∈ Lexer.reservedWords ∧ lowerAscii (String.ofList cs) = word
  | symbol s => cs = s.text.toList
  | newline => cs = ['\n']
  | endOfInput => False

namespace Lexer

variable {position : Position} {c : Char} {rest : List Char} {p : Piece} {t : Token}

/-- The first character of a text and those that go with it are there,
and are those of a token. -/
structure Spells (c : Char) (rest : List Char) (p : Piece) (t : Token) : Prop where
  token : p.token = some t
  fits : p.more ≤ rest.length
  spelled : t.IsSpelled (c :: rest.take p.more)

/-- A token that is cut off as a lexeme. -/
theorem Spells.of_lexeme {lexeme : List Char} (hne : lexeme ≠ []) (hfront : lexeme <+: c :: rest)
    (h : t.IsSpelled lexeme) : Spells c rest ⟨some t, lexeme.length - 1⟩ t := by
  obtain ⟨d, lexeme, rfl⟩ := List.exists_cons_of_ne_nil hne
  obtain ⟨rfl, hrest⟩ := List.cons_prefix_cons.1 hfront
  refine ⟨rfl, hrest.length_le, ?_⟩
  show t.IsSpelled (d :: rest.take lexeme.length)
  rwa [← List.prefix_iff_eq_take.1 hrest]

/-! ### Text literals -/

/-- A text literal that is read ends with its quote, and what stands
before it means the content. -/
theorem escaped_of_textBody? {quote : Char} {content : List Char} {n : Nat}
    (h : textBody? quote rest = some (content, n)) :
    ∃ body, Escaped quote body content ∧ n ≤ rest.length ∧ rest.take n = body ++ [quote] := by
  -- By what comes first: nothing, the quote, a lone backslash, an escape,
  -- or any other character.
  induction rest using textBody?.induct quote generalizing content n with
  | case1 =>
    rw [textBody?] at h
    cases h
  | case2 rest =>
    rw [textBody?_quote] at h
    cases h
    exact ⟨[], .nil, Nat.le_add_left 1 _, rfl⟩
  | case3 hquote =>
    rw [textBody?, if_neg hquote, if_pos rfl] at h
    cases h
  | case4 d rest hquote ih =>
    rw [textBody?_escape hquote] at h
    obtain ⟨⟨inner, m⟩, hinner, heq⟩ := Option.map_eq_some_iff.1 h
    cases heq
    obtain ⟨body, hbody, hfits, htake⟩ := ih hinner
    refine ⟨'\\' :: d :: body, ?_, Nat.add_le_add_right hfits 2, ?_⟩
    · split
      · rename_i e he
        exact .known he hbody
      · rename_i hnone
        exact .unknown hnone hbody
    · rw [List.take_succ_cons, List.take_succ_cons, htake]
      rfl
  | case5 c rest hquote hslash ih =>
    rw [textBody?_cons hquote hslash] at h
    obtain ⟨⟨inner, m⟩, hinner, heq⟩ := Option.map_eq_some_iff.1 h
    cases heq
    obtain ⟨body, hbody, hfits, htake⟩ := ih hinner
    refine ⟨c :: body, .plain hquote hslash hbody, Nat.succ_le_succ hfits, ?_⟩
    rw [List.take_succ_cons, htake]
    rfl

/-- A quoted piece spells a text. -/
theorem spells_of_textPiece (hc : c = '\'' ∨ c = '"') (h : textPiece c position rest = .ok p) :
    ∃ t, Spells c rest p t := by
  unfold textPiece at h
  split at h
  · rename_i content length hbody
    obtain ⟨body, hescaped, hfits, htake⟩ := escaped_of_textBody? hbody
    cases h
    refine ⟨_, rfl, hfits, c, body, hc, ?_, congrArg _ htake⟩
    rwa [String.toList_ofList]
  · cases h

/-! ### Numbers -/

/-- Digits that are taken are digits. -/
theorem isDigit_of_mem_takeWhile {cs : List Char} : ∀ c ∈ cs.takeWhile isDigit, isDigit c = true :=
  fun _ hc => List.mem_takeWhile_imp hc

/-- The parts of a number are digits, the second behind a point if it is
there. -/
theorem splitNumber_cases (cs : List Char) :
    (splitNumber cs).1 = cs.takeWhile isDigit ∧
      ((splitNumber cs).2 = [] ∨ ∃ digits, digits ≠ [] ∧ (∀ c ∈ digits, isDigit c = true) ∧
        (splitNumber cs).2 = '.' :: digits) := by
  unfold splitNumber
  dsimp only
  split
  · split
    · exact ⟨rfl, .inl rfl⟩
    · rename_i rest hdigits
      exact ⟨rfl, .inr ⟨_, hdigits, isDigit_of_mem_takeWhile, rfl⟩⟩
  · exact ⟨rfl, .inl rfl⟩

/-- Digits with or without a fraction spell the number that is read of
them. -/
theorem isSpelled_of_numberToken {whole fraction : List Char} (hne : whole ≠ [])
    (hwhole : ∀ c ∈ whole, isDigit c = true)
    (hfraction : fraction = [] ∨ ∃ digits, digits ≠ [] ∧ (∀ c ∈ digits, isDigit c = true) ∧
      fraction = '.' :: digits)
    (h : numberToken whole fraction = .ok t) : t.IsSpelled (whole ++ fraction) := by
  rcases hfraction with rfl | ⟨digits, hdigits, hall, rfl⟩
  · rw [numberToken, if_pos rfl] at h
    obtain ⟨hrange, h⟩ := ite_error_eq_ok.1 h
    cases h
    rw [List.append_nil]
    refine ⟨hne, hwhole, (Int64.toInt_ofNat_of_lt ?_).symm⟩
    rw [Binary64.maxInt] at hrange
    omega
  · rw [numberToken, if_neg (List.cons_ne_nil _ _)] at h
    cases h
    refine ⟨whole, digits, hne, hdigits, List.forall_mem_append.2 ⟨hwhole, hall⟩, rfl, ?_⟩
    have hplaces : 1 - (('.' :: digits).length : Int) = -(digits.length : Int) := by
      rw [List.length_cons]
      omega
    rw [hplaces]
    rfl

/-- A piece that begins with a digit spells a number. -/
theorem spells_of_numberPiece (hc : isDigit c = true)
    (h : numberPiece position (c :: rest) = .ok p) : ∃ t, Spells c rest p t := by
  obtain ⟨hwhole, hfraction⟩ := splitNumber_cases (c :: rest)
  obtain ⟨hfront, _⟩ := lexeme_splitNumber (c :: rest)
  have hne : (splitNumber (c :: rest)).1 ≠ [] := by
    rw [hwhole, List.takeWhile_cons_of_pos hc]
    exact List.cons_ne_nil _ _
  unfold numberPiece at h
  dsimp only at h
  split at h
  · cases h
  · split at h
    · rename_i token htoken
      cases h
      refine ⟨token, .of_lexeme (List.append_ne_nil_of_left_ne_nil hne _) hfront ?_⟩
      refine isSpelled_of_numberToken hne ?_ hfraction htoken
      rw [hwhole]
      exact isDigit_of_mem_takeWhile
    · cases h

/-! ### Names and words -/

/-- A path without its first character is one, unless a point comes
first then. -/
theorem IsPath.tail {d : Char} {cs : List Char} (h : IsPath (c :: d :: cs)) (hpoint : d ≠ '.') :
    IsPath (d :: cs) := by
  cases h with
  | cons _ h => exact h
  | point _ h => exact absurd rfl hpoint

/-- What belongs to a name after its first character is a path with it.
-/
theorem isPath_cons_take_nameLength (hc : isNameChar c = true) :
    IsPath (c :: rest.take (nameLength rest)) := by
  induction rest generalizing c with
  | nil => exact .last hc
  | cons d rest ih =>
    cases hd : isNameChar d with
    | true =>
      rw [nameLength_cons hd, List.take_succ_cons]
      exact .cons hc (ih hd)
    | false =>
      by_cases hpoint : d = '.'
      · subst hpoint
        cases rest with
        | nil => exact .last hc
        | cons e rest =>
          rw [nameLength_point]
          split
          · rename_i he
            -- The path behind the point is the one that any other character would have.
            have hpath := ih hc
            rw [nameLength_cons he, List.take_succ_cons] at hpath ⊢
            refine .point hc (hpath.tail ?_)
            rintro rfl
            cases he
          · exact .last hc
      · rw [nameLength_eq_zero hd hpoint]
        exact .last hc

/-- No word that is a token of its own has a point. -/
theorem isSpelled_name_of_point {cs : List Char} (hpath : IsPath cs)
    (hstart : cs.head?.any isNameStart = true) (hpoint : '.' ∈ cs) :
    (Token.name (String.ofList cs)).IsSpelled cs := by
  have hlower : '.' ∈ (lowerAscii (String.ofList cs)).toList := by
    rw [lowerAscii, String.toList_map, String.toList_ofList]
    exact List.mem_map.2 ⟨'.', hpoint, rfl⟩
  refine ⟨String.toList_ofList.symm, hpath, hstart, fun word hword => ?_, fun hword => ?_⟩
  · rw [hword] at hlower
    revert hlower
    cases word <;> decide
  · have hwords : ∀ word ∈ reservedWords, '.' ∉ word.toList := by
      decide
    exact hwords _ hword hlower

/-- A path spells the word that it is: a keyword in any case, a reserved
word or a name. -/
theorem isSpelled_wordToken {cs : List Char} (hpath : IsPath cs)
    (hstart : cs.head?.any isNameStart = true) :
    (wordToken (String.ofList cs)).IsSpelled cs := by
  unfold wordToken
  split
  -- The last case has all words that are not keywords.
  case h_10 =>
    have hfree : ∀ word : Keyword, lowerAscii (String.ofList cs) ≠ word.letters := by
      intro word
      cases word <;> assumption
    split
    · rename_i hreserved
      exact ⟨List.contains_iff_mem.1 hreserved, rfl⟩
    · rename_i hreserved
      exact ⟨String.toList_ofList.symm, hpath, hstart, hfree,
        fun hmem => hreserved (List.contains_iff_mem.2 hmem)⟩
  all_goals
    rename_i hword
    exact hword

/-- A piece that begins like a name spells a word. -/
theorem spells_of_namePiece (hc : isNameStart c = true)
    (h : namePiece position (c :: rest) = .ok p) : ∃ t, Spells c rest p t := by
  have hname : isNameChar c = true := by
    rw [isNameChar, hc, Bool.true_or]
  have hlexeme : (c :: rest).take (nameLength (c :: rest)) = c :: rest.take (nameLength rest) := by
    rw [nameLength_cons hname, List.take_succ_cons]
  have hfront : c :: rest.take (nameLength rest) <+: c :: rest :=
    hlexeme ▸ List.take_prefix _ _
  have hpath : IsPath (c :: rest.take (nameLength rest)) := isPath_cons_take_nameLength hname
  unfold namePiece at h
  rw [hlexeme] at h
  dsimp only at h
  split at h
  · cases h
  · cases h
    refine ⟨_, .of_lexeme (List.cons_ne_nil _ _) hfront ?_⟩
    split
    · rename_i hpoint
      exact isSpelled_name_of_point hpath hc (List.contains_iff_mem.1 hpoint)
    · exact isSpelled_wordToken hpath hc

/-! ### Symbols -/

/-- All other pieces spell symbols. -/
theorem spells_of_symbolPiece (h : symbolPiece position c rest = .ok p) :
    ∃ t, Spells c rest p t := by
  unfold symbolPiece at h
  split at h
  · rename_i symbol hsymbol
    cases h
    have hne : symbol.text.toList ≠ [] := by
      cases symbol <;> decide
    unfold Symbol.atStart? at hsymbol
    have hfound := List.find?_some hsymbol
    exact ⟨_, .of_lexeme hne (List.isPrefixOf_iff_prefix.1 hfound) rfl⟩
  · cases h

/-! ### Pieces -/

/-- A piece is a token, a blank, or in a script a comment up to the end
of its line. In a script a line end is a token outside brackets and a
blank inside. -/
theorem piece_cases {dialect : Dialect} {depth : Nat}
    (h : piece dialect depth position c rest = .ok p) :
    (∃ t, Spells c rest p t ∧ (t = .newline → dialect = .script ∧ depth = 0)) ∨
      (p = ⟨none, 0⟩ ∧ isBlank c = true ∧ (dialect = .script → c = '\n' → 0 < depth)) ∨
      (p = ⟨none, (rest.takeWhile (· ≠ '\n')).length⟩ ∧ dialect = .script ∧ c = '#') := by
  by_cases hline : c = '\n'
  · subst hline
    rw [piece, if_pos rfl] at h
    cases h
    by_cases hout : dialect = .script ∧ depth = 0
    · rw [if_pos hout]
      exact .inl ⟨.newline, ⟨rfl, Nat.zero_le _, rfl⟩, fun _ => hout⟩
    · rw [if_neg hout]
      exact .inr (.inl ⟨rfl, rfl, fun hscript _ => Nat.pos_of_ne_zero fun hzero =>
        hout ⟨hscript, hzero⟩⟩)
  · -- Only the line end itself spells a line end, and it was dealt with.
    have htoken (hspells : ∃ t, Spells c rest p t) :
        ∃ t, Spells c rest p t ∧ (t = .newline → dialect = .script ∧ depth = 0) := by
      obtain ⟨t, ht⟩ := hspells
      refine ⟨t, ht, fun hnewline => absurd ?_ hline⟩
      have hspelled := ht.spelled
      rw [hnewline] at hspelled
      exact (List.cons.inj hspelled).1
    rw [piece, if_neg hline] at h
    split at h
    · rename_i hblank
      cases h
      exact .inr (.inl ⟨rfl, hblank, fun _ hend => absurd hend hline⟩)
    · split at h
      · rename_i hhash
        cases h
        exact .inr (.inr ⟨rfl, hhash⟩)
      · left
        split at h
        · rename_i hquote
          exact htoken (spells_of_textPiece hquote h)
        · split at h
          · rename_i hdigit
            exact htoken (spells_of_numberPiece hdigit h)
          · split at h
            · rename_i hname
              exact htoken (spells_of_namePiece hname h)
            · exact htoken (spells_of_symbolPiece h)

end Lexer

end CrapsStrategy
