import CrapsStrategy.Proofs.Text.Squeeze
import CrapsStrategy.Proofs.Token.Lexer

/-!
# `CrapsStrategy.Proofs.Token.Spacing`: tokens of a text with other blanks

Squeezing the blanks of a text on one line changes none of its tokens
but the text literals, and those only in their blanks
(`tokenize_squeeze`). Every other piece is solid, so it is there in the
squeezed text, and what follows it starts a new one there too. A literal
that is written with single spaces is not changed either.
-/

set_option autoImplicit false

namespace CrapsStrategy

open Text

/-! ### Tokens that differ in text only -/

/-- A token with its text changed, if it is a text literal. -/
def Token.mapText (f : String → String) : Token → Token
  | text s => text (f s)
  | token => token

/-- Texts that are left as they are leave the token. -/
theorem Token.mapText_id (token : Token) : token.mapText id = token := by
  cases token <;> rfl

/-- Tokens that are the same, wherever they stand, when their texts are
changed. -/
def AlikeUpTo (f : String → String) (ts us : List Located) : Prop :=
  List.Forall₂ (fun t u => t.token.mapText f = u.token.mapText f) ts us

/-- A token that is no text literal stays the same. -/
theorem Token.eq_of_mapText {f : String → String} {token other : Token}
    (h : token.mapText f = other.mapText f) (htext : ∀ s, token ≠ .text s) : other = token := by
  cases token with
  | text s => exact absurd rfl (htext s)
  | _ => cases other <;> first | exact h.symm | cases h

namespace AlikeUpTo

variable {f : String → String} {ts us : List Located} {t : Located}

/-- Tokens that are alike have their first tokens alike. -/
theorem of_cons (h : AlikeUpTo f (t :: ts) us) :
    ∃ u vs, us = u :: vs ∧ t.token.mapText f = u.token.mapText f ∧ AlikeUpTo f ts vs := by
  cases h with
  | cons ht hts => exact ⟨_, _, rfl, ht, hts⟩

/-- A first token that is no text is the same on both sides. -/
theorem of_token {token : Token} (h : AlikeUpTo f (t :: ts) us) (ht : t.token = token)
    (htext : ∀ s, token ≠ .text s) :
    ∃ u vs, us = u :: vs ∧ u.token = token ∧ AlikeUpTo f ts vs := by
  obtain ⟨u, vs, hus, htoken, hts⟩ := h.of_cons
  exact ⟨u, vs, hus, by rw [Token.eq_of_mapText htoken (ht ▸ htext), ht], hts⟩

/-- A token of a kind that texts are not of. -/
theorem of_eq_some {β : Type} {g : Token → Option β} {b : β} (h : AlikeUpTo f (t :: ts) us)
    (ht : g t.token = some b) (htext : ∀ s, g (.text s) = none) :
    ∃ u vs, us = u :: vs ∧ g u.token = some b ∧ AlikeUpTo f ts vs := by
  obtain ⟨u, vs, hus, htoken, hts⟩ := h.of_token rfl fun s hs => by
    rw [hs, htext] at ht
    cases ht
  exact ⟨u, vs, hus, htoken ▸ ht, hts⟩

/-- A next token that is no text is the same on both sides, also at the
end of the input. -/
theorem next_token (h : AlikeUpTo f ts us) {token : Token}
    (ht : (TokenStream.next ts).token = token) (htext : ∀ s, token ≠ .text s) :
    (TokenStream.next us).token = token := by
  cases ts with
  | nil =>
    cases h
    exact ht
  | cons t ts =>
    obtain ⟨u, vs, rfl, hu, _⟩ := h.of_token ht htext
    exact hu

end AlikeUpTo

namespace Lexer

/-! ### Blanks and pieces -/

/-- Names and numbers have no blanks. -/
theorem isNameChar_of_isBlank {c : Char} (h : isBlank c = true) : isNameChar c = false := by
  rw [← Bool.not_eq_true]
  simp only [isBlank, isNameChar, isNameStart, isLetter, isDigit, Char.le_def,
    UInt32.le_iff_toNat_le, Bool.or_eq_true, Bool.and_eq_true, decide_eq_true_eq, beq_iff_eq,
    Char.toNat] at h ⊢
  have hzero : ('0' : Char).val.toNat = 48 := rfl
  have hnine : ('9' : Char).val.toNat = 57 := rfl
  have hlowerA : ('a' : Char).val.toNat = 97 := rfl
  have hlowerZ : ('z' : Char).val.toNat = 122 := rfl
  have hupperA : ('A' : Char).val.toNat = 65 := rfl
  have hupperZ : ('Z' : Char).val.toNat = 90 := rfl
  rintro ((hletter | rfl) | hdigit)
  · omega
  · revert h
    decide
  · omega

/-- No blank starts a name. -/
theorem isNameStart_of_isBlank {c : Char} (h : isBlank c = true) : isNameStart c = false := by
  have hname := isNameChar_of_isBlank h
  rw [isNameChar, Bool.or_eq_false_iff] at hname
  exact hname.1

/-- No blank is a digit. -/
theorem isDigit_of_isBlank {c : Char} (h : isBlank c = true) : isDigit c = false := by
  have hname := isNameChar_of_isBlank h
  rw [isNameChar, Bool.or_eq_false_iff] at hname
  exact hname.2

/-- No blank is the letter of an escape. -/
theorem escape?_of_isBlank {c : Char} (h : isBlank c = true) : escape? c = none := by
  unfold escape?
  split
  all_goals first | rfl | exact absurd h (by decide)

/-- No character of a name is blank. -/
theorem isBlank_of_isNameChar {c : Char} (h : isNameChar c = true) : isBlank c = false := by
  rw [← Bool.not_eq_true]
  intro hblank
  rw [isNameChar_of_isBlank hblank] at h
  cases h

/-! ### Numbers -/

/-- A number in front of a text ends where it did, for a blank would
have ended it. -/
theorem splitNumber_squeezeFrom (cs : List Char) :
    splitNumber (squeezeFrom false cs) = splitNumber cs := by
  unfold splitNumber
  rw [takeWhile_squeezeFrom (fun _ => isDigit_of_isBlank),
    dropWhile_squeezeFrom (fun _ => isDigit_of_isBlank)]
  cases cs.dropWhile isDigit with
  | nil => rfl
  | cons c rest =>
    cases hc : isBlank c with
    | true =>
      have hpoint : c ≠ '.' := by
        rintro rfl
        cases hc
      rw [squeezeFrom_false_cons hc]
      simp [hpoint]
    | false =>
      rw [squeezeFrom_solid_cons hc]
      by_cases hpoint : c = '.'
      · subst hpoint
        simp only [takeWhile_squeezeFrom fun _ => isDigit_of_isBlank]
      · simp [hpoint]

/-- What a piece has after its first character is solid if all of it is. -/
theorem isSolid_take_of_prefix {lexeme rest : List Char} {c : Char}
    (hfront : lexeme <+: c :: rest) (h : IsSolid lexeme) :
    IsSolid (rest.take (lexeme.length - 1)) := by
  cases lexeme with
  | nil => exact fun d hd => absurd hd (by simp)
  | cons d lexeme =>
    obtain ⟨_, hrest⟩ := List.cons_prefix_cons.1 hfront
    rw [List.length_cons, Nat.add_sub_cancel, ← List.prefix_iff_eq_take.1 hrest]
    exact (List.forall_mem_cons.1 h).2

/-- Digits are solid. -/
theorem isSolid_takeWhile_isDigit (cs : List Char) : IsSolid (cs.takeWhile isDigit) := by
  intro c hc
  refine isBlank_of_isNameChar ?_
  rw [isNameChar, List.mem_takeWhile_imp hc, Bool.or_true]

/-- A number is in front of its text and solid. -/
theorem lexeme_splitNumber (cs : List Char) :
    (splitNumber cs).1 ++ (splitNumber cs).2 <+: cs ∧
      IsSolid ((splitNumber cs).1 ++ (splitNumber cs).2) := by
  have hwhole := isSolid_takeWhile_isDigit cs
  have hsplit := List.takeWhile_append_dropWhile (p := isDigit) (l := cs)
  unfold splitNumber
  dsimp only
  split
  · rename_i rest hrest
    split
    · rw [List.append_nil]
      exact ⟨List.takeWhile_prefix _, hwhole⟩
    · refine ⟨?_, ?_⟩
      · rw [hrest] at hsplit
        conv_rhs => rw [← hsplit]
        exact (List.prefix_append_right_inj _).2
          (List.cons_prefix_cons.2 ⟨rfl, List.takeWhile_prefix _⟩)
      · intro c hc
        rcases List.mem_append.1 hc with hc | hc
        · exact hwhole c hc
        · rcases List.mem_cons.1 hc with rfl | hc
          · rfl
          · exact isSolid_takeWhile_isDigit _ c hc
  · rw [List.append_nil]
    exact ⟨List.takeWhile_prefix _, hwhole⟩

/-- A number in front of a text is in front of the squeezed text too. -/
theorem numberPiece_squeezeFrom {position : Position} {c : Char} {rest : List Char} {p : Piece}
    (h : numberPiece position (c :: rest) = .ok p) :
    numberPiece position (squeezeFrom false (c :: rest)) = .ok p ∧
      IsSolid (rest.take p.more) := by
  obtain ⟨hfront, hsolid⟩ := lexeme_splitNumber (c :: rest)
  unfold numberPiece at h ⊢
  rw [splitNumber_squeezeFrom]
  dsimp only at h ⊢
  have htake : IsSolid ((c :: rest).take
      ((splitNumber (c :: rest)).1 ++ (splitNumber (c :: rest)).2).length) := by
    rwa [← List.prefix_iff_eq_take.1 hfront]
  rw [drop_squeezeFrom htake, any_head?_squeezeFrom fun _ => isNameStart_of_isBlank]
  refine ⟨h, ?_⟩
  split at h
  · cases h
  · split at h
    · cases h
      exact isSolid_take_of_prefix hfront hsolid
    · cases h

/-! ### Names and symbols -/

/-- A name goes on with each of its characters. -/
theorem nameLength_cons {c : Char} (hc : isNameChar c = true) (rest : List Char) :
    nameLength (c :: rest) = nameLength rest + 1 := by
  rw [nameLength, if_pos hc]
  -- A point is no name character.
  rintro d others ⟨rfl, rfl⟩
  exact absurd hc (by decide)

/-- A point belongs to a name if one of its characters follows. -/
theorem nameLength_point (c : Char) (rest : List Char) :
    nameLength ('.' :: c :: rest) = if isNameChar c then nameLength (c :: rest) + 1 else 0 := by
  rw [nameLength]

/-- Nothing else belongs to a name. -/
theorem nameLength_eq_zero {c : Char} (hc : isNameChar c = false) (hpoint : c ≠ '.')
    (rest : List Char) : nameLength (c :: rest) = 0 := by
  rw [nameLength, if_neg (by simp [hc])]
  exact fun _ _ heq _ => hpoint heq

/-- A name in front of a text is as long as it was. -/
theorem nameLength_squeezeFrom (cs : List Char) :
    nameLength (squeezeFrom false cs) = nameLength cs := by
  induction cs with
  | nil => rfl
  | cons c cs ih =>
    cases hname : isNameChar c with
    | true =>
      rw [squeezeFrom_solid_cons (isBlank_of_isNameChar hname), nameLength_cons hname,
        nameLength_cons hname, ih]
    | false =>
      by_cases hpoint : c = '.'
      · subst hpoint
        rw [squeezeFrom_solid_cons rfl]
        -- A point belongs to the name only before another character of it,
        -- and what stands there is solid in both texts or in neither.
        cases cs with
        | nil => rfl
        | cons d cs =>
          cases hd : isBlank d with
          | false =>
            rw [squeezeFrom_solid_cons hd] at ih ⊢
            rw [nameLength_point, nameLength_point, ih]
          | true =>
            rw [squeezeFrom_false_cons hd, nameLength_point, nameLength_point,
              isNameChar_of_isBlank hd, isNameChar_of_isBlank rfl, if_neg Bool.false_ne_true,
              if_neg Bool.false_ne_true]
      · rw [nameLength_eq_zero hname hpoint]
        cases hc : isBlank c with
        | false => rw [squeezeFrom_solid_cons hc, nameLength_eq_zero hname hpoint]
        | true => rw [squeezeFrom_false_cons hc, nameLength_eq_zero rfl (by decide)]

/-- A name is solid. -/
theorem isSolid_take_nameLength (cs : List Char) : IsSolid (cs.take (nameLength cs)) := by
  induction cs with
  | nil => exact fun c hc => absurd hc (by simp)
  | cons c cs ih =>
    have hnone : IsSolid ((c :: cs).take 0) := fun c hc => absurd hc (by simp)
    cases hname : isNameChar c with
    | true =>
      rw [nameLength_cons hname, List.take_succ_cons]
      exact List.forall_mem_cons.2 ⟨isBlank_of_isNameChar hname, ih⟩
    | false =>
      by_cases hpoint : c = '.'
      · subst hpoint
        cases cs with
        | nil => exact hnone
        | cons d cs =>
          rw [nameLength_point]
          split
          · rw [List.take_succ_cons]
            exact List.forall_mem_cons.2 ⟨rfl, ih⟩
          · exact hnone
      · rw [nameLength_eq_zero hname hpoint]
        exact hnone

/-- A name is there in the squeezed text, at the same place in front. -/
theorem namePiece_squeezeFrom {position : Position} {c : Char} {rest : List Char} {p : Piece}
    (h : namePiece position (c :: rest) = .ok p) :
    namePiece position (squeezeFrom false (c :: rest)) = .ok p ∧ IsSolid (rest.take p.more) := by
  have hsolid := isSolid_take_nameLength (c :: rest)
  unfold namePiece at h ⊢
  rw [nameLength_squeezeFrom, take_squeezeFrom hsolid]
  refine ⟨h, ?_⟩
  dsimp only at h
  split at h
  · cases h
  · cases h
    exact isSolid_take_of_prefix (List.take_prefix _ _) hsolid

/-- A symbol is solid. -/
theorem isSolid_symbol (symbol : Symbol) : IsSolid symbol.text.toList := by
  cases symbol <;> decide +kernel

/-- The same symbol is in front of the squeezed text. -/
theorem atStart?_squeezeFrom (cs : List Char) :
    Symbol.atStart? (squeezeFrom false cs) = Symbol.atStart? cs := by
  unfold Symbol.atStart?
  congr 1
  funext symbol
  rw [Bool.eq_iff_iff, List.isPrefixOf_iff_prefix, List.isPrefixOf_iff_prefix]
  exact prefix_squeezeFrom (isSolid_symbol symbol)

/-- A symbol is there in the squeezed text, at the same place in front. -/
theorem symbolPiece_squeezeFrom {position : Position} {c : Char} {rest : List Char} {p : Piece}
    (hc : isBlank c = false) (h : symbolPiece position c rest = .ok p) :
    symbolPiece position c (squeezeFrom false rest) = .ok p ∧ IsSolid (rest.take p.more) := by
  unfold symbolPiece at h ⊢
  rw [← squeezeFrom_solid_cons hc false, atStart?_squeezeFrom]
  refine ⟨h, ?_⟩
  split at h
  · rename_i symbol hsymbol
    cases h
    unfold Symbol.atStart? at hsymbol
    have hfound := List.find?_some hsymbol
    have hfront := List.isPrefixOf_iff_prefix.1 hfound
    exact isSolid_take_of_prefix hfront (isSolid_symbol symbol)
  · cases h

/-! ### Text literals -/

/-- What is not blank. -/
def solid (cs : List Char) : List Char :=
  cs.filter fun c => !isBlank c

/-- A blank in front is left out. -/
theorem solid_cons_blank {c : Char} (hc : isBlank c = true) (cs : List Char) :
    solid (c :: cs) = solid cs :=
  List.filter_cons_of_neg (by simp [hc])

/-- What is not blank is kept. -/
theorem solid_cons_solid {c : Char} (hc : isBlank c = false) (cs : List Char) :
    solid (c :: cs) = c :: solid cs :=
  List.filter_cons_of_pos (by simp [hc])

/-- Texts that differ in blanks still do so behind one more character. -/
theorem solid_cons {xs ys : List Char} (c : Char) (h : solid xs = solid ys) :
    solid (c :: xs) = solid (c :: ys) := by
  cases hc : isBlank c with
  | true => rw [solid_cons_blank hc, solid_cons_blank hc, h]
  | false => rw [solid_cons_solid hc, solid_cons_solid hc, h]

variable {quote : Char}

/-- The quote ends a text literal. -/
theorem textBody?_quote (quote : Char) (rest : List Char) :
    textBody? quote (quote :: rest) = some ([], 1) := by
  cases rest <;> rw [textBody?, if_pos rfl]

/-- A backslash takes the next character with it, known as an escape or
not. -/
theorem textBody?_escape (hquote : '\\' ≠ quote) (d : Char) (rest : List Char) :
    textBody? quote ('\\' :: d :: rest) =
      (textBody? quote rest).map fun (content, length) =>
        (match escape? d with
          | some e => e :: content
          | none => '\\' :: d :: content, length + 2) := by
  rw [textBody?, if_neg hquote]
  exact if_pos rfl

/-- A character that neither closes a literal nor escapes. -/
theorem textBody?_cons {c : Char} (hquote : c ≠ quote) (hslash : c ≠ '\\') (rest : List Char) :
    textBody? quote (c :: rest) =
      (textBody? quote rest).map fun (content, length) => (c :: content, length + 1) := by
  cases rest <;> simp [textBody?, hquote, hslash]

/-- A literal of a text is there in the squeezed text, where its content
has other blanks at most, and the same ones if they were single spaces.
-/
theorem textBody?_squeezeFrom (hsolid : isBlank quote = false) {rest content : List Char} {n : Nat}
    (h : textBody? quote rest = some (content, n)) (afterBlank : Bool) :
    ∃ content' n', textBody? quote (squeezeFrom afterBlank rest) = some (content', n') ∧
      (squeezeFrom afterBlank rest).drop n' = squeezeFrom false (rest.drop n) ∧
      solid content' = solid content ∧
      (squeezeFrom afterBlank (rest.take n) = rest.take n → content' = content) := by
  induction rest using textBody?.induct quote generalizing content n afterBlank with
  | case1 =>
    rw [textBody?] at h
    cases h
  | case2 rest =>
    rw [textBody?_quote] at h
    cases h
    refine ⟨[], 1, ?_, ?_, rfl, fun _ => rfl⟩
    · rw [squeezeFrom_solid_cons hsolid, textBody?_quote]
    · rw [squeezeFrom_solid_cons hsolid]
      rfl
  | case3 hquote =>
    rw [textBody?, if_neg hquote, if_pos rfl] at h
    cases h
  | case4 d rest hquote ih =>
    rw [textBody?_escape hquote] at h
    obtain ⟨⟨inner, m⟩, hinner, heq⟩ := Option.map_eq_some_iff.1 h
    cases heq
    rw [squeezeFrom_solid_cons rfl]
    cases hd : isBlank d with
    | true =>
      obtain ⟨inner', m', hinner', hdrop, hcontent, hsame⟩ := ih hinner true
      rw [squeezeFrom_false_cons hd, textBody?_escape hquote, hinner', escape?_of_isBlank hd,
        escape?_of_isBlank rfl]
      refine ⟨_, _, rfl, hdrop, ?_, fun htight => ?_⟩
      · refine solid_cons '\\' ?_
        rw [solid_cons_blank hd, solid_cons_blank rfl, hcontent]
      · rw [List.take_succ_cons, List.take_succ_cons, squeezeFrom_solid_cons rfl,
          squeezeFrom_false_cons hd] at htight
        injection htight with _ htight
        injection htight with hspace htight
        rw [← hspace, hsame htight]
    | false =>
      obtain ⟨inner', m', hinner', hdrop, hcontent, hsame⟩ := ih hinner false
      rw [squeezeFrom_solid_cons hd, textBody?_escape hquote, hinner']
      refine ⟨_, _, rfl, hdrop, ?_, fun htight => ?_⟩
      · split
        · exact solid_cons _ hcontent
        · exact solid_cons _ (solid_cons _ hcontent)
      · rw [List.take_succ_cons, List.take_succ_cons, squeezeFrom_solid_cons rfl,
          squeezeFrom_solid_cons hd] at htight
        injection htight with _ htight
        injection htight with _ htight
        rw [hsame htight]
  | case5 c rest hquote hslash ih =>
    rw [textBody?_cons hquote hslash] at h
    obtain ⟨⟨inner, m⟩, hinner, heq⟩ := Option.map_eq_some_iff.1 h
    cases heq
    cases hc : isBlank c with
    | false =>
      obtain ⟨inner', m', hinner', hdrop, hcontent, hsame⟩ := ih hinner false
      rw [squeezeFrom_solid_cons hc, textBody?_cons hquote hslash, hinner']
      refine ⟨_, _, rfl, hdrop, solid_cons c hcontent, fun htight => ?_⟩
      rw [List.take_succ_cons, squeezeFrom_solid_cons hc] at htight
      injection htight with _ htight
      rw [hsame htight]
    | true =>
      obtain ⟨inner', m', hinner', hdrop, hcontent, hsame⟩ := ih hinner true
      cases afterBlank with
      | true =>
        -- The blank is dropped, so the literal was not written with single spaces.
        rw [squeezeFrom_true_cons hc]
        refine ⟨inner', m', hinner', hdrop, ?_, fun htight => ?_⟩
        · rw [solid_cons_blank hc, hcontent]
        · rw [List.take_succ_cons, squeezeFrom_true_cons hc] at htight
          have hlength := length_squeezeFrom_le true (rest.take m)
          rw [htight, List.length_cons] at hlength
          omega
      | false =>
        have hspace : ' ' ≠ quote := by
          rintro rfl
          cases hsolid
        rw [squeezeFrom_false_cons hc, textBody?_cons hspace (by decide), hinner']
        refine ⟨_, _, rfl, hdrop, ?_, fun htight => ?_⟩
        · rw [solid_cons_blank hc, solid_cons_blank rfl, hcontent]
        · rw [List.take_succ_cons, squeezeFrom_false_cons hc] at htight
          injection htight with hsame' htight
          rw [← hsame', hsame htight]

/-! ### Pieces -/

/-- What is not blank in a text. -/
def solidText (s : String) : String :=
  String.ofList (solid s.toList)

section

variable {position position' : Position} {c : Char} {rest : List Char} {p : Piece}

/-- A text literal that is read at one position is read at any other. -/
theorem textPiece_anywhere (h : textPiece quote position rest = .ok p) :
    textPiece quote position' rest = .ok p := by
  unfold textPiece at h ⊢
  split at h
  · exact h
  · cases h

/-- A number that is read at one position is read at any other. -/
theorem numberPiece_anywhere (h : numberPiece position rest = .ok p) :
    numberPiece position' rest = .ok p := by
  unfold numberPiece at h ⊢
  dsimp only at h ⊢
  split at h
  · cases h
  · rename_i hletter
    rw [if_neg hletter]
    split at h
    · exact h
    · cases h

/-- A name that is read at one position is read at any other. -/
theorem namePiece_anywhere (h : namePiece position rest = .ok p) :
    namePiece position' rest = .ok p := by
  unfold namePiece at h ⊢
  dsimp only at h ⊢
  split at h
  · cases h
  · exact h

/-- A symbol that is read at one position is read at any other. -/
theorem symbolPiece_anywhere (h : symbolPiece position c rest = .ok p) :
    symbolPiece position' c rest = .ok p := by
  unfold symbolPiece at h ⊢
  split at h
  · exact h
  · cases h

/-- A piece that is not blank, by its first character. -/
theorem piece_of_solid (hc : isBlank c = false) (depth : Nat) (position : Position)
    (rest : List Char) :
    piece .script depth position c rest =
      if c = '#' then .ok { token := none, more := (rest.takeWhile (· ≠ '\n')).length }
      else if c = '\'' ∨ c = '"' then textPiece c position rest
      else if isDigit c then numberPiece position (c :: rest)
      else if isNameStart c then namePiece position (c :: rest)
      else symbolPiece position c rest := by
  have hline : c ≠ '\n' := by
    rintro rfl
    cases hc
  simp only [piece, hline, hc, if_false, Bool.false_eq_true, true_and]

/-- A piece that starts with a solid character does not depend on where
it is. -/
theorem piece_anywhere {depth depth' : Nat} (hc : isBlank c = false)
    (h : piece .script depth position c rest = .ok p) :
    piece .script depth' position' c rest = .ok p := by
  rw [piece_of_solid hc] at h ⊢
  by_cases hhash : c = '#'
  · rw [if_pos hhash] at h ⊢
    exact h
  rw [if_neg hhash] at h ⊢
  by_cases hquote : c = '\'' ∨ c = '"'
  · rw [if_pos hquote] at h ⊢
    exact textPiece_anywhere h
  rw [if_neg hquote] at h ⊢
  by_cases hdigit : isDigit c = true
  · rw [if_pos hdigit] at h ⊢
    exact numberPiece_anywhere h
  rw [if_neg hdigit] at h ⊢
  by_cases hname : isNameStart c = true
  · rw [if_pos hname] at h ⊢
    exact namePiece_anywhere h
  · rw [if_neg hname] at h ⊢
    exact symbolPiece_anywhere h

end

/-- The piece of a text is there in the squeezed text, up to the blanks of
a text literal, and what comes after it is squeezed on its own. -/
structure Squeezed (c : Char) (rest : List Char) (p q : Piece) : Prop where
  later : (squeezeFrom false rest).drop q.more = squeezeFrom false (rest.drop p.more)
  alike : q.token.map (Token.mapText solidText) = p.token.map (Token.mapText solidText)
  same : (∀ s, p.token = some (.text s) →
    squeezeFrom false (c :: rest.take p.more) = c :: rest.take p.more) → q.token = p.token

/-- A piece that is solid is there as it is. -/
theorem Squeezed.of_solid {c : Char} {rest : List Char} {p : Piece}
    (h : IsSolid (rest.take p.more)) : Squeezed c rest p p :=
  ⟨drop_squeezeFrom h, rfl, fun _ => rfl⟩

/-- A text literal is there in the squeezed text, with its blanks
squeezed. -/
theorem textPiece_squeezeFrom {position : Position} (hsolid : isBlank quote = false)
    {rest : List Char} {p : Piece} (h : textPiece quote position rest = .ok p) :
    ∃ q, textPiece quote position (squeezeFrom false rest) = .ok q ∧ Squeezed quote rest p q := by
  unfold textPiece at h
  split at h
  · rename_i content length hbody
    cases h
    obtain ⟨content', length', hbody', hlater, hcontent, hsame⟩ :=
      textBody?_squeezeFrom hsolid hbody false
    refine ⟨_, by rw [textPiece, hbody'], hlater, ?_, fun htight => ?_⟩
    · simp only [Option.map_some, Token.mapText, solidText, String.toList_ofList, hcontent]
    · have hall := htight _ rfl
      rw [squeezeFrom_solid_cons hsolid] at hall
      injection hall with _ hall
      simp only [hsame hall]
  · cases h

/-- A piece that begins with no blank is there in the squeezed text. A
comment is the rest of the line in both. -/
theorem piece_squeezeFrom {depth : Nat} {position : Position} {c : Char} {rest : List Char}
    {p : Piece} (hc : isBlank c = false) (hline : '\n' ∉ rest)
    (h : piece .script depth position c rest = .ok p) :
    ∃ q, piece .script depth position c (squeezeFrom false rest) = .ok q ∧
      Squeezed c rest p q := by
  rw [piece_of_solid hc] at h ⊢
  by_cases hhash : c = '#'
  · -- A comment goes to the end of both texts.
    have hall {cs : List Char} (hcs : '\n' ∉ cs) :
        cs.takeWhile (fun d => decide (d ≠ '\n')) = cs := by
      rw [List.takeWhile_eq_self_iff]
      intro d hd
      exact decide_eq_true fun heq => hcs (heq ▸ hd)
    have hsqueezed : '\n' ∉ squeezeFrom false rest := by
      intro hmem
      rcases eq_space_of_mem_squeezeFrom hmem with hspace | ⟨hsolid, _⟩
      · exact absurd hspace (by decide)
      · cases hsolid
    rw [if_pos hhash] at h ⊢
    rw [hall hline] at h
    rw [hall hsqueezed]
    cases h
    refine ⟨_, rfl, ?_, rfl, fun _ => rfl⟩
    rw [List.drop_length, List.drop_length]
    rfl
  rw [if_neg hhash] at h ⊢
  by_cases hquote : c = '\'' ∨ c = '"'
  · rw [if_pos hquote] at h ⊢
    exact textPiece_squeezeFrom hc h
  rw [if_neg hquote] at h ⊢
  by_cases hdigit : isDigit c = true
  · rw [if_pos hdigit] at h ⊢
    obtain ⟨hq, hsolid⟩ := numberPiece_squeezeFrom h
    rw [squeezeFrom_solid_cons hc] at hq
    exact ⟨p, hq, .of_solid hsolid⟩
  rw [if_neg hdigit] at h ⊢
  by_cases hname : isNameStart c = true
  · rw [if_pos hname] at h ⊢
    obtain ⟨hq, hsolid⟩ := namePiece_squeezeFrom h
    rw [squeezeFrom_solid_cons hc] at hq
    exact ⟨p, hq, .of_solid hsolid⟩
  · rw [if_neg hname] at h ⊢
    obtain ⟨hq, hsolid⟩ := symbolPiece_squeezeFrom hc h
    exact ⟨p, hq, .of_solid hsolid⟩

/-! ### Texts -/

/-- The text literals of a script as they are written. -/
def literals (cs : List Char) : List (List Char) :=
  match cs with
  | [] => []
  | c :: rest =>
    match piece .script 0 .start c rest with
    | .error _ => []
    | .ok p =>
      match p.token with
      | some (.text _) => (c :: rest.take p.more) :: literals (rest.drop p.more)
      | _ => literals (rest.drop p.more)
termination_by cs.length
decreasing_by all_goals simp only [List.length_drop, List.length_cons]; omega

/-- Whether text literals are written with single spaces. -/
def HasEvenLiterals (cs : List Char) : Prop :=
  ∀ literal ∈ literals cs, squeezeFrom false literal = literal

/-- The literals of a text begin with its first piece, if that is one. -/
theorem literals_cons {c : Char} {rest : List Char} {p : Piece}
    (h : piece .script 0 .start c rest = .ok p) :
    literals (c :: rest) = match p.token with
      | some (.text _) => (c :: rest.take p.more) :: literals (rest.drop p.more)
      | _ => literals (rest.drop p.more) := by
  rw [literals, h]

/-- An even text goes on evenly. -/
theorem HasEvenLiterals.of_cons {c : Char} {rest : List Char} {p : Piece}
    (h : piece .script 0 .start c rest = .ok p) (heven : HasEvenLiterals (c :: rest)) :
    HasEvenLiterals (rest.drop p.more) ∧
      ∀ s, p.token = some (.text s) →
        squeezeFrom false (c :: rest.take p.more) = c :: rest.take p.more := by
  unfold HasEvenLiterals at heven ⊢
  rw [literals_cons h] at heven
  split at heven
  · rw [List.forall_mem_cons] at heven
    exact ⟨heven.2, fun _ _ => heven.1⟩
  · rename_i hother
    exact ⟨heven, fun s hs => absurd hs (hother s)⟩

/-- The depth in brackets asks for no text. -/
theorem depthAfter_mapText (f : String → String) (depth : Nat) (token : Option Token) :
    depthAfter depth (token.map (Token.mapText f)) = depthAfter depth token := by
  cases token with
  | none => rfl
  | some token => cases token <;> rfl

/-- A blank on the line is a piece without a token. -/
theorem piece_of_blank {c : Char} (hc : isBlank c = true) (hline : c ≠ '\n') (depth : Nat)
    (position : Position) (rest : List Char) :
    piece .script depth position c rest = .ok { token := none, more := 0 } := by
  rw [piece, if_neg hline, if_pos hc]

/-- A scan passes over a blank on the line. -/
theorem scan_of_blank {c : Char} (hc : isBlank c = true) (hline : c ≠ '\n') (depth : Nat)
    (position : Position) (rest : List Char) :
    scan .script depth position (c :: rest) =
      scan .script depth (position.advanceBy [c]) rest := by
  rw [scan, piece_of_blank hc hline]
  show (scan .script depth (position.advanceBy (c :: rest.take 0)) (rest.drop 0) >>= pure) = _
  rw [bind_pure]
  rfl

/-- The token of a piece in front of those of the rest. -/
theorem alikeUpTo_emit {f : String → String} {ts us : List Located} (h : AlikeUpTo f ts us)
    (position position' : Position) (token token' : Option Token) :
    token.map (Token.mapText f) = token'.map (Token.mapText f) →
      AlikeUpTo f
        (match token with
          | some token => ⟨token, position⟩ :: ts
          | none => ts)
        (match token' with
          | some token => ⟨token, position'⟩ :: us
          | none => us) := by
  intro htoken
  cases token with
  | none =>
    cases token' with
    | none => exact h
    | some token' => cases htoken
  | some token =>
    cases token' with
    | none => cases htoken
    | some token' => exact .cons (Option.some.inj htoken) h

/-- The scan of a text on one line against that of the squeezed text.
The induction is over the pieces; `afterBlank` tells whether the blank
in front has been passed over. -/
theorem scan_squeezeFrom {depth : Nat} {position : Position} {cs : List Char} {ts : List Located}
    (hline : '\n' ∉ cs) (h : scan .script depth position cs = .ok ts) (afterBlank : Bool)
    (position' : Position) :
    ∃ us, scan .script depth position' (squeezeFrom afterBlank cs) = .ok us ∧
      AlikeUpTo solidText ts us ∧ (HasEvenLiterals cs → AlikeUpTo id ts us) := by
  induction depth, position, cs using scan.induct generalizing ts afterBlank position' with
  | case1 depth position =>
    rw [scan] at h
    cases h
    refine ⟨[⟨.endOfInput, position'⟩], ?_, .cons rfl .nil, fun _ => .cons rfl .nil⟩
    rw [squeezeFrom, scan]
  | case2 depth position c rest ih =>
    rw [List.mem_cons, not_or] at hline
    obtain ⟨hline, hrest⟩ := hline
    rw [scan] at h
    obtain ⟨p, hp, h⟩ := bind_eq_ok.1 h
    obtain ⟨later, hlater, h⟩ := bind_eq_ok.1 h
    cases h
    have ih := ih p (fun hmem => hrest (List.mem_of_mem_drop hmem)) hlater
    cases hc : isBlank c with
    | true =>
      rw [piece_of_blank hc (Ne.symm hline)] at hp
      cases hp
      have heven (h : HasEvenLiterals (c :: rest)) : HasEvenLiterals rest :=
        (h.of_cons (piece_of_blank hc (Ne.symm hline) _ _ _)).1
      cases afterBlank with
      | true =>
        -- A further blank is gone from the squeezed text.
        rw [squeezeFrom_true_cons hc]
        obtain ⟨us, hus, halike, hsame⟩ := ih true position'
        exact ⟨us, hus, halike, fun h => hsame (heven h)⟩
      | false =>
        -- The first blank stands there as a space.
        rw [squeezeFrom_false_cons hc, scan_of_blank rfl (by decide)]
        obtain ⟨us, hus, halike, hsame⟩ := ih true (position'.advanceBy [' '])
        exact ⟨us, hus, halike, fun h => hsame (heven h)⟩
    | false =>
      -- The piece starts elsewhere in the squeezed text, where it is taken
      -- just the same.
      obtain ⟨q, hq, hsqueezed⟩ := piece_squeezeFrom hc hrest hp
      obtain ⟨us, hus, halike, hsame⟩ :=
        ih false (position'.advanceBy (c :: (squeezeFrom false rest).take q.more))
      rw [squeezeFrom_solid_cons hc, scan, piece_anywhere hc hq]
      have hdepth : depthAfter depth q.token = depthAfter depth p.token := by
        rw [← depthAfter_mapText solidText, hsqueezed.alike, depthAfter_mapText]
      refine ⟨_, bind_eq_ok.2 ⟨q, rfl, bind_eq_ok.2 ⟨us, ?_, rfl⟩⟩, ?_, fun h => ?_⟩
      · rw [hdepth, hsqueezed.later]
        exact hus
      · exact alikeUpTo_emit halike _ _ _ _ hsqueezed.alike.symm
      · obtain ⟨heven, hliteral⟩ := h.of_cons (piece_anywhere hc hp)
        rw [hsqueezed.same hliteral]
        exact alikeUpTo_emit (hsame heven) _ _ _ _ rfl

end Lexer

/-- The tokens of a text on one line are those of the squeezed text, up to
the blanks in text literals, and the same ones where the literals are
written with single spaces. -/
theorem tokenize_squeeze {source : String} (hline : '\n' ∉ source.toList) {ts : List Located}
    (h : tokenize .script source = .ok ts) :
    ∃ us, tokenize .script (squeeze source) = .ok us ∧ AlikeUpTo Lexer.solidText ts us ∧
      (Lexer.HasEvenLiterals source.toList → AlikeUpTo id ts us) := by
  unfold tokenize squeeze
  rw [String.toList_ofList]
  exact Lexer.scan_squeezeFrom hline h false .start

end CrapsStrategy
