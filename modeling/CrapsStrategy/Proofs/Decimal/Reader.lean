import CrapsStrategy.Decimal.Reader
import CrapsStrategy.Proofs.Token.Spacing

/-!
# `CrapsStrategy.Proofs.Decimal.Reader`: blanks and number texts

A number text has no blanks, not even around it (`isSolid_of_read?`), so
squeezing the blanks of a text makes no number of it and changes none
(`read?_squeeze`).
-/

set_option autoImplicit false

namespace CrapsStrategy

open Text Lexer

namespace Decimal

variable {cs : List Char}

/-- A sign is no blank. -/
theorem isSolid_of_takeSign (h : IsSolid (takeSign cs).2) : IsSolid cs := by
  unfold takeSign at h
  split at h
  · exact List.forall_mem_cons.2 ⟨rfl, h⟩
  · exact List.forall_mem_cons.2 ⟨rfl, h⟩
  · exact h

/-- Digits are no blanks, and nothing but digits is read as a count. -/
theorem isSolid_of_digits? {n : Nat} (h : digits? cs = some n) : IsSolid cs := by
  unfold digits? at h
  split at h
  · rename_i hdigits
    intro c hc
    refine isBlank_of_isNameChar ?_
    rw [isNameChar, List.all_eq_true.1 hdigits.2 c hc, Bool.or_true]
  · cases h

/-- An exponent is a mark, perhaps a sign, and digits. -/
theorem isSolid_of_exponent? {exponent : Int} (h : exponent? cs = some exponent) : IsSolid cs := by
  unfold exponent? at h
  split at h
  · exact fun c hc => absurd hc List.not_mem_nil
  · rename_i c rest
    split at h
    · rename_i hletter
      obtain ⟨i, hi, _⟩ := Option.map_eq_some_iff.1 h
      obtain ⟨n, hn, _⟩ := Option.bind_eq_some_iff.1 hi
      refine List.forall_mem_cons.2 ⟨?_, isSolid_of_takeSign (isSolid_of_digits? hn)⟩
      rcases hletter with rfl | rfl <;> rfl
    · cases h

/-- The digits of a mantissa and its point are no blanks, so a blank
would have to be behind them. -/
theorem isSolid_of_takeMantissa (h : IsSolid (takeMantissa cs).2.2) : IsSolid cs := by
  have hsplit := List.takeWhile_append_dropWhile (p := isDigit) (l := cs)
  unfold takeMantissa at h
  dsimp only at h
  split at h
  · rename_i rest hrest
    have hfraction := List.takeWhile_append_dropWhile (p := isDigit) (l := rest)
    rw [← hsplit, hrest, ← hfraction]
    exact List.forall_mem_append.2 ⟨isSolid_takeWhile_isDigit cs, List.forall_mem_cons.2
      ⟨rfl, List.forall_mem_append.2 ⟨isSolid_takeWhile_isDigit rest, h⟩⟩⟩
  · rw [← hsplit]
    exact List.forall_mem_append.2 ⟨isSolid_takeWhile_isDigit cs, h⟩

/-- A number without its sign is a mantissa and an exponent, and either
is solid. -/
theorem isSolid_of_unsigned? {negative : Bool} {x : Binary64} (h : unsigned? negative cs = some x) :
    IsSolid cs := by
  unfold unsigned? at h
  dsimp only at h
  split at h
  · cases h
  · obtain ⟨exponent, hexponent, _⟩ := Option.map_eq_some_iff.1 h
    exact isSolid_of_takeMantissa (isSolid_of_exponent? hexponent)

end Decimal

/-- Lower-casing keeps blanks, which are no letters. -/
theorem Text.toLower_of_isBlank {c : Char} (h : isBlank c = true) : c.toLower = c := by
  refine dif_neg fun (hletter : 'A' ≤ c ∧ c ≤ 'Z') => ?_
  have hname := isNameChar_of_isBlank h
  rw [isNameChar, isNameStart, isLetter, decide_eq_true hletter.1,
    decide_eq_true hletter.2] at hname
  simp at hname

/-- Lower case leaves blanks where they are, so a text that becomes a
solid word is solid. -/
theorem Text.isSolid_of_lowerAscii {cs : List Char} {word : String}
    (h : lowerAscii (String.ofList cs) = word) (hword : IsSolid word.toList) : IsSolid cs := by
  intro c hc
  have hmem : c.toLower ∈ word.toList := by
    rw [← h, lowerAscii, String.toList_map, String.toList_ofList]
    exact List.mem_map_of_mem hc
  cases hblank : isBlank c with
  | false => rfl
  | true => rw [← hblank, ← toLower_of_isBlank hblank, hword _ hmem]

namespace Binary64

/-- A number text has no blanks. -/
theorem isSolid_of_read? {s : String} {x : Binary64} (h : read? s = some x) : IsSolid s.toList := by
  refine Decimal.isSolid_of_takeSign ?_
  unfold read? at h
  dsimp only at h
  split at h
  · rename_i hword
    exact isSolid_of_lowerAscii hword (by decide)
  · rename_i hword
    exact isSolid_of_lowerAscii hword (by decide)
  · rename_i hword
    exact isSolid_of_lowerAscii hword (by decide)
  · exact Decimal.isSolid_of_unsigned? h

/-- A text is the same number, or none, when its blanks are squeezed. -/
theorem read?_squeeze (s : String) : read? (squeeze s) = read? s := by
  by_cases hsolid : IsSolid s.toList
  · rw [squeeze, squeezeFrom_solid hsolid, String.ofList_toList]
  · have hsqueezed : ¬ IsSolid (squeeze s).toList := by
      rw [squeeze, String.toList_ofList, isSolid_squeezeFrom_iff]
      exact hsolid
    have hnone {s : String} (h : ¬ IsSolid s.toList) : read? s = none :=
      Option.eq_none_iff_forall_ne_some.2 fun x hx => h (isSolid_of_read? hx)
    rw [hnone hsolid, hnone hsqueezed]

end Binary64

end CrapsStrategy
