import CrapsStrategy.Proofs.Decimal.Reader
import CrapsStrategy.Proofs.Text.Integer
import CrapsStrategy.Proofs.Text.Unquoted
import CrapsStrategy.Table.OddsPolicy

/-!
# `CrapsStrategy.Proofs.Table.OddsPolicy`: policies and their texts

The text of a policy needs no cleaning, so it is read without its `x`
(`ofText?_append_x`). The policy on all points comes back from `3-4-5x`,
and a multiple comes back from its digits, but for one. The digits of
345 are a spelling of the other policy, and of the three spellings it
has this is the only one that a number shares
(`toDigits_mem_spellings_iff`).
-/

set_option autoImplicit false

namespace CrapsStrategy

namespace Text

/-- Digits are no capitals, so lowering leaves them. -/
theorem isCapital_of_isDigit {c : Char} (h : isDigit c = true) : isCapital c = false := by
  rw [isDigit_iff] at h
  rw [isCapital_of_ascii (by omega), Bool.and_eq_false_iff, decide_eq_false_iff_not]
  left
  omega

end Text

namespace OddsPolicy

/-- The policies that there are: a multiple has 32 bits. -/
def InRange : OddsPolicy → Prop
  | threeFourFive => True
  | uniform n => n ≤ maxMultiple

instance : DecidablePred InRange := fun policy =>
  match policy with
  | threeFourFive => inferInstanceAs (Decidable True)
  | uniform n => inferInstanceAs (Decidable (n ≤ maxMultiple))

/-- The texts of the policy that has a multiple for each kind of point,
without the `x`. -/
def spellings : List String := ["3-4-5", "345", "3_4_5"]

/-- A text of small letters without blanks is read as it is. -/
theorem ofText?_append_x {cs : List Char} (hsolid : Text.IsSolid cs)
    (hcapital : ∀ c ∈ cs, Text.isCapital c = false) :
    ofText? (String.ofList (cs ++ ['x'])) =
      if spellings.contains (String.ofList cs) then some threeFourFive
      else (Text.natUpTo? maxMultiple (String.ofList cs)).map uniform := by
  have hall : Text.IsSolid (cs ++ ['x']) :=
    List.forall_mem_append.2 ⟨hsolid, List.forall_mem_singleton.2 rfl⟩
  have hsmall : ∀ c ∈ cs ++ ['x'], Text.isCapital c = false :=
    List.forall_mem_append.2 ⟨hcapital, List.forall_mem_singleton.2 (by decide +kernel)⟩
  have hclean : (Text.lower (Text.trim (String.ofList (cs ++ ['x'])))).toList = cs ++ ['x'] := by
    rw [Text.lower, Text.trim, String.toList_ofList, String.toList_ofList, String.toList_ofList,
      Text.trimChars_of_solid hall, Text.lowerFrom_eq_self hsmall]
  have hkept : (cs ++ ['x']).filter (fun c => !Text.isBlank c) = cs ++ ['x'] :=
    List.filter_eq_self.2 fun c hc => by rw [hall c hc]; rfl
  unfold ofText?
  rw [hclean, hkept]
  dsimp only
  rw [List.getLast?_concat, if_pos rfl, List.dropLast_concat]
  rfl

/-- Only one number is written like a spelling of the other policy. -/
theorem toDigits_mem_spellings_iff (n : Nat) :
    String.ofList (Nat.toDigits 10 n) ∈ spellings ↔ n = 345 := by
  constructor
  · intro hmem
    have hread := Text.nat?_toDigits n
    have hspellings : ∀ s ∈ spellings, Text.nat? s = none ∨ Text.nat? s = some 345 := by
      decide
    rcases hspellings _ hmem with hnone | hsome
    · rw [hnone] at hread
      cases hread
    · rw [hsome] at hread
      exact (Option.some.inj hread).symm
  · rintro rfl
    decide

/-- A uniform policy is shown as its multiple with an `x`. -/
theorem display_uniform (n : Nat) :
    (uniform n).display = String.ofList (Nat.toDigits 10 n ++ ['x']) := by
  rw [display, Nat.toString_eq_ofList_toDigits, String.ofList_append]

/-- A multiple is read back from its text, unless it is captured. -/
theorem ofText?_display_uniform {n : Nat} (h : n ≤ maxMultiple) :
    ofText? (uniform n).display = some (if n = 345 then threeFourFive else uniform n) := by
  have hdigit {c : Char} (hc : c ∈ Nat.toDigits 10 n) : Text.isDigit c = true :=
    Nat.isDigit_of_mem_toDigits (by decide) (by decide) hc
  have hsolid : Text.IsSolid (Nat.toDigits 10 n) :=
    Decimal.isSolid_of_digits? (Text.digits?_zeros 0 n)
  rw [display_uniform, ofText?_append_x hsolid fun _ hc => Text.isCapital_of_isDigit (hdigit hc)]
  simp only [List.contains_iff_mem, toDigits_mem_spellings_iff]
  split
  · rfl
  · rw [Text.natUpTo?, Text.nat?_toDigits, Option.filter_some, if_pos (decide_eq_true h)]
    rfl

/-- Every policy but one is read back from its text. The text of the
multiple 345 is a spelling of 3-4-5, and is read as that. -/
theorem ofValue?_display (policy : OddsPolicy) (h : policy.InRange) :
    ofValue? (.text policy.display) =
      some (if policy = uniform 345 then threeFourFive else policy) := by
  cases policy with
  | threeFourFive => decide +kernel
  | uniform n =>
    rw [ofValue?, ofText?_display_uniform h]
    simp only [uniform.injEq]

/-- The greatest multiple there is comes back. -/
theorem ofValue?_display_maxMultiple :
    (uniform maxMultiple).InRange ∧
      ofValue? (.text (uniform maxMultiple).display) = some (uniform maxMultiple) :=
  ⟨by decide, ofValue?_display (uniform maxMultiple) (by decide)⟩

/-- The multiple 345 is a policy, and is not read back from its text. -/
theorem display_captured :
    (uniform 345).InRange ∧
      ofValue? (.text (uniform 345).display) ≠ some (uniform 345) := by
  decide +kernel

end OddsPolicy

end CrapsStrategy
