import CrapsStrategy.Text.Integer
import Mathlib.Data.List.Basic
import Mathlib.Data.Nat.Init

/-!
# `CrapsStrategy.Proofs.Text.Integer`: the texts of a number

A positive number is read from its decimal digits, from them behind
zeros, and from either of these behind a plus sign, and from nothing
else (`nat?_eq_some_iff`). What the reader folds over the digits is the
library's `Nat.ofDigitChars`, so the way back from the digits of a
number is its `Nat.ofDigitChars_toDigits`; the way to them is
`toDigits_append`, by induction on the digits that are still to be read.
-/

set_option autoImplicit false

namespace CrapsStrategy.Text

/-- The digits of a number behind zeros, and perhaps a plus sign before
them. -/
def numeral (plus : Bool) (zeros n : Nat) : List Char :=
  (if plus then ['+'] else []) ++ (List.replicate zeros '0' ++ Nat.toDigits 10 n)

/-- Digits are read as the library reads them. -/
theorem natOfDigits_eq (cs : List Char) : natOfDigits cs = Nat.ofDigitChars 10 cs 0 := rfl

/-! ### Digits -/

/-- The ten digits by their code points. -/
theorem isDigit_iff {c : Char} : isDigit c = true ↔ 48 ≤ c.toNat ∧ c.toNat ≤ 57 := by
  rw [isDigit, Bool.and_eq_true, decide_eq_true_eq, decide_eq_true_eq]
  exact Iff.rfl

/-- A digit has a value below ten. -/
theorem digitValue_lt {c : Char} (h : isDigit c = true) : digitValue c < 10 := by
  rw [isDigit_iff] at h
  unfold digitValue
  omega

/-- A digit is written back from its value. -/
theorem digitChar_digitValue {c : Char} (h : isDigit c = true) :
    Nat.digitChar (digitValue c) = c := by
  rw [← Char.toNat_inj, Nat.toNat_digitChar_of_lt_ten (digitValue_lt h), digitValue]
  have hlow := (isDigit_iff.1 h).1
  omega

/-- Digits that are read onto a positive number come behind its own. -/
theorem toDigits_append {cs : List Char} (h : ∀ c ∈ cs, isDigit c = true) {n : Nat} (hn : 0 < n) :
    Nat.toDigits 10 n ++ cs = Nat.toDigits 10 (Nat.ofDigitChars 10 cs n) := by
  induction cs generalizing n with
  | nil => exact List.append_nil _
  | cons c cs ih =>
    rw [List.forall_mem_cons] at h
    have hvalue := digitValue_lt h.1
    calc Nat.toDigits 10 n ++ c :: cs
        = (Nat.toDigits 10 n ++ [c]) ++ cs := by rw [List.append_assoc]; rfl
      _ = Nat.toDigits 10 (10 * n + digitValue c) ++ cs := by
          rw [← Nat.toDigits_append_toDigits (by decide) hn hvalue,
            Nat.toDigits_of_lt_base hvalue, digitChar_digitValue h.1]
      _ = Nat.toDigits 10 (Nat.ofDigitChars 10 (c :: cs) n) := by
          rw [ih h.2 (by omega), Nat.ofDigitChars_cons]
          rfl

/-- The digits of a positive number are its own behind zeros. -/
theorem exists_zeros {cs : List Char} (h : ∀ c ∈ cs, isDigit c = true)
    (hpos : 0 < natOfDigits cs) :
    ∃ zeros, cs = List.replicate zeros '0' ++ Nat.toDigits 10 (natOfDigits cs) := by
  induction cs with
  | nil => exact absurd hpos (Nat.lt_irrefl 0)
  | cons c cs ih =>
    rw [List.forall_mem_cons] at h
    have hread : natOfDigits (c :: cs) = Nat.ofDigitChars 10 cs (digitValue c) := by
      rw [natOfDigits_eq, Nat.ofDigitChars_cons]
      show Nat.ofDigitChars 10 cs (10 * 0 + digitValue c) = _
      rw [Nat.mul_zero, Nat.zero_add]
    rcases Nat.eq_zero_or_pos (digitValue c) with hzero | hvalue
    · -- A zero leaves the number to the digits behind it.
      have hc : c = '0' := by
        rw [← digitChar_digitValue h.1, hzero]
        rfl
      rw [hzero] at hread
      rw [hread] at hpos ⊢
      obtain ⟨zeros, hzeros⟩ := ih h.2 hpos
      refine ⟨zeros + 1, ?_⟩
      rw [List.replicate_succ, List.cons_append, ← natOfDigits_eq, ← hzeros, hc]
    · refine ⟨0, ?_⟩
      rw [hread, ← toDigits_append h.2 hvalue, Nat.toDigits_of_lt_base (digitValue_lt h.1),
        digitChar_digitValue h.1]
      rfl

/-- The digits of a number behind zeros are digits. -/
theorem isDigit_zeros {zeros n : Nat} {c : Char}
    (h : c ∈ List.replicate zeros '0' ++ Nat.toDigits 10 n) : isDigit c = true := by
  rcases List.mem_append.1 h with hzero | hdigit
  · rw [List.eq_of_mem_replicate hzero]
    rfl
  · exact Nat.isDigit_of_mem_toDigits (by decide) (by decide) hdigit

/-- Zeros before a number do not change what is read. -/
theorem digits?_zeros (zeros n : Nat) :
    digits? (List.replicate zeros '0' ++ Nat.toDigits 10 n) = some n := by
  have hne : List.replicate zeros '0' ++ Nat.toDigits 10 n ≠ [] :=
    List.append_ne_nil_of_right_ne_nil _ Nat.toDigits_ne_nil
  have hdigits : (List.replicate zeros '0' ++ Nat.toDigits 10 n).all isDigit = true :=
    List.all_eq_true.2 fun _ => isDigit_zeros
  rw [digits?, if_pos ⟨hne, hdigits⟩, natOfDigits_eq, Nat.ofDigitChars_append,
    Nat.ofDigitChars_replicate_zero, Nat.mul_zero,
    Nat.ofDigitChars_toDigits (by decide) (by decide)]

/-- What is read as a positive number is its digits behind zeros. -/
theorem digits?_eq_some_iff {cs : List Char} {n : Nat} (hn : 0 < n) :
    digits? cs = some n ↔ ∃ zeros, cs = List.replicate zeros '0' ++ Nat.toDigits 10 n := by
  constructor
  · intro hread
    unfold digits? at hread
    split at hread
    · rename_i hdigits
      cases hread
      exact exists_zeros (List.all_eq_true.1 hdigits.2) hn
    · cases hread
  · rintro ⟨zeros, rfl⟩
    exact digits?_zeros zeros n

/-! ### Signs -/

/-- Only the sign of a numeral is a plus. -/
theorem plus_mem_numeral {plus : Bool} {zeros n : Nat} :
    '+' ∈ numeral plus zeros n ↔ plus = true := by
  cases plus with
  | true => exact iff_of_true List.mem_cons_self rfl
  | false =>
    refine iff_of_false (fun hmem => ?_) Bool.false_ne_true
    exact absurd (isDigit_zeros hmem) (by decide)

/-- The digits of a number are read as the number. -/
theorem nat?_toDigits (n : Nat) : nat? (String.ofList (Nat.toDigits 10 n)) = some n := by
  have hread : digits? (Nat.toDigits 10 n) = some n := digits?_zeros 0 n
  unfold nat?
  rw [String.toList_ofList]
  split
  · rename_i digits hsign
    have hplus : '+' ∈ Nat.toDigits 10 n := hsign ▸ List.mem_cons_self
    exact absurd (Nat.isDigit_of_mem_toDigits (by decide) (by decide) hplus) (by decide)
  · exact hread

/-- A text is read as a positive number exactly if it is a numeral of it.
-/
theorem nat?_eq_some_iff {s : String} {n : Nat} (hn : 0 < n) :
    nat? s = some n ↔ ∃ plus zeros, s.toList = numeral plus zeros n := by
  unfold nat?
  split
  · rename_i digits hsign
    rw [hsign, digits?_eq_some_iff hn]
    constructor
    · rintro ⟨zeros, rfl⟩
      exact ⟨true, zeros, rfl⟩
    · rintro ⟨plus, zeros, hnumeral⟩
      -- No digit is a plus, so the plus in front is the sign.
      have hplus : plus = true := by
        rw [← plus_mem_numeral, ← hnumeral]
        exact List.mem_cons_self
      subst hplus
      exact ⟨zeros, (List.cons.inj hnumeral).2⟩
  · rename_i hsign
    rw [digits?_eq_some_iff hn]
    constructor
    · rintro ⟨zeros, hzeros⟩
      exact ⟨false, zeros, hzeros⟩
    · rintro ⟨plus, zeros, hnumeral⟩
      cases plus with
      | true => exact absurd hnumeral (hsign _)
      | false => exact ⟨zeros, hnumeral⟩

/-- A numeral tells its sign and its zeros. -/
theorem numeral_inj {plus plus' : Bool} {zeros zeros' n : Nat} :
    numeral plus zeros n = numeral plus' zeros' n ↔ plus = plus' ∧ zeros = zeros' := by
  constructor
  · intro h
    have hsame : plus = plus' := by
      rw [Bool.eq_iff_iff, ← plus_mem_numeral, h, plus_mem_numeral]
    subst hsame
    have hlength := congrArg List.length h
    simp only [numeral, List.length_append, List.length_replicate] at hlength
    exact ⟨rfl, by omega⟩
  · rintro ⟨rfl, rfl⟩
    rfl

end CrapsStrategy.Text
