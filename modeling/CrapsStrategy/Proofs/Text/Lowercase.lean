import CrapsStrategy.Text.Lowercase

/-!
# `CrapsStrategy.Proofs.Text.Lowercase`: lower case stays

A character is a capital when it is the dotted capital I or a run of the
table has it. Lowering gives no capitals, because a run that is moved by
its offset meets no run (`isApart_capitalRuns`), and it keeps what is no
capital. So lower-casing a text twice is lower-casing it once
(`lower_lower`).
-/

set_option autoImplicit false

namespace CrapsStrategy.Text

/-! ### Runs -/

/-- The first and the last character that lower by an offset, the steps
between them, and the offset. -/
abbrev LoweringRun := Nat × Nat × Nat × Int

namespace LoweringRun

/-- Whether a run has a code point. -/
def has : LoweringRun → Nat → Bool
  | (first, last, stride, _), n => first ≤ n && n ≤ last && (n - first) % stride == 0

/-- Whether the code points from `low` to `high` in steps of `stride` lie
beside a run: outside its bounds, or on the numbers between which it
steps. -/
def isBeside (low high stride : Nat) : LoweringRun → Bool
  | (first, last, stride', _) => Nat.blt high first || Nat.blt last low ||
      (stride' == 2 && (stride == 2 || low == high) && (low + first) % 2 == 1)

/-- Whether the code points that a run lowers to lie beside all runs of a
list. -/
def isApart (others : List LoweringRun) : LoweringRun → Bool
  | (first, last, stride, offset) => Nat.blt 0 (first + offset).toNat &&
      others.all (isBeside (first + offset).toNat (last + offset).toNat stride)

/-- A run that lies apart lowers none of its code points into the
others. This is what the comparison of bounds is for: the table is
checked run by run and not character by character. -/
theorem has_eq_false_of_isApart {others : List LoweringRun} {run other : LoweringRun}
    (h : run.isApart others = true) (hother : other ∈ others) {n : Nat} (hn : run.has n = true) :
    other.has (n + run.2.2.2).toNat = false := by
  obtain ⟨first, last, stride, offset⟩ := run
  obtain ⟨first', last', stride', offset'⟩ := other
  simp only [isApart, Bool.and_eq_true, List.all_eq_true] at h
  have hbeside := h.2 _ hother
  simp only [isBeside, Bool.or_eq_true, Bool.and_eq_true, Nat.blt_eq, beq_iff_eq] at h hbeside
  simp only [has, Bool.and_eq_true, decide_eq_true_eq, beq_iff_eq] at hn
  rw [← Bool.not_eq_true]
  simp only [has, Bool.and_eq_true, decide_eq_true_eq, beq_iff_eq]
  obtain ⟨⟨hfirst, hlast⟩, hstep⟩ := hn
  have hlow := h.1
  rcases hbeside with (hbelow | habove) | ⟨⟨hstride, hsame | hsingle⟩, hodd⟩
  · omega
  · omega
  · subst hstride hsame
    omega
  · subst hstride
    omega

end LoweringRun

/-- The characters that lower-casing changes: those of the table, and
the dotted capital I, which lowers to two. -/
def capitalRuns : List LoweringRun :=
  (304, 304, 1, 0) :: loweringRuns

/-- No run of the table lowers into another one, or onto the dotted
capital. -/
theorem isApart_capitalRuns {run : LoweringRun} (h : run ∈ loweringRuns) :
    run.isApart capitalRuns = true := by
  have htable : loweringRuns.all (LoweringRun.isApart capitalRuns) = true := by
    decide +kernel
  exact List.all_eq_true.1 htable run h

/-! ### Characters -/

/-- Whether lower-casing changes a character. -/
def isCapital (c : Char) : Bool :=
  capitalRuns.any fun run => run.has c.toNat

/-- The capitals of ASCII are one run. -/
theorem isCapital_of_ascii {c : Char} (h : c.toNat < 128) :
    isCapital c = (65 ≤ c.toNat && c.toNat ≤ 90) := by
  have htable : ∀ run ∈ capitalRuns, run.1 < 128 → run = (65, 90, 1, 32) := by
    decide +kernel
  rw [Bool.eq_iff_iff, isCapital, List.any_eq_true]
  constructor
  · rintro ⟨run, hrun, hhas⟩
    have hbound : run.1 ≤ c.toNat := by
      simp only [LoweringRun.has, Bool.and_eq_true, decide_eq_true_eq] at hhas
      exact hhas.1.1
    rw [htable run hrun (by omega)] at hhas
    simpa [LoweringRun.has, Nat.mod_one] using hhas
  · intro hletter
    refine ⟨(65, 90, 1, 32), by decide +kernel, ?_⟩
    simpa [LoweringRun.has, Nat.mod_one] using hletter

/-- Within ASCII lowering leaves no capital, and moves nothing else. -/
theorem toLower_of_ascii {c : Char} (h : c.toNat < 128) :
    isCapital c.toLower = false ∧ (isCapital c = false → c.toLower = c) := by
  have htable : ∀ n < 128, (Char.ofNat n).toLower.toNat < 128 ∧
      (65 ≤ (Char.ofNat n).toLower.toNat && (Char.ofNat n).toLower.toNat ≤ 90) = false ∧
      ((65 ≤ n && n ≤ 90) = false → (Char.ofNat n).toLower = Char.ofNat n) := by
    decide +kernel
  obtain ⟨hascii, hlower, hsame⟩ := htable c.toNat h
  rw [Char.ofNat_toNat] at hascii hlower hsame
  rw [isCapital_of_ascii hascii, isCapital_of_ascii h]
  exact ⟨hlower, hsame⟩

/-- Beyond ASCII a character lowers by the run that has it. -/
theorem lowerChar_eq {c : Char} (h : ¬ c.toNat < 128) :
    lowerChar c = match loweringRuns.find? fun run : LoweringRun => run.has c.toNat with
      | some run => Char.ofNat ((c.toNat : Int) + run.2.2.2).toNat
      | none => c := by
  rw [lowerChar, if_neg h]
  show (match loweringRuns.find? fun run : LoweringRun => run.has c.toNat with
      | some (_, _, _, offset) => Char.ofNat ((c.toNat : Int) + offset).toNat
      | none => c) = _
  cases loweringRuns.find? fun run : LoweringRun => run.has c.toNat <;> rfl

/-- What is no capital is lowered to itself. -/
theorem lowerChar_eq_self {c : Char} (h : isCapital c = false) : lowerChar c = c := by
  by_cases hascii : c.toNat < 128
  · rw [lowerChar, if_pos hascii]
    exact (toLower_of_ascii hascii).2 h
  · have hnone : (loweringRuns.find? fun run : LoweringRun => run.has c.toNat) = none :=
      List.find?_eq_none.2 fun run hrun => List.any_eq_false.1 h run (List.mem_cons_of_mem _ hrun)
    rw [lowerChar_eq hascii, hnone]

/-- A number that is no character stands for the first one, which is no
capital. -/
theorem toNat_ofNat (n : Nat) : (Char.ofNat n).toNat = n ∨ (Char.ofNat n).toNat = 0 := by
  by_cases h : n.isValidChar
  · left
    rw [Char.ofNat, dif_pos h]
    rfl
  · right
    rw [Char.ofNat, dif_neg h]
    rfl

/-- What a character lowers to is no capital. The dotted capital lowers
to two characters, and is left to the text. -/
theorem isCapital_lowerChar {c : Char} (hdotted : c ≠ 'İ') : isCapital (lowerChar c) = false := by
  by_cases hascii : c.toNat < 128
  · rw [lowerChar, if_pos hascii]
    exact (toLower_of_ascii hascii).1
  · rw [lowerChar_eq hascii]
    refine List.any_eq_false.2 fun other hother => ?_
    cases hfind : loweringRuns.find? fun run : LoweringRun => run.has c.toNat with
    | some run =>
      have hmem := List.mem_of_find?_eq_some hfind
      have hhas := List.find?_some hfind
      dsimp only
      rw [Bool.not_eq_true]
      -- The run ends apart from every run of capitals. Where the sum is no
      -- character it is 0, which is no capital either.
      rcases toNat_ofNat ((c.toNat : Int) + run.2.2.2).toNat with hsame | hzero
      · rw [hsame]
        exact LoweringRun.has_eq_false_of_isApart (isApart_capitalRuns hmem) hother hhas
      · rw [hzero]
        have htable : ∀ other ∈ capitalRuns, LoweringRun.has other 0 = false := by
          decide +kernel
        exact htable other hother
    | none =>
      -- Without a run only the dotted capital is left, and that is another
      -- character.
      rcases List.mem_cons.1 hother with rfl | hmem
      · intro hhas
        refine hdotted (Char.toNat_inj.1 ?_)
        simp only [LoweringRun.has, Bool.and_eq_true, decide_eq_true_eq] at hhas
        show c.toNat = 304
        omega
      · exact List.find?_eq_none.1 hfind other hmem

/-! ### Texts -/

/-- A text without capitals is lowered to itself. -/
theorem lowerFrom_eq_self {before cs : List Char} (h : ∀ c ∈ cs, isCapital c = false) :
    lowerFrom before cs = cs := by
  induction cs generalizing before with
  | nil => rfl
  | cons c cs ih =>
    rw [List.forall_mem_cons] at h
    have hdotted : c ≠ 'İ' := by
      rintro rfl
      exact absurd h.1 (by decide +kernel)
    have hsigma : c ≠ 'Σ' := by
      rintro rfl
      exact absurd h.1 (by decide +kernel)
    rw [lowerFrom, if_neg hdotted, if_neg hsigma, lowerChar_eq_self h.1, ih h.2]
    rfl

/-- A lowered text has no capitals, so lowering it again changes
nothing. -/
theorem isCapital_of_mem_lowerFrom {before cs : List Char} {c : Char}
    (h : c ∈ lowerFrom before cs) : isCapital c = false := by
  induction cs generalizing before with
  | nil => cases h
  | cons first cs ih =>
    rw [lowerFrom] at h
    rcases List.mem_append.1 h with hfirst | hrest
    · -- Two characters do not lower by themselves: the dotted capital
      -- becomes two, and a sigma depends on what is around it.
      by_cases hdotted : first = 'İ'
      · rw [if_pos hdotted] at hfirst
        have htable : ['i', '\u0307'].all (fun c => isCapital c == false) = true := by
          decide +kernel
        exact beq_iff_eq.1 (List.all_eq_true.1 htable c hfirst)
      · rw [if_neg hdotted] at hfirst
        by_cases hsigma : first = 'Σ'
        · rw [if_pos hsigma] at hfirst
          have htable : ['ς', 'σ'].all (fun c => isCapital c == false) = true := by
            decide +kernel
          refine beq_iff_eq.1 (List.all_eq_true.1 htable c ?_)
          split at hfirst
          · exact List.mem_cons.2 (.inl (List.mem_singleton.1 hfirst))
          · exact List.mem_cons_of_mem _ hfirst
        · rw [if_neg hsigma, List.mem_singleton] at hfirst
          rw [hfirst]
          exact isCapital_lowerChar hdotted
    · exact ih hrest

/-- A text in lower case has no capitals left. -/
theorem lower_lower (s : String) : lower (lower s) = lower s := by
  have hsame : lowerFrom [] (lower s).toList = (lower s).toList := by
    refine lowerFrom_eq_self fun c hc => ?_
    rw [lower, String.toList_ofList] at hc
    exact isCapital_of_mem_lowerFrom hc
  rw [lower, hsame, String.ofList_toList]

end CrapsStrategy.Text
