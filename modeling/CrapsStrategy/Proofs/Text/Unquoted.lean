import CrapsStrategy.Proofs.Text.Lowercase
import CrapsStrategy.Proofs.Text.Words

/-!
# `CrapsStrategy.Proofs.Text.Unquoted`: texts without apostrophes

Blanks and apostrophes lower to themselves, and nothing else lowers to
them (`exists_lowerFrom_cons`). So whether a text has blanks at its ends,
once its apostrophes are gone, does not depend on the case of its letters
(`trimChars_unquotedChars_lowerFrom`). Lowering may put two characters in
the place of one, which is why this is said of the first and the last
character and not position by position.
-/

set_option autoImplicit false

namespace CrapsStrategy.Text

/-! ### Lowering and marks -/

/-- The apostrophe and the blanks, which cleaning a key drops. -/
def isMark (c : Char) : Bool :=
  c == '\'' || isBlank c

/-- Whether a list of characters has no marks. -/
def IsUnmarked (cs : List Char) : Prop :=
  ∀ c ∈ cs, isMark c = false

instance (cs : List Char) : Decidable (IsUnmarked cs) :=
  List.decidableBAll (fun c => isMark c = false) cs

/-- The marks as runs that move nothing. -/
def markRuns : List LoweringRun := [
  (39, 39, 1, 0), (9, 13, 1, 0), (32, 32, 1, 0), (133, 133, 1, 0), (160, 160, 1, 0),
  (5760, 5760, 1, 0), (8192, 8202, 1, 0), (8232, 8233, 1, 0), (8239, 8239, 1, 0),
  (8287, 8287, 1, 0), (12288, 12288, 1, 0)]

/-- The marks are the code points of their runs. -/
theorem isMark_eq (c : Char) : isMark c = markRuns.any fun run => run.has c.toNat := by
  have hquote : c = '\'' ↔ c.toNat = 39 := by
    rw [← Char.toNat_inj]
    rfl
  rw [Bool.eq_iff_iff]
  simp [isMark, isBlank, markRuns, LoweringRun.has, Nat.mod_one, hquote]
  omega

/-- No mark is a capital, since the runs of the two lie apart. -/
theorem isCapital_of_isMark {c : Char} (h : isMark c = true) : isCapital c = false := by
  have htable : markRuns.all (LoweringRun.isApart capitalRuns) = true := by
    decide +kernel
  have hstill : ∀ run ∈ markRuns, run.2.2.2 = 0 := by
    decide
  rw [isMark_eq, List.any_eq_true] at h
  obtain ⟨run, hrun, hhas⟩ := h
  refine List.any_eq_false.2 fun capital hcapital => ?_
  have hapart := LoweringRun.has_eq_false_of_isApart (List.all_eq_true.1 htable run hrun)
    hcapital hhas
  rw [hstill run hrun, Int.add_zero, Int.toNat_natCast] at hapart
  rw [hapart]
  exact Bool.false_ne_true

/-- No capital lowers to a mark. -/
theorem isMark_lowerChar {c : Char} (h : isCapital c = true) : isMark (lowerChar c) = false := by
  by_cases hascii : c.toNat < 128
  · have htable : ∀ n < 128, (65 ≤ n && n ≤ 90) = true →
        isMark (Char.ofNat n).toLower = false := by
      decide +kernel
    rw [isCapital_of_ascii hascii] at h
    rw [lowerChar, if_pos hascii]
    simpa only [Char.ofNat_toNat] using htable c.toNat hascii h
  · have htable : loweringRuns.all (LoweringRun.isApart markRuns) = true := by
      decide +kernel
    rw [lowerChar_eq hascii, isMark_eq]
    refine List.any_eq_false.2 fun mark hmark => ?_
    cases hfind : loweringRuns.find? fun run : LoweringRun => run.has c.toNat with
    | some run =>
      have hhas := List.find?_some hfind
      have hapart := LoweringRun.has_eq_false_of_isApart
        (List.all_eq_true.1 htable run (List.mem_of_find?_eq_some hfind)) hmark hhas
      dsimp only
      rw [Bool.not_eq_true]
      rcases toNat_ofNat ((c.toNat : Int) + run.2.2.2).toNat with hsame | hzero
      · rw [hsame]
        exact hapart
      · have hfirst : ∀ mark ∈ markRuns, LoweringRun.has mark 0 = false := by
          decide
        rw [hzero]
        exact hfirst mark hmark
    | none =>
      -- A capital without a run is the dotted one, and stays here.
      intro hhas
      have hcapital := isCapital_of_isMark (c := c) (by
        rw [isMark_eq]
        exact List.any_eq_true.2 ⟨mark, hmark, hhas⟩)
      rw [h] at hcapital
      cases hcapital

/-- A character lowers to itself, or neither it nor what it lowers to is
a mark. -/
theorem exists_lowerFrom_cons (before : List Char) (c : Char) (cs : List Char) :
    ∃ piece, piece ≠ [] ∧ lowerFrom before (c :: cs) = piece ++ lowerFrom (c :: before) cs ∧
      (piece = [c] ∨ isMark c = false ∧ IsUnmarked piece) := by
  rw [lowerFrom]
  -- The dotted capital and the sigma are tried by hand, for they do not
  -- lower to one character of their own.
  by_cases hdotted : c = 'İ'
  · rw [if_pos hdotted, hdotted]
    exact ⟨_, List.cons_ne_nil _ _, rfl, .inr (by decide +kernel)⟩
  · rw [if_neg hdotted]
    by_cases hsigma : c = 'Σ'
    · rw [if_pos hsigma, hsigma]
      split
      · exact ⟨_, List.cons_ne_nil _ _, rfl, .inr (by decide +kernel)⟩
      · exact ⟨_, List.cons_ne_nil _ _, rfl, .inr (by decide +kernel)⟩
    · rw [if_neg hsigma]
      refine ⟨_, List.cons_ne_nil _ _, rfl, ?_⟩
      cases hcapital : isCapital c with
      | false => exact .inl (by rw [lowerChar_eq_self hcapital])
      | true =>
        refine .inr ⟨?_, fun d hd => ?_⟩
        · rw [← Bool.not_eq_true]
          intro hmark
          rw [isCapital_of_isMark hmark] at hcapital
          cases hcapital
        · rw [List.mem_singleton.1 hd]
          exact isMark_lowerChar hcapital

/-! ### Texts without apostrophes -/

/-- A list of characters without its apostrophes. -/
def unquotedChars (cs : List Char) : List Char :=
  cs.filter (· ≠ '\'')

/-- A text without its apostrophes. -/
def unquoted (s : String) : String :=
  String.ofList (unquotedChars s.toList)

/-- Apostrophes are dropped part by part. -/
theorem unquotedChars_append (xs ys : List Char) :
    unquotedChars (xs ++ ys) = unquotedChars xs ++ unquotedChars ys :=
  List.filter_append xs ys

/-- Without apostrophes nothing is dropped. -/
theorem unquotedChars_eq_self {cs : List Char} (h : '\'' ∉ cs) : unquotedChars cs = cs := by
  refine List.filter_eq_self.2 fun c hc => ?_
  rw [decide_eq_true_eq]
  rintro rfl
  exact h hc

/-- None is left once they are dropped. -/
theorem quote_notMem_unquotedChars (cs : List Char) : '\'' ∉ unquotedChars cs := by
  intro h
  simpa using (List.mem_filter.1 h).2

/-- Without marks there is nothing blank at the ends. -/
theorem ends_unquotedChars_of_unmarked {cs : List Char} (hne : cs ≠ [])
    (h : IsUnmarked cs) :
    (unquotedChars cs).head?.map isBlank = some false ∧
      (unquotedChars cs).getLast?.map isBlank = some false := by
  have hmark : ∀ c ∈ cs, c ≠ '\'' ∧ isBlank c = false := by
    intro c hc
    simpa [isMark] using h c hc
  rw [unquotedChars_eq_self fun hquote => (hmark _ hquote).1 rfl, List.head?_eq_some_head hne,
    List.getLast?_eq_some_getLast hne]
  exact ⟨congrArg some (hmark _ (List.head_mem hne)).2,
    congrArg some (hmark _ (List.getLast_mem hne)).2⟩

/-- Lowering leaves blank what is blank at the ends of a text without its
apostrophes, and makes nothing else blank there. -/
theorem ends_unquotedChars_lowerFrom (before cs : List Char) :
    (unquotedChars (lowerFrom before cs)).head?.map isBlank =
        (unquotedChars cs).head?.map isBlank ∧
      (unquotedChars (lowerFrom before cs)).getLast?.map isBlank =
        (unquotedChars cs).getLast?.map isBlank := by
  induction cs generalizing before with
  | nil => exact ⟨rfl, rfl⟩
  | cons c cs ih =>
    obtain ⟨piece, hne, hlower, hpiece⟩ := exists_lowerFrom_cons before c cs
    have hends : (unquotedChars piece).head?.map isBlank = (unquotedChars [c]).head?.map isBlank ∧
        (unquotedChars piece).getLast?.map isBlank = (unquotedChars [c]).getLast?.map isBlank := by
      rcases hpiece with rfl | ⟨hc, hmarks⟩
      · exact ⟨rfl, rfl⟩
      · have hsingle := ends_unquotedChars_of_unmarked (List.cons_ne_nil c [])
          (List.forall_mem_singleton.2 hc)
        have hmany := ends_unquotedChars_of_unmarked hne hmarks
        exact ⟨hmany.1.trans hsingle.1.symm, hmany.2.trans hsingle.2.symm⟩
    obtain ⟨hhead, hlast⟩ := ih (c :: before)
    rw [hlower, unquotedChars_append,
      show unquotedChars (c :: cs) = unquotedChars [c] ++ unquotedChars cs from
        unquotedChars_append [c] cs]
    constructor
    · rw [List.head?_append, List.head?_append, Option.map_or, Option.map_or, hends.1, hhead]
    · rw [List.getLast?_append, List.getLast?_append, Option.map_or, Option.map_or, hends.2, hlast]

/-- Whether there are blanks at the ends does not depend on case. -/
theorem trimChars_unquotedChars_lowerFrom (cs : List Char) :
    trimChars (unquotedChars (lowerFrom [] cs)) = unquotedChars (lowerFrom [] cs) ↔
      trimChars (unquotedChars cs) = unquotedChars cs := by
  obtain ⟨hhead, hlast⟩ := ends_unquotedChars_lowerFrom [] cs
  rw [trimChars_eq_self_iff, trimChars_eq_self_iff, hhead, hlast]

end CrapsStrategy.Text
