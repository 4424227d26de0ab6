import CrapsStrategy.Text.Words
import Mathlib.Data.List.DropRight

/-!
# `CrapsStrategy.Proofs.Text.Words`: words and the blanks between them

A blank cuts the words of a text in two (`wordsOf_append_blank`), and
all else about words comes from that: blanks at the ends do not count,
so a text has the words that it has when it is trimmed (`words_trim`),
and a word in front of a text is its first (`words_prepend`).
-/

set_option autoImplicit false

namespace CrapsStrategy.Text

/-- Whether a list of characters has no blank. -/
def IsSolid (cs : List Char) : Prop :=
  ∀ c ∈ cs, isBlank c = false

instance (cs : List Char) : Decidable (IsSolid cs) :=
  List.decidableBAll (fun c => isBlank c = false) cs

/-! ### Words of characters -/

/-- Words stay on their side of a blank. -/
theorem wordsOf_append_blank {c : Char} (hc : isBlank c = true) (xs ys : List Char) :
    wordsOf (xs ++ c :: ys) = wordsOf xs ++ wordsOf ys := by
  unfold wordsOf
  rw [List.splitOnP_append_cons xs ys hc, List.filter_append]

/-- A blank in front does not count. -/
theorem wordsOf_blank_cons {c : Char} (hc : isBlank c = true) (cs : List Char) :
    wordsOf (c :: cs) = wordsOf cs :=
  wordsOf_append_blank hc [] cs

/-- Characters without blanks are one word. -/
theorem wordsOf_of_solid {cs : List Char} (hne : cs ≠ []) (h : IsSolid cs) :
    wordsOf cs = [cs] := by
  unfold wordsOf
  rw [List.splitOnP_eq_singleton fun c hc => by simp [h c hc]]
  exact List.filter_cons_of_pos (by simpa using hne)

/-- A blank after a word ends it. -/
theorem wordsOf_solid_append {xs : List Char} (hne : xs ≠ []) (h : IsSolid xs) {c : Char}
    (hc : isBlank c = true) (ys : List Char) : wordsOf (xs ++ c :: ys) = xs :: wordsOf ys := by
  rw [wordsOf_append_blank hc, wordsOf_of_solid hne h]
  rfl

/-- A word goes on where no blank follows its first character. -/
theorem wordsOf_solid_cons_cons {c d : Char} (hc : isBlank c = false) (hd : isBlank d = false)
    (cs : List Char) : ∃ word rest,
      wordsOf (d :: cs) = word :: rest ∧ wordsOf (c :: d :: cs) = (c :: word) :: rest := by
  obtain ⟨word, rest, hsplit⟩ := List.exists_cons_of_ne_nil (List.splitOnP_ne_nil isBlank cs)
  have htail : (d :: cs).splitOnP isBlank = (d :: word) :: rest := by
    rw [List.splitOnP_cons_eq_if_modifyHead, hd, hsplit]
    rfl
  have hall : (c :: d :: cs).splitOnP isBlank = (c :: d :: word) :: rest := by
    rw [List.splitOnP_cons_eq_if_modifyHead, hc, htail]
    rfl
  refine ⟨d :: word, rest.filter fun word => !word.isEmpty, ?_, ?_⟩
  · rw [wordsOf, htail]
    rfl
  · rw [wordsOf, hall]
    rfl

/-- Blanks dropped in front do not change the words. -/
theorem wordsOf_dropWhile (cs : List Char) : wordsOf (cs.dropWhile isBlank) = wordsOf cs := by
  induction cs with
  | nil => rfl
  | cons c cs ih =>
    cases hc : isBlank c with
    | true => rw [List.dropWhile_cons_of_pos hc, ih, wordsOf_blank_cons hc]
    | false => rw [List.dropWhile_cons_of_neg (by simp [hc])]

/-- Blanks dropped at the end do not change the words. -/
theorem wordsOf_rdropWhile (cs : List Char) : wordsOf (cs.rdropWhile isBlank) = wordsOf cs := by
  induction cs using List.reverseRecOn with
  | nil => rfl
  | append_singleton cs c ih =>
    by_cases hc : isBlank c = true
    · rw [List.rdropWhile_concat_pos _ _ _ hc, ih, wordsOf_append_blank hc]
      exact (List.append_nil _).symm
    · rw [List.rdropWhile_concat_neg _ _ _ hc]

/-! ### Trimming -/

/-- Trimming drops the blanks in front and then those at the end. -/
theorem trimChars_eq (cs : List Char) :
    trimChars cs = (cs.dropWhile isBlank).rdropWhile isBlank := rfl

/-- Trimming changes nothing between two characters that are not blank.
-/
theorem trimChars_eq_self {cs : List Char} (hfirst : ∀ c, cs.head? = some c → isBlank c = false)
    (hlast : ∀ c, cs.getLast? = some c → isBlank c = false) : trimChars cs = cs := by
  have hdrop : cs.dropWhile isBlank = cs := by
    cases cs with
    | nil => rfl
    | cons c cs => rw [List.dropWhile_cons_of_neg (by simp [hfirst c rfl])]
  rw [trimChars_eq, hdrop, List.rdropWhile_eq_self_iff]
  intro hne
  rw [hlast _ (List.getLast?_eq_some_getLast hne)]
  exact Bool.false_ne_true

/-- A trimmed text begins with no blank. -/
theorem head?_trimChars {cs : List Char} {c : Char} (h : (trimChars cs).head? = some c) :
    isBlank c = false := by
  obtain ⟨rest, hrest⟩ := List.rdropWhile_prefix isBlank (l := cs.dropWhile isBlank)
  rw [← trimChars_eq] at hrest
  have hhead : (cs.dropWhile isBlank).head? = some c := by
    rw [← hrest, List.head?_append, h]
    rfl
  have hnot := List.head?_dropWhile_not isBlank cs
  rw [hhead] at hnot
  exact hnot

/-- A trimmed text ends with no blank. -/
theorem getLast?_trimChars {cs : List Char} {c : Char} (h : (trimChars cs).getLast? = some c) :
    isBlank c = false := by
  have hne : trimChars cs ≠ [] := by
    intro hnil
    rw [hnil] at h
    cases h
  have hnot := List.rdropWhile_last_not isBlank (cs.dropWhile isBlank) hne
  rw [List.getLast?_eq_some_getLast hne] at h
  cases h
  exact Bool.eq_false_iff.2 hnot

/-- Trimming twice is trimming once. -/
theorem trimChars_trimChars (cs : List Char) : trimChars (trimChars cs) = trimChars cs :=
  trimChars_eq_self (fun _ => head?_trimChars) fun _ => getLast?_trimChars

/-- A text is trimmed exactly if it neither begins nor ends with a
blank. -/
theorem trimChars_eq_self_iff {cs : List Char} : trimChars cs = cs ↔
    cs.head?.map isBlank ≠ some true ∧ cs.getLast?.map isBlank ≠ some true := by
  constructor
  · intro htrim
    rw [← htrim]
    constructor
    · intro hblank
      obtain ⟨c, hc, hblank⟩ := Option.map_eq_some_iff.1 hblank
      rw [head?_trimChars hc] at hblank
      cases hblank
    · intro hblank
      obtain ⟨c, hc, hblank⟩ := Option.map_eq_some_iff.1 hblank
      rw [getLast?_trimChars hc] at hblank
      cases hblank
  · rintro ⟨hfirst, hlast⟩
    refine trimChars_eq_self (fun c hc => ?_) fun c hc => ?_
    · rw [hc] at hfirst
      simpa using hfirst
    · rw [hc] at hlast
      simpa using hlast

/-- A text without blanks is trimmed. -/
theorem trimChars_of_solid {cs : List Char} (h : IsSolid cs) : trimChars cs = cs :=
  trimChars_eq_self (fun c hc => h c (List.mem_of_head? hc)) fun c hc =>
    h c (List.mem_of_getLast? hc)

/-- Trimming adds no character to a list of them. -/
theorem mem_of_mem_trimChars {cs : List Char} {c : Char} (h : c ∈ trimChars cs) : c ∈ cs :=
  (List.dropWhile_suffix _).subset ((List.rdropWhile_prefix _ _).subset h)

/-! ### Texts -/

/-- Trimming adds no character to a text. -/
theorem mem_of_mem_trim {s : String} {c : Char} (h : c ∈ (trim s).toList) : c ∈ s.toList := by
  rw [trim, String.toList_ofList] at h
  exact mem_of_mem_trimChars h

/-- Trimming a text twice is trimming it once. -/
theorem trim_trim (s : String) : trim (trim s) = trim s := by
  rw [trim, trim, String.toList_ofList, trimChars_trimChars]

/-- Blanks at the ends of a text make no words. -/
theorem words_trim (s : String) : words (trim s) = words s := by
  rw [words, trim, String.toList_ofList, trimChars_eq, wordsOf_rdropWhile, wordsOf_dropWhile]
  rfl

/-- A word in front of a text is its first. -/
theorem words_prepend {a : String} (hne : a ≠ "") (h : IsSolid a.toList) (s : String) :
    words (a ++ " " ++ s) = a :: words s := by
  have hchars : a.toList ≠ [] := fun hnil => hne (String.toList_inj.1 hnil)
  have hsplit : (a ++ " " ++ s).toList = a.toList ++ ' ' :: s.toList := by
    rw [String.toList_append, String.toList_append, List.append_assoc]
    rfl
  rw [words, hsplit, wordsOf_solid_append hchars h rfl, List.map_cons, String.ofList_toList]
  rfl

end CrapsStrategy.Text
