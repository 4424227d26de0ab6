import CrapsStrategy.Proofs.Text.Words
import CrapsStrategy.Rule.Step

/-!
# `CrapsStrategy.Proofs.Text.Squeeze`: words put back together

A text that is cut into words and put together with single blanks has a
space for every run of blanks between its words (`unwords_words`).
`squeeze` says so character by character, from the front, which is how
texts are read.
-/

set_option autoImplicit false

namespace CrapsStrategy.Text

/-- Characters with a space for every run of blanks. After a blank a run
goes on, and what is blank is dropped. -/
def squeezeFrom (afterBlank : Bool) : List Char → List Char
  | [] => []
  | c :: cs =>
    if isBlank c then
      if afterBlank then squeezeFrom true cs else ' ' :: squeezeFrom true cs
    else c :: squeezeFrom false cs

/-- A text with a space for every run of blanks. -/
def squeeze (s : String) : String :=
  String.ofList (squeezeFrom false s.toList)

/-! ### Characters -/

section

variable {c : Char} {cs xs ys : List Char}

/-- A character that is not blank stays, and ends the run. -/
theorem squeezeFrom_solid_cons (hc : isBlank c = false) (afterBlank : Bool) (cs : List Char) :
    squeezeFrom afterBlank (c :: cs) = c :: squeezeFrom false cs := by
  rw [squeezeFrom, hc, if_neg Bool.false_ne_true]

/-- The first blank of a run becomes a space. -/
theorem squeezeFrom_false_cons (hc : isBlank c = true) (cs : List Char) :
    squeezeFrom false (c :: cs) = ' ' :: squeezeFrom true cs := by
  rw [squeezeFrom, if_pos hc, if_neg Bool.false_ne_true]

/-- The further blanks of a run are dropped. -/
theorem squeezeFrom_true_cons (hc : isBlank c = true) (cs : List Char) :
    squeezeFrom true (c :: cs) = squeezeFrom true cs := by
  rw [squeezeFrom, if_pos hc, if_pos rfl]

/-- A solid part stays in front of what is squeezed. -/
theorem squeezeFrom_solid_append (hxs : IsSolid xs) (ys : List Char) :
    squeezeFrom false (xs ++ ys) = xs ++ squeezeFrom false ys := by
  induction xs with
  | nil => rfl
  | cons x xs ih =>
    rw [IsSolid, List.forall_mem_cons] at hxs
    rw [List.cons_append, squeezeFrom_solid_cons hxs.1, ih hxs.2, List.cons_append]

/-- A solid text stays as it is. -/
theorem squeezeFrom_solid (hxs : IsSolid xs) : squeezeFrom false xs = xs := by
  have happend := squeezeFrom_solid_append hxs []
  rwa [List.append_nil, squeezeFrom, List.append_nil] at happend

/-- No blank is dropped unless one stays before it. -/
theorem isSolid_squeezeFrom_iff : IsSolid (squeezeFrom false cs) ↔ IsSolid cs := by
  refine ⟨fun h => ?_, fun h => (squeezeFrom_solid h).symm ▸ h⟩
  induction cs with
  | nil => exact h
  | cons c cs ih =>
    cases hc : isBlank c with
    | false =>
      rw [squeezeFrom_solid_cons hc, IsSolid, List.forall_mem_cons] at h
      exact List.forall_mem_cons.2 ⟨hc, ih h.2⟩
    | true =>
      rw [squeezeFrom_false_cons hc] at h
      cases h ' ' List.mem_cons_self

/-- Past a character that is not blank it does not matter what was
before it. -/
theorem squeezeFrom_append_solid_cons (hc : isBlank c = false) (afterBlank : Bool)
    (xs ys : List Char) :
    squeezeFrom afterBlank (xs ++ c :: ys) =
      squeezeFrom afterBlank xs ++ c :: squeezeFrom false ys := by
  induction xs generalizing afterBlank with
  | nil => exact squeezeFrom_solid_cons hc afterBlank ys
  | cons x xs ih =>
    cases hx : isBlank x with
    | false =>
      rw [List.cons_append, squeezeFrom_solid_cons hx, squeezeFrom_solid_cons hx, ih,
        List.cons_append]
    | true =>
      cases afterBlank with
      | true => rw [List.cons_append, squeezeFrom_true_cons hx, squeezeFrom_true_cons hx, ih]
      | false =>
        rw [List.cons_append, squeezeFrom_false_cons hx, squeezeFrom_false_cons hx, ih,
          List.cons_append]

/-- No blank but a space is left. -/
theorem eq_space_of_mem_squeezeFrom {afterBlank : Bool} (h : c ∈ squeezeFrom afterBlank cs) :
    c = ' ' ∨ isBlank c = false ∧ c ∈ cs := by
  induction cs generalizing afterBlank with
  | nil => cases h
  | cons first cs ih =>
    have hrest {afterBlank : Bool} (h : c ∈ squeezeFrom afterBlank cs) :
        c = ' ' ∨ isBlank c = false ∧ c ∈ first :: cs :=
      (ih h).imp_right fun h => ⟨h.1, List.mem_cons_of_mem _ h.2⟩
    cases hfirst : isBlank first with
    | false =>
      rw [squeezeFrom_solid_cons hfirst] at h
      rcases List.mem_cons.1 h with rfl | h
      · exact .inr ⟨hfirst, List.mem_cons_self⟩
      · exact hrest h
    | true =>
      cases afterBlank with
      | true =>
        rw [squeezeFrom_true_cons hfirst] at h
        exact hrest h
      | false =>
        rw [squeezeFrom_false_cons hfirst] at h
        rcases List.mem_cons.1 h with rfl | h
        · exact .inl rfl
        · exact hrest h

/-- As far as a text is not blank, it stays. -/
theorem take_squeezeFrom {n : Nat} (h : IsSolid (cs.take n)) :
    (squeezeFrom false cs).take n = cs.take n := by
  induction n generalizing cs with
  | zero => rfl
  | succ n ih =>
    cases cs with
    | nil => rfl
    | cons c cs =>
      rw [List.take_succ_cons, IsSolid, List.forall_mem_cons] at h
      rw [squeezeFrom_solid_cons h.1, List.take_succ_cons, List.take_succ_cons, ih h.2]

/-- What comes after a solid start is squeezed on its own. -/
theorem drop_squeezeFrom {n : Nat} (h : IsSolid (cs.take n)) :
    (squeezeFrom false cs).drop n = squeezeFrom false (cs.drop n) := by
  induction n generalizing cs with
  | zero => rfl
  | succ n ih =>
    cases cs with
    | nil => rfl
    | cons c cs =>
      rw [List.take_succ_cons, IsSolid, List.forall_mem_cons] at h
      rw [squeezeFrom_solid_cons h.1, List.drop_succ_cons, List.drop_succ_cons, ih h.2]

/-- Squeezing neither makes nor breaks a solid prefix. -/
theorem prefix_squeezeFrom (hxs : IsSolid xs) : xs <+: squeezeFrom false cs ↔ xs <+: cs := by
  induction xs generalizing cs with
  | nil => simp
  | cons x xs ih =>
    rw [IsSolid, List.forall_mem_cons] at hxs
    cases cs with
    | nil => rfl
    | cons c cs =>
      cases hc : isBlank c with
      | false =>
        rw [squeezeFrom_solid_cons hc, List.cons_prefix_cons, List.cons_prefix_cons, ih hxs.2]
      | true =>
        have hne {d : Char} (hd : isBlank d = true) : x ≠ d := by
          rintro rfl
          rw [hxs.1] at hd
          cases hd
        rw [squeezeFrom_false_cons hc, List.cons_prefix_cons, List.cons_prefix_cons]
        exact iff_of_false (fun h => hne rfl h.1) fun h => hne hc h.1

section

variable {p : Char → Bool}

/-- What tells blanks apart from its characters sees no change in front. -/
theorem takeWhile_squeezeFrom (hp : ∀ c, isBlank c = true → p c = false) (cs : List Char) :
    (squeezeFrom false cs).takeWhile p = cs.takeWhile p := by
  induction cs with
  | nil => rfl
  | cons c cs ih =>
    cases hc : isBlank c with
    | false => rw [squeezeFrom_solid_cons hc, List.takeWhile_cons, List.takeWhile_cons, ih]
    | true =>
      rw [squeezeFrom_false_cons hc, List.takeWhile_cons_of_neg (by simp [hp ' ' rfl]),
        List.takeWhile_cons_of_neg (by simp [hp c hc])]

/-- What follows such a front is squeezed on its own. -/
theorem dropWhile_squeezeFrom (hp : ∀ c, isBlank c = true → p c = false) (cs : List Char) :
    (squeezeFrom false cs).dropWhile p = squeezeFrom false (cs.dropWhile p) := by
  induction cs with
  | nil => rfl
  | cons c cs ih =>
    cases hc : isBlank c with
    | false =>
      rw [squeezeFrom_solid_cons hc, List.dropWhile_cons, List.dropWhile_cons, ih]
      split
      · rfl
      · rw [squeezeFrom_solid_cons hc]
    | true =>
      rw [squeezeFrom_false_cons hc, List.dropWhile_cons_of_neg (by simp [hp ' ' rfl]),
        List.dropWhile_cons_of_neg (by simp [hp c hc]), squeezeFrom_false_cons hc]

/-- The first character passes the same tests, if blanks fail them. -/
theorem any_head?_squeezeFrom (hp : ∀ c, isBlank c = true → p c = false) (cs : List Char) :
    (squeezeFrom false cs).head?.any p = cs.head?.any p := by
  cases cs with
  | nil => rfl
  | cons c cs =>
    cases hc : isBlank c with
    | false => rw [squeezeFrom_solid_cons hc]; rfl
    | true =>
      rw [squeezeFrom_false_cons hc]
      exact (hp ' ' rfl).trans (hp c hc).symm

end

/-- Squeezing makes no text longer. -/
theorem length_squeezeFrom_le (afterBlank : Bool) (cs : List Char) :
    (squeezeFrom afterBlank cs).length ≤ cs.length := by
  induction cs generalizing afterBlank with
  | nil => exact Nat.le_refl _
  | cons c cs ih =>
    have htrue := ih true
    have hfalse := ih false
    unfold squeezeFrom
    split
    · split <;> simp only [List.length_cons] <;> omega
    · simp only [List.length_cons]
      omega

end

/-! ### Words -/

/-- Words with single spaces between them. -/
def joinWords (words : List (List Char)) : List Char :=
  [' '].intercalate words

/-- A word and more words are joined by one space. -/
theorem joinWords_cons (word : List Char) {rest : List (List Char)} (hne : rest ≠ []) :
    joinWords (word :: rest) = word ++ ' ' :: joinWords rest := by
  obtain ⟨second, rest, rfl⟩ := List.exists_cons_of_ne_nil hne
  rw [joinWords, List.intercalate_cons_cons, List.append_assoc]
  rfl

/-- A character in front of the first word is in front of them all. -/
theorem joinWords_cons_cons (c : Char) (word : List Char) (rest : List (List Char)) :
    joinWords ((c :: word) :: rest) = c :: joinWords (word :: rest) := by
  cases rest with
  | nil => rfl
  | cons second rest =>
    rw [joinWords_cons _ (List.cons_ne_nil _ _), joinWords_cons _ (List.cons_ne_nil _ _),
      List.cons_append]

/-- Something is left of a text that does not end with a blank. -/
theorem squeezeFrom_ne_nil {cs : List Char} {c : Char} (hlast : cs.getLast? = some c)
    (hc : isBlank c = false) (afterBlank : Bool) : squeezeFrom afterBlank cs ≠ [] := by
  obtain ⟨front, rfl⟩ := List.getLast?_eq_some_iff.1 hlast
  rw [squeezeFrom_append_solid_cons hc]
  simp

/-- What does not end with a blank is put together from its words, but
for the blanks in front. -/
theorem joinWords_wordsOf_of_getLast? {cs : List Char}
    (hlast : ∀ c, cs.getLast? = some c → isBlank c = false) :
    joinWords (wordsOf cs) = squeezeFrom true cs := by
  induction cs with
  | nil => rfl
  | cons c cs ih =>
    cases cs with
    | nil =>
      have hc := hlast c rfl
      rw [wordsOf_of_solid (List.cons_ne_nil _ _) (by simpa [IsSolid] using hc),
        squeezeFrom_solid_cons hc]
      rfl
    | cons d cs =>
      rw [List.getLast?_cons_cons] at hlast
      have ih := ih hlast
      cases hc : isBlank c with
      | true => rw [wordsOf_blank_cons hc, squeezeFrom_true_cons hc, ih]
      | false =>
        rw [squeezeFrom_solid_cons hc]
        cases hd : isBlank d with
        | false =>
          -- The first word goes on.
          obtain ⟨word, rest, hwords, hall⟩ := wordsOf_solid_cons_cons hc hd cs
          rw [squeezeFrom_solid_cons hd, ← squeezeFrom_solid_cons hd true, ← ih, hwords, hall]
          exact joinWords_cons_cons c word rest
        | true =>
          -- The first word is one character, and further words are behind the blank.
          obtain ⟨last, hsome⟩ : ∃ last, (d :: cs).getLast? = some last :=
            ⟨_, List.getLast?_eq_some_getLast (List.cons_ne_nil d cs)⟩
          have hne := squeezeFrom_ne_nil hsome (hlast last hsome) true
          rw [← ih, wordsOf_blank_cons hd] at hne
          have hrest : wordsOf cs ≠ [] := fun hnil => hne (by rw [hnil]; rfl)
          have hfirst : wordsOf (c :: d :: cs) = [c] :: wordsOf cs :=
            wordsOf_solid_append (List.cons_ne_nil c []) (by simpa [IsSolid] using hc) hd cs
          rw [wordsOf_blank_cons hd, squeezeFrom_true_cons hd] at ih
          rw [hfirst, joinWords_cons _ hrest, ih, squeezeFrom_false_cons hd]
          rfl

/-- The words of a text joined by spaces are the trimmed text, squeezed. -/
theorem joinWords_wordsOf (cs : List Char) :
    joinWords (wordsOf cs) = squeezeFrom false (trimChars cs) := by
  have htrim : wordsOf (trimChars cs) = wordsOf cs := by
    rw [trimChars_eq, wordsOf_rdropWhile, wordsOf_dropWhile]
  rw [← htrim, joinWords_wordsOf_of_getLast? fun _ => getLast?_trimChars]
  cases hcs : trimChars cs with
  | nil => rfl
  | cons c cs =>
    have hc : isBlank c = false := head?_trimChars (by rw [hcs]; rfl)
    rw [squeezeFrom_solid_cons hc, squeezeFrom_solid_cons hc]

/-- A squeezed text has nothing left to trim. -/
theorem trimChars_squeezeFrom (cs : List Char) :
    trimChars (squeezeFrom false (trimChars cs)) = squeezeFrom false (trimChars cs) := by
  refine trimChars_eq_self (fun c hc => ?_) fun c hc => ?_
  · cases hcs : trimChars cs with
    | nil =>
      rw [hcs] at hc
      cases hc
    | cons first rest =>
      have hfirst : isBlank first = false := head?_trimChars (by rw [hcs]; rfl)
      rw [hcs, squeezeFrom_solid_cons hfirst] at hc
      cases hc
      exact hfirst
  · cases hlast : (trimChars cs).getLast? with
    | none =>
      rw [List.getLast?_eq_none_iff.1 hlast] at hc
      cases hc
    | some last =>
      have hsolid := getLast?_trimChars hlast
      obtain ⟨front, hfront⟩ := List.getLast?_eq_some_iff.1 hlast
      rw [hfront, squeezeFrom_append_solid_cons hsolid] at hc
      have hsame : last = c := by simpa [squeezeFrom] using hc
      rwa [← hsame]

/-- The words of a text with single blanks between them. -/
theorem unwords_words (s : String) : Step.unwords (words s) = squeeze (trim s) := by
  have hwords : (words s).map String.toList = wordsOf s.toList := by
    simp [words, Function.comp_def]
  rw [← String.toList_inj, Step.unwords, String.toList_intercalate, hwords, squeeze, trim,
    String.toList_ofList, String.toList_ofList, String.toList_ofList, ← joinWords_wordsOf]
  rfl

/-- Words are joined by one space as texts, too. -/
theorem unwords_cons {word : String} {rest : List String} (hne : rest ≠ []) :
    Step.unwords (word :: rest) = word ++ " " ++ Step.unwords rest := by
  obtain ⟨second, rest, rfl⟩ := List.exists_cons_of_ne_nil hne
  exact String.intercalate_cons_cons

/-- A trimmed text is still trimmed when it has been squeezed. -/
theorem trim_squeeze_trim (s : String) : trim (squeeze (trim s)) = squeeze (trim s) := by
  rw [squeeze, trim, trim, String.toList_ofList, String.toList_ofList, trimChars_squeezeFrom]

end CrapsStrategy.Text
