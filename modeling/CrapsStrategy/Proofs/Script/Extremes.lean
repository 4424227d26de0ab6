import CrapsStrategy.Proofs.Except
import CrapsStrategy.Proofs.Value.Comparison
import CrapsStrategy.Script.Builtin

/-!
# `CrapsStrategy.Proofs.Script.Extremes`: least and greatest items

`min` and `max` go through their items once and keep the best so far.
An item is compared with that one alone, and this is enough: `Leads` is
what the best item has to all those it was not compared with, and one
more item keeps it by the transitivity of the comparison
(`Leads.step`). At the end it is the earliest item that no other one
beats (`IsEarliest`).

No item may be out of the order of the others. The pass stops at one
that is, since the best so far is of the kind of all before
(`alike_of_best`).
-/

set_option autoImplicit false

namespace CrapsStrategy

namespace Builtin

open Value (IsQuantity IsText ComparedBy comparedBy_quantity comparedBy_wording of_compare?)

variable {f : Builtin} {o : Ordering} {better : Comparison} {v first : Value}
  {arguments items before after rest : List Value}

/-- How an item compares with what it beats: below for `min`, above for
`max`. -/
def sought? : Builtin → Option Ordering
  | min => some .lt
  | max => some .gt
  | _ => none

/-- The items of a call: those of a single list, or else the
arguments. -/
inductive Spread : List Value → List Value → Prop
  | list (items : List Value) : Spread [.list items] items
  | several {arguments : List Value} (h : arguments.length ≠ 1) : Spread arguments arguments

/-- Items that can be put in order: a single one, or numbers without
NaN, or texts. -/
def Alike (items : List Value) : Prop :=
  items.length = 1 ∨ (∀ v ∈ items, IsQuantity v) ∨ ∀ v ∈ items, IsText v

/-- The earliest item that no other one beats. All items before it are
beaten. -/
def IsEarliest (o : Ordering) (items : List Value) (v : Value) : Prop :=
  ∃ before after, items = before ++ v :: after ∧
    (∀ w ∈ before ++ after, w.compare? v ≠ some o) ∧
    ∀ u ∈ before, ∃ w ∈ items, w.compare? u = some o

/-! ### One comparison -/

/-- Both functions keep the best item, by an operator that asks for one
outcome of the comparison. -/
theorem exists_better (hf : f.sought? = some o) :
    ∃ better : Comparison, (∀ arguments, f.apply arguments = extreme f better arguments) ∧
      (∀ v w, better.test? v w = (v.compare? w).map (· == o)) ∧ o ≠ .eq := by
  cases f with
  | min =>
    cases hf
    exact ⟨.lt, fun _ => rfl, fun _ _ => rfl, by decide⟩
  | max =>
    cases hf
    exact ⟨.gt, fun _ => rfl, fun _ _ => rfl, by decide⟩
  | abs | round | int | float | floor | ceil => cases hf

/-- What a pass does with one item. -/
theorem best_cons_eq_ok (hbetter : ∀ v w, better.test? v w = (v.compare? w).map (· == o))
    {item : Value} :
    best better first (item :: items) = .ok v ↔
      ∃ p, item.compare? first = some p ∧
        best better (if p = o then item else first) items = .ok v := by
  rw [best, bind_eq_ok, compareValues, hbetter]
  cases item.compare? first with
  | none => simp
  | some p => by_cases hp : p = o <;> simp [hp]

/-! ### The pass -/

/-- What the best item so far has to the others: it beats all before it,
and none after it beats it. -/
structure Leads (o : Ordering) (v : Value) (before after : List Value) : Prop where
  earlier : ∀ u ∈ before, v.compare? u = some o
  later : ∀ w ∈ after, ∃ p, p ≠ o ∧ w.compare? v = some p

/-- An item with nothing around it leads. -/
theorem Leads.alone (o : Ordering) (v : Value) : Leads o v [] [] :=
  ⟨List.forall_mem_nil _, List.forall_mem_nil _⟩

/-- An item that beats the best one beats all items so far. -/
theorem Leads.replace (h : Leads o v before after) (ho : o ≠ .eq) {item : Value}
    (hitem : item.compare? v = some o) : Leads o item (before ++ v :: after) [] := by
  refine ⟨fun u hu => ?_, List.forall_mem_nil _⟩
  rcases List.mem_append.1 hu with hearlier | hrest
  · have hbeaten := Value.compare?_trans hitem (h.earlier u hearlier) (.inl rfl)
    rwa [Ordering.then_self] at hbeaten
  · rcases List.mem_cons.1 hrest with rfl | hlater
    · exact hitem
    · -- The best one is equal to the later item or beats it.
      obtain ⟨p, hp, hu⟩ := h.later u hlater
      have hback : v.compare? u = some p.swap := by rw [Value.compare?_swap, hu, Option.map_some]
      have hbeaten := Value.compare?_trans hitem hback (by cases o <;> cases p <;> simp_all)
      rw [hbeaten]
      cases o <;> simp_all

/-- One that does not leaves it the best. -/
theorem Leads.keep (h : Leads o v before after) {item : Value} {p : Ordering} (hp : p ≠ o)
    (hitem : item.compare? v = some p) : Leads o v before (after ++ [item]) := by
  refine ⟨h.earlier, fun w hw => ?_⟩
  rcases List.mem_append.1 hw with hlater | hlast
  · exact h.later w hlater
  · obtain rfl := List.mem_singleton.1 hlast
    exact ⟨p, hp, hitem⟩

/-- A pass ends with an item that leads all. -/
theorem leads_of_best (hbetter : ∀ v w, better.test? v w = (v.compare? w).map (· == o))
    (ho : o ≠ .eq) (hrun : best better first rest = .ok v) (h : Leads o first before after) :
    ∃ earlier later, before ++ first :: after ++ rest = earlier ++ v :: later ∧
      Leads o v earlier later := by
  induction rest generalizing first before after with
  | nil =>
    cases hrun
    exact ⟨before, after, List.append_nil _, h⟩
  | cons item rest ih =>
    obtain ⟨p, hitem, hrun⟩ := (best_cons_eq_ok hbetter).1 hrun
    by_cases hp : p = o
    · rw [if_pos hp] at hrun
      subst hp
      obtain ⟨earlier, later, hsplit, hleads⟩ := ih hrun (h.replace ho hitem)
      exact ⟨earlier, later, by rw [← hsplit]; simp, hleads⟩
    · rw [if_neg hp] at hrun
      obtain ⟨earlier, later, hsplit, hleads⟩ := ih hrun (h.keep hp hitem)
      exact ⟨earlier, later, by rw [← hsplit]; simp, hleads⟩

/-- An item that leads at the end of the search is the earliest of the
best. -/
theorem Leads.isEarliest (h : Leads o v before after) (ho : o ≠ .eq) :
    IsEarliest o (before ++ v :: after) v := by
  refine ⟨before, after, rfl, fun w hw => ?_, fun u hu => ⟨v, by simp, h.earlier u hu⟩⟩
  rcases List.mem_append.1 hw with hearlier | hlater
  · rw [Value.compare?_swap, h.earlier w hearlier, Option.map_some]
    cases o <;> simp_all
  · obtain ⟨p, hp, hw⟩ := h.later w hlater
    rw [hw]
    exact fun heq => hp (Option.some.inj heq)

/-! ### Where a pass succeeds -/

/-- Items of one kind are all compared. -/
theorem exists_best {α : Type} [LinearOrder α] {kind : Value → Prop} {rank : Value → α}
    (hbetter : ∀ v w, better.test? v w = (v.compare? w).map (· == o))
    (hkind : ComparedBy kind rank) (h : ∀ v ∈ first :: items, kind v) :
    ∃ v, best better first items = .ok v := by
  induction items generalizing first with
  | nil => exact ⟨first, rfl⟩
  | cons item items ih =>
    have hfirst : kind first := h first (by simp)
    have hitem : kind item := h item (by simp)
    have hrest : ∀ v ∈ items, kind v := fun v hv => h v (by simp [hv])
    let p := cmp (rank item) (rank first)
    have hbest : kind (if p = o then item else first) := by
      split
      · exact hitem
      · exact hfirst
    obtain ⟨v, hv⟩ := ih (List.forall_mem_cons.2 ⟨hbest, hrest⟩)
    exact ⟨v, (best_cons_eq_ok hbetter).2 ⟨p, hkind hitem hfirst, hv⟩⟩

/-- A pass over two items and more is over items of one kind. -/
theorem alike_of_best (hbetter : ∀ v w, better.test? v w = (v.compare? w).map (· == o))
    (hrun : best better first items = .ok v) : Alike (first :: items) := by
  induction items generalizing first with
  | nil => exact .inl rfl
  | cons item items ih =>
    obtain ⟨p, hcompare, hrun⟩ := (best_cons_eq_ok hbetter).1 hrun
    have hkept : ∀ kind : Value → Prop, kind item ∧ kind first →
        kind (if p = o then item else first) := by
      rintro kind ⟨hitem, hfirst⟩
      split
      · exact hitem
      · exact hfirst
    have hall : ∀ kind : Value → Prop, kind item ∧ kind first → (∀ w ∈ items, kind w) →
        ∀ w ∈ first :: item :: items, kind w := fun kind hpair hitems =>
      List.forall_mem_cons.2 ⟨hpair.2, List.forall_mem_cons.2 ⟨hpair.1, hitems⟩⟩
    -- The one that is kept is of the kind of the two, and the rest is of its kind.
    rcases of_compare? hcompare with hpair | hpair
    · refine .inr (.inl (hall IsQuantity hpair ?_))
      rcases ih hrun with hone | hquantities | htexts
      · rw [List.eq_nil_of_length_eq_zero (Nat.succ.inj hone)]
        exact List.forall_mem_nil _
      · exact (List.forall_mem_cons.1 hquantities).2
      · exact absurd (List.forall_mem_cons.1 htexts).1 (hkept IsQuantity hpair).not_isText
    · refine .inr (.inr (hall IsText hpair ?_))
      rcases ih hrun with hone | hquantities | htexts
      · rw [List.eq_nil_of_length_eq_zero (Nat.succ.inj hone)]
        exact List.forall_mem_nil _
      · exact absurd (hkept IsText hpair) (List.forall_mem_cons.1 hquantities).1.not_isText
      · exact (List.forall_mem_cons.1 htexts).2

/-! ### The two functions -/

/-- The items are those of a single list, or the arguments themselves. -/
theorem extremeItems_eq_ok : extremeItems arguments = .ok items ↔ Spread arguments items := by
  constructor
  · intro h
    unfold extremeItems at h
    split at h
    · cases h
      exact .list _
    · cases h
    · rename_i hlist hsingle
      cases h
      refine .several fun hone => ?_
      obtain ⟨v, rfl⟩ := List.length_eq_one_iff.1 hone
      exact hsingle v rfl
  · rintro (items | h)
    · rfl
    · unfold extremeItems
      split
      · exact absurd rfl h
      · exact absurd rfl h
      · rfl

/-- The items of a call are gone through in one pass. -/
theorem extreme_eq_ok : extreme f better arguments = .ok v ↔
    ∃ first rest, Spread arguments (first :: rest) ∧ best better first rest = .ok v := by
  rw [extreme, bind_eq_ok]
  constructor
  · rintro ⟨items, hitems, hrun⟩
    cases items with
    | nil => cases hrun
    | cons first rest => exact ⟨first, rest, extremeItems_eq_ok.1 hitems, hrun⟩
  · rintro ⟨first, rest, hspread, hrun⟩
    exact ⟨first :: rest, extremeItems_eq_ok.2 hspread, hrun⟩

/-- The result of `min` and of `max`. There is one exactly when the call
has items, in a list or as several arguments, that can be put in order.
It is then the earliest item that no other one beats, as it stands. -/
theorem extreme_earliest (hf : f.sought? = some o) (arguments : List Value) :
    ((∃ v, f.apply arguments = .ok v) ↔
        ∃ items, Spread arguments items ∧ items ≠ [] ∧ Alike items) ∧
      ∀ v items, f.apply arguments = .ok v → Spread arguments items → IsEarliest o items v := by
  obtain ⟨better, happly, hbetter, ho⟩ := exists_better hf
  simp only [happly, extreme_eq_ok]
  refine ⟨⟨?_, ?_⟩, ?_⟩
  · rintro ⟨v, first, rest, hspread, hrun⟩
    exact ⟨first :: rest, hspread, nofun, alike_of_best hbetter hrun⟩
  · rintro ⟨items, hspread, hnonempty, halike⟩
    obtain ⟨first, rest, rfl⟩ := List.exists_cons_of_ne_nil hnonempty
    have hrun : ∃ v, best better first rest = .ok v := by
      rcases halike with hone | hquantities | htexts
      · rw [List.eq_nil_of_length_eq_zero (Nat.succ.inj hone)]
        exact ⟨first, rfl⟩
      · exact exists_best hbetter comparedBy_quantity hquantities
      · exact exists_best hbetter comparedBy_wording htexts
    obtain ⟨v, hv⟩ := hrun
    exact ⟨v, first, rest, hspread, hv⟩
  · rintro v items ⟨first, rest, hspread, hrun⟩ hitems
    -- The call has these items and no others.
    have hsame := (extremeItems_eq_ok.2 hitems).symm.trans (extremeItems_eq_ok.2 hspread)
    obtain rfl := Except.ok.inj hsame
    obtain ⟨earlier, later, hsplit, hleads⟩ := leads_of_best hbetter ho hrun (.alone o first)
    have hearliest := hleads.isEarliest ho
    rwa [← hsplit] at hearliest

/-- Truth comes before the integer that it is equal to, and keeps its
kind. NaN is compared with nothing. -/
theorem extreme_earliest_tie :
    (min.apply [.int 2, .bool true, .int 1] = .ok (.bool true) ∧
      IsEarliest .lt [.int 2, .bool true, .int 1] (.bool true)) ∧
      ¬ ∃ v, max.apply [.list [.int 1, .float .nan]] = .ok v := by
  obtain ⟨_, hearliest⟩ := extreme_earliest (f := min) rfl [.int 2, .bool true, .int 1]
  obtain ⟨hsucceeds, _⟩ := extreme_earliest (f := max) rfl [.list [.int 1, .float .nan]]
  have hlast : best .lt (.bool true) [.int 1] = .ok (.bool true) :=
    (best_cons_eq_ok (o := .lt) fun _ _ => rfl).2 ⟨.eq, by decide +kernel, rfl⟩
  have hrun : min.apply [.int 2, .bool true, .int 1] = .ok (.bool true) :=
    extreme_eq_ok.2 ⟨_, _, .several (by decide),
      (best_cons_eq_ok (o := .lt) fun _ _ => rfl).2 ⟨.lt, by decide +kernel, hlast⟩⟩
  refine ⟨⟨hrun, hearliest _ _ hrun (.several (by decide))⟩, ?_⟩
  rw [hsucceeds]
  rintro ⟨items, hspread, _, halike⟩
  obtain rfl := Except.ok.inj (extremeItems_eq_ok.2 hspread)
  rcases halike with hone | hquantities | htexts
  · cases hone
  · obtain ⟨x, hx, hnan⟩ := hquantities (.float .nan) (by simp)
    cases hx
    cases hnan
  · obtain ⟨s, hs⟩ := htexts (.int 1) (by simp)
    cases hs

end Builtin

end CrapsStrategy
