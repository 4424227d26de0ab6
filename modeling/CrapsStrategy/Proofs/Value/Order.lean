import CrapsStrategy.Proofs.Binary64.Monotone
import CrapsStrategy.Value.Order

/-!
# `CrapsStrategy.Proofs.Value.Order`: comparing integers

Integers are compared as all numbers are, by the doubles nearest to them
(`test?_int`). So all operators agree with the order of two integers, or
not, by one condition alone: whether their doubles tell the two apart
(`nearest_le_iff`). They do if one of the integers is below 2 ^ 53 in
magnitude. Above it two integers may share a double; they are equal
then, but never in the wrong order.

Membership in a list looks for a value of equal doubles in the same
nesting (`looseEq_iff`). It finds exactly the members where one side has
integers below 2 ^ 53 only.
-/

set_option autoImplicit false

namespace CrapsStrategy

/-- The operators on what is ordered; membership is not about order. -/
def Comparison.order? {α : Type} [LinearOrder α] (op : Comparison) (a b : α) : Option Bool :=
  match op with
  | lt => some (decide (a < b))
  | gt => some (decide (b < a))
  | le => some (decide (a ≤ b))
  | ge => some (decide (b ≤ a))
  | eq => some (decide (a = b))
  | ne => some (decide (a ≠ b))
  | isIn | notIn => none

/-- The outcome of a comparison depends on nothing but the order. -/
theorem Comparison.order?_congr {α β : Type} [LinearOrder α] [LinearOrder β] {a b : α} {c d : β}
    (op : Comparison) (hle : a ≤ b ↔ c ≤ d) (hge : b ≤ a ↔ d ≤ c) :
    op.order? a b = op.order? c d := by
  have hlt : a < b ↔ c < d := lt_iff_lt_of_le_iff_le hge
  have hgt : b < a ↔ d < c := lt_iff_lt_of_le_iff_le hle
  have heq : a = b ↔ c = d := by rw [le_antisymm_iff, le_antisymm_iff, hle, hge]
  cases op <;> simp only [order?, hle, hge, hlt, hgt, heq, ne_eq]

namespace Value

/-! ### Two integers -/

/-- The value by which an integer is compared. -/
def nearest (i : Int64) : Rat :=
  (Binary64.ofInt i.toInt).toRat

/-- Below 2 ^ 53 in magnitude. -/
def IsSmall (i : Int64) : Prop :=
  i.toInt.natAbs < 9007199254740992

instance (i : Int64) : Decidable (IsSmall i) :=
  inferInstanceAs (Decidable (_ < _))

section Pairs

variable {a b : Int64}

/-- The magnitude of a machine integer is within what rounding is
monotone on. -/
theorem natAbs_toInt_lt (a : Int64) : a.toInt.natAbs < 18446744073709551616 := by
  have hlow := a.le_toInt
  have hhigh := a.toInt_lt
  omega

/-- Two integers have one value exactly if they have one double. -/
theorem nearest_eq_iff :
    nearest a = nearest b ↔ Binary64.ofInt a.toInt = Binary64.ofInt b.toInt :=
  Binary64.toRat_ofInt_inj (natAbs_toInt_lt a) (natAbs_toInt_lt b)

/-- Going to the nearest double never reverses the order. -/
theorem nearest_mono (h : a.toInt ≤ b.toInt) : nearest a ≤ nearest b :=
  Binary64.toRat_ofInt_mono (natAbs_toInt_lt a) (natAbs_toInt_lt b) h

/-- An integer below 2 ^ 53 shares its double with no other. -/
theorem eq_of_nearest_eq (hsmall : IsSmall a ∨ IsSmall b) (h : nearest a = nearest b) : a = b := by
  refine Int64.toInt_inj.1 ?_
  rcases hsmall with ha | hb
  · exact Binary64.eq_of_toRat_ofInt_eq (natAbs_toInt_lt b) ha h
  · exact (Binary64.eq_of_toRat_ofInt_eq (natAbs_toInt_lt a) hb h.symm).symm

/-- Where doubles tell two integers apart, they order them rightly. -/
theorem nearest_le_iff (h : nearest a = nearest b → a = b) :
    nearest a ≤ nearest b ↔ a.toInt ≤ b.toInt := by
  refine ⟨fun hle => ?_, nearest_mono⟩
  -- In the wrong order the two would share their double.
  by_contra hgreater
  have heq := h (hle.antisymm (nearest_mono (by omega)))
  exact hgreater (by rw [heq])

/-- Integers are compared by the values of their doubles. -/
theorem compare?_int (a b : Int64) :
    (int a).compare? (int b) = some (Binary64.compareRat (nearest a) (nearest b)) :=
  Binary64.compare?_of_isFinite (Binary64.isFinite_ofInt (natAbs_toInt_lt a))
    (Binary64.isFinite_ofInt (natAbs_toInt_lt b))

/-- Integers are equal if the values of their doubles are. -/
theorem looseEq_int (a b : Int64) : (int a).looseEq (int b) = decide (nearest a = nearest b) := by
  -- Equal numbers are those that their comparison finds equal.
  have hlooseEq : (int a).looseEq (int b) = ((int a).compare? (int b) == some .eq) := by
    rw [looseEq]
    · rfl
    all_goals nofun
  rw [hlooseEq, compare?_int, Binary64.compareRat]
  rcases lt_trichotomy (nearest a) (nearest b) with hlt | heq | hgt
  · simp [hlt, hlt.ne]
  · simp [heq]
  · simp [hgt, hgt.not_gt, hgt.ne']

/-- Two integers compare as their doubles do. -/
theorem test?_int (op : Comparison) (a b : Int64) :
    op.test? (int a) (int b) = op.order? (nearest a) (nearest b) := by
  have hcompare := compare?_int a b
  have hequal := looseEq_int a b
  rw [Binary64.compareRat] at hcompare
  unfold Comparison.test? Comparison.order?
  -- An integer is no container, so membership has no answer on either side.
  rcases lt_trichotomy (nearest a) (nearest b) with hlt | heq | hgt
  · cases op <;> simp [contains?, hcompare, hequal, hlt, hlt.le, hlt.not_gt, hlt.not_ge, hlt.ne]
  · cases op <;> simp [contains?, hcompare, hequal, heq]
  · cases op <;> simp [contains?, hcompare, hequal, hgt, hgt.le, hgt.not_gt, hgt.not_ge, hgt.ne']

/-- All operators agree with the order of the integers if their doubles
tell the two apart, and only then. -/
theorem test?_eq_order?_iff :
    (∀ op : Comparison, op.test? (int a) (int b) = op.order? a.toInt b.toInt) ↔
      (nearest a = nearest b → a = b) := by
  constructor
  · intro h hnearest
    have heq := h .eq
    rw [test?_int, Comparison.order?, Comparison.order?, hnearest, decide_eq_true rfl] at heq
    exact Int64.toInt_inj.1 (of_decide_eq_true (Option.some.inj heq).symm)
  · intro h op
    rw [test?_int]
    exact op.order?_congr (nearest_le_iff h) (nearest_le_iff fun heq => (h heq.symm).symm)

end Pairs

/-! ### Lists of integers -/

/-- An integer with a property, or a list of such values. -/
inductive Integers (p : Int64 → Prop) : Value → Prop
  | int {i : Int64} (h : p i) : Integers p (int i)
  | list {items : List Value} (h : ∀ v ∈ items, Integers p v) : Integers p (list items)

mutual

/-- A value with the nearest doubles for its integers. -/
def asDoubles : Value → Value
  | int i => float (.ofInt i.toInt)
  | list items => list (asDoublesItems items)
  | v => v

/-- Items with the nearest doubles for their integers. -/
def asDoublesItems : List Value → List Value
  | [] => []
  | v :: items => v.asDoubles :: asDoublesItems items

end

section Lists

variable {p q : Int64 → Prop} {v w item : Value} {items others : List Value}

/-- Lists are equal item by item, by whatever tells their items apart. -/
theorem looseEqItems_iff {α : Type} {f : Value → α}
    (h : ∀ v ∈ items, ∀ w ∈ others, (v.looseEq w = true ↔ f v = f w)) :
    looseEqItems items others = true ↔ items.map f = others.map f := by
  induction items generalizing others with
  | nil => cases others <;> simp [looseEqItems]
  | cons v items ih =>
    cases others with
    | nil => simp [looseEqItems]
    | cons w others =>
      have hhead := h v (.head _) w (.head _)
      have htail := ih fun v hv w hw => h v (.tail _ hv) w (.tail _ hw)
      simp [looseEqItems, hhead, htail]

/-- Items are taken to doubles one by one. -/
theorem asDoublesItems_eq_map (items : List Value) : asDoublesItems items = items.map asDoubles := by
  induction items with
  | nil => rfl
  | cons v items ih => rw [asDoublesItems, List.map_cons, ih]

/-- Integers, and lists of them, are equal where their doubles are. -/
theorem looseEq_iff (hv : v.Integers p) (hw : w.Integers q) :
    v.looseEq w = true ↔ v.asDoubles = w.asDoubles := by
  -- By the nesting of one side; the other has the same or differs from it.
  induction hv generalizing w with
  | @int a _ =>
    cases hw with
    | @int b _ =>
      rw [looseEq_int, decide_eq_true_iff, nearest_eq_iff, asDoubles, asDoubles, float.injEq]
    | list _ => simp [looseEq, numbersEqual, number?, asDoubles]
  | @list items _ ih =>
    cases hw with
    | int _ => simp [looseEq, numbersEqual, number?, asDoubles]
    | @list others hothers =>
      rw [looseEq, looseEqItems_iff fun v hv w hw => ih v hv (hothers w hw), asDoubles, asDoubles,
        list.injEq, asDoublesItems_eq_map, asDoublesItems_eq_map]

/-- Lists are told apart by their doubles if their items are. -/
theorem asDoublesItems_inj (h : ∀ v ∈ items, ∀ w ∈ others, v.asDoubles = w.asDoubles → v = w)
    (heq : asDoublesItems items = asDoublesItems others) : items = others := by
  induction items generalizing others with
  | nil =>
    cases others with
    | nil => rfl
    | cons _ _ => cases heq
  | cons v items ih =>
    cases others with
    | nil => cases heq
    | cons w others =>
      obtain ⟨hhead, htail⟩ := List.cons.inj heq
      rw [h v (.head _) w (.head _) hhead,
        ih (fun v hv w hw => h v (.tail _ hv) w (.tail _ hw)) htail]

/-- Small integers, and lists of them, have doubles of their own. -/
theorem asDoubles_inj (hv : v.Integers IsSmall) (hw : w.Integers q)
    (heq : v.asDoubles = w.asDoubles) : v = w := by
  induction hv generalizing w with
  | @int a ha =>
    cases hw with
    | @int b _ =>
      rw [asDoubles, asDoubles, float.injEq, ← nearest_eq_iff] at heq
      rw [eq_of_nearest_eq (.inl ha) heq]
    | list _ => cases heq
  | @list items _ ih =>
    cases hw with
    | int _ => cases heq
    | @list others hothers =>
      rw [asDoubles, asDoubles, list.injEq] at heq
      rw [asDoublesItems_inj (fun v hv w hw => ih v hv (hothers w hw)) heq]

/-- A list has an item where one of its members has its doubles. -/
theorem contains?_list (hitems : (list items).Integers p) (hitem : item.Integers q) :
    ∃ found, (list items).contains? item = some found ∧
      (found = true ↔ ∃ v ∈ items, v.asDoubles = item.asDoubles) := by
  cases hitems with
  | list hmembers =>
    refine ⟨_, rfl, ?_⟩
    rw [List.any_eq_true]
    exact exists_congr fun v => and_congr_right fun hv => looseEq_iff (hmembers v hv) hitem

/-- An item that has the doubles of a member is a member itself if its
integers are small, or those of the list. -/
theorem mem_iff_asDoubles (hitems : (list items).Integers p) (hitem : item.Integers q)
    (hsmall : item.Integers IsSmall ∨ (list items).Integers IsSmall) :
    (∃ v ∈ items, v.asDoubles = item.asDoubles) ↔ item ∈ items := by
  constructor
  · rintro ⟨v, hv, heq⟩
    rcases hsmall with hsmall | hsmall
    · cases hitems with
      | list hmembers =>
        rw [asDoubles_inj hsmall (hmembers v hv) heq.symm]
        exact hv
    · cases hsmall with
      | list hmembers =>
        rw [← asDoubles_inj (hmembers v hv) hitem heq]
        exact hv
  · exact fun hmem => ⟨item, hmem, rfl⟩

end Lists

/-- Integers are compared by their doubles. Two of them are never in the
wrong order, and all operators agree with the integers exactly where
their doubles tell the two apart; so they do if one of the two is below
2 ^ 53 in magnitude. Membership in a list of integers, or of lists of
them, is decided by doubles too, and finds exactly the members if the
integers of one side are below that bound. -/
theorem integers_compared (p q : Int64 → Prop) (a b : Int64) (items : List Value) (item : Value) :
    (∀ op : Comparison, op.test? (int a) (int b) = op.order? (nearest a) (nearest b)) ∧
      (a.toInt ≤ b.toInt → nearest a ≤ nearest b) ∧
      ((∀ op : Comparison, op.test? (int a) (int b) = op.order? a.toInt b.toInt) ↔
        (nearest a = nearest b → a = b)) ∧
      (IsSmall a ∨ IsSmall b →
        ∀ op : Comparison, op.test? (int a) (int b) = op.order? a.toInt b.toInt) ∧
      ((list items).Integers p → item.Integers q →
        ∃ found, Comparison.isIn.test? item (list items) = some found ∧
          Comparison.notIn.test? item (list items) = some (!found) ∧
          (found = true ↔ ∃ v ∈ items, v.asDoubles = item.asDoubles) ∧
          (item.Integers IsSmall ∨ (list items).Integers IsSmall →
            (found = true ↔ item ∈ items))) := by
  refine ⟨fun op => test?_int op a b, nearest_mono, test?_eq_order?_iff,
    fun hsmall => test?_eq_order?_iff.2 (eq_of_nearest_eq hsmall), fun hitems hitem => ?_⟩
  obtain ⟨found, hfound, hiff⟩ := contains?_list hitems hitem
  refine ⟨found, hfound, ?_, hiff, fun hsmall => ?_⟩
  · show ((list items).contains? item).map (!·) = _
    rw [hfound]
    rfl
  · rw [hiff, mem_iff_asDoubles hitems hitem hsmall]

/-- A small integer and the greatest, and a list within a list. -/
theorem integers_compared_nested :
    Comparison.lt.test? (int 3) (int Int64.maxValue) = some true ∧
      Comparison.isIn.test? (list [int 2]) (list [int Int64.maxValue, list [int 2]]) =
        some true := by
  have hitem : (list [int 2]).Integers IsSmall := .list (by simpa using .int (by decide))
  have hitems : (list [int Int64.maxValue, list [int 2]]).Integers fun _ => True :=
    .list (by simpa using ⟨.int trivial, .list (by simpa using .int trivial)⟩)
  obtain ⟨_, _, _, hsmall, hcontains⟩ := integers_compared (fun _ => True) IsSmall 3 Int64.maxValue
    [int Int64.maxValue, list [int 2]] (list [int 2])
  obtain ⟨found, hfound, _, _, hmember⟩ := hcontains hitems hitem
  refine ⟨(hsmall (.inl (by decide)) .lt).trans rfl, ?_⟩
  rw [hfound, (hmember (.inl hitem)).2 (by simp)]

/-- Two integers that differ and are equal. -/
theorem equal_beyond_bits :
    (9007199254740992 : Int64).toInt < (9007199254740993 : Int64).toInt ∧
      Comparison.eq.test? (int 9007199254740992) (int 9007199254740993) = some true ∧
      Comparison.lt.test? (int 9007199254740992) (int 9007199254740993) = some false ∧
      Comparison.isIn.test? (int 9007199254740992) (list [int 9007199254740993]) = some true := by
  decide +kernel

end Value

end CrapsStrategy
