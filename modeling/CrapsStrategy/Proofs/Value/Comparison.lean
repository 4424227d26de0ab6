import CrapsStrategy.Proofs.Value.Order
import Mathlib.Data.String.Basic
import Mathlib.Order.Compare
import Mathlib.Order.WithBot

/-!
# `CrapsStrategy.Proofs.Value.Comparison`: the laws of comparison

Numbers are compared by their exact values, with the infinities at both
ends (`Value.quantity`), and texts by their code points. Both are linear
orders (`ComparedBy`), and nothing else is compared with anything
(`of_compare?`), so the laws of a comparison are those of a linear
order.

Equality reaches further, into lists and maps. It has the laws of an
equality because it is one: values without NaN are equal where their
forms are, in which each number is replaced by its quantity
(`looseEq_iff_form`).
-/

set_option autoImplicit false

namespace CrapsStrategy

namespace Binary64

/-- The exact value of a number, infinities included. -/
def extended : Binary64 → WithBot (WithTop Rat)
  | infinite true => ⊥
  | infinite false => ⊤
  | x => ((x.toRat : WithTop Rat) : WithBot (WithTop Rat))

variable {x y : Binary64}

/-- Numbers are ordered by their exact values. -/
theorem compare?_eq_cmp (hx : x.isNaN = false) (hy : y.isNaN = false) :
    x.compare? y = some (cmp x.extended y.extended) := by
  cases x with
  | nan => cases hx
  | infinite a =>
    cases y with
    | nan => cases hy
    | infinite b => cases a <;> cases b <;> rfl
    | finite b n l hn => cases a <;> rfl
  | finite a m k hm =>
    cases y with
    | nan => cases hy
    | infinite b => cases b <;> rfl
    | finite b n l hn =>
      have hcoe : StrictMono fun q : Rat => ((q : WithTop Rat) : WithBot (WithTop Rat)) :=
        WithBot.coe_strictMono.comp WithTop.coe_strictMono
      exact congrArg some (hcoe.cmp_map_eq _ _).symm

/-- NaN is ordered with nothing. -/
theorem isNaN_of_compare? {o : Ordering} (h : x.compare? y = some o) :
    x.isNaN = false ∧ y.isNaN = false := by
  cases x with
  | nan => cases h
  | infinite _ | finite _ _ _ _ =>
    cases y with
    | nan => cases h
    | infinite _ | finite _ _ _ _ => exact ⟨rfl, rfl⟩

end Binary64

namespace Value

variable {u v w : Value} {x y : Binary64} {o : Ordering}

/-! ### What is compared -/

/-- The exact value of a number. -/
def quantity (v : Value) : WithBot (WithTop Rat) :=
  (v.number?.map Binary64.extended).getD ⊥

/-- A number that is not NaN. -/
def IsQuantity (v : Value) : Prop :=
  ∃ x, v.number? = some x ∧ x.isNaN = false

/-- The characters of a text. -/
def wording : Value → String
  | text s => s
  | _ => ""

/-- A text, whatever it says. -/
def IsText (v : Value) : Prop :=
  ∃ s, v = text s

/-- Values are compared by what they rank at in a linear order. -/
def ComparedBy {α : Type} [LinearOrder α] (kind : Value → Prop) (rank : Value → α) : Prop :=
  ∀ ⦃v w : Value⦄, kind v → kind w → v.compare? w = some (cmp (rank v) (rank w))

/-- A number is compared with numbers. -/
theorem compare?_of_number? (hv : v.number? = some x) (w : Value) :
    v.compare? w = w.number?.bind x.compare? := by
  cases v with
  | bool _ | int _ | float _ =>
    cases hv
    cases w <;> rfl
  | text _ | list _ | map _ | null => cases hv

/-- Numbers are compared by their quantities. -/
theorem comparedBy_quantity : ComparedBy IsQuantity quantity := by
  rintro v w ⟨x, hv, hx⟩ ⟨y, hw, hy⟩
  rw [compare?_of_number? hv, hw, Option.bind_some, Binary64.compare?_eq_cmp hx hy, quantity, hv,
    quantity, hw]
  rfl

/-- Texts are compared by their wording. -/
theorem comparedBy_wording : ComparedBy IsText wording := by
  rintro _ _ ⟨s, rfl⟩ ⟨t, rfl⟩
  rfl

/-- Only two quantities or two texts are compared. -/
theorem of_compare? (h : v.compare? w = some o) :
    IsQuantity v ∧ IsQuantity w ∨ IsText v ∧ IsText w := by
  cases hv : v.number? with
  | some x =>
    rw [compare?_of_number? hv] at h
    obtain ⟨y, hw, h⟩ := Option.bind_eq_some_iff.1 h
    obtain ⟨hx, hy⟩ := Binary64.isNaN_of_compare? h
    exact .inl ⟨⟨x, hv, hx⟩, ⟨y, hw, hy⟩⟩
  | none =>
    cases v with
    | text s =>
      cases w with
      | text t => exact .inr ⟨⟨s, rfl⟩, ⟨t, rfl⟩⟩
      | bool _ | int _ | float _ | list _ | map _ | null => cases h
    | list _ | map _ | null => cases h
    | bool _ | int _ | float _ => cases hv

/-- The two kinds that are compared have no value in common. -/
theorem IsQuantity.not_isText (hv : IsQuantity v) : ¬ IsText v := by
  rintro ⟨s, rfl⟩
  obtain ⟨x, hx, _⟩ := hv
  cases hx

/-! ### The laws of an order -/

section Ranks

variable {α : Type} [LinearOrder α] {kind : Value → Prop} {rank : Value → α} {p : Ordering}

/-- Two comparisons that do not pull apart compare the ends. -/
theorem cmp_then {a b c : α} (h : cmp a b = cmp b c ∨ cmp a b = .eq ∨ cmp b c = .eq) :
    cmp a c = (cmp a b).then (cmp b c) := by
  rcases h with h | h | h
  · rw [h]
    cases hbc : cmp b c with
    | lt =>
      rw [hbc, cmp_eq_lt_iff] at h
      exact (cmp_eq_lt_iff _ _).2 (h.trans ((cmp_eq_lt_iff _ _).1 hbc))
    | eq =>
      rw [hbc, cmp_eq_eq_iff] at h
      rw [h, hbc]
      rfl
    | gt =>
      rw [hbc, cmp_eq_gt_iff] at h
      exact (cmp_eq_gt_iff _ _).2 (((cmp_eq_gt_iff _ _).1 hbc).trans h)
  · rw [h, (cmp_eq_eq_iff _ _).1 h]
    rfl
  · rw [h, ← (cmp_eq_eq_iff _ _).1 h]
    cases cmp a b <;> rfl

/-- Values of one kind compare the other way round when they are
swapped. -/
theorem ComparedBy.swap (h : ComparedBy kind rank) (hv : kind v) (hw : kind w) :
    w.compare? v = (v.compare? w).map Ordering.swap := by
  rw [h hv hw, h hw hv, Option.map_some, cmp_swap]

/-- Two comparisons within one kind compare the ends, unless one is less
and the other is greater. -/
theorem ComparedBy.trans (h : ComparedBy kind rank) (hu : kind u) (hv : kind v) (hw : kind w)
    (huv : u.compare? v = some o) (hvw : v.compare? w = some p)
    (hop : o = p ∨ o = .eq ∨ p = .eq) : u.compare? w = some (o.then p) := by
  rw [h hu hv, Option.some.injEq] at huv
  rw [h hv hw, Option.some.injEq] at hvw
  subst huv hvw
  rw [h hu hw, cmp_then hop]

end Ranks

/-- Whether two values are compared does not depend on their order. -/
theorem compare?_swap (v w : Value) : w.compare? v = (v.compare? w).map Ordering.swap := by
  have hsome : ∀ {v w : Value} {o : Ordering}, v.compare? w = some o →
      w.compare? v = (v.compare? w).map Ordering.swap := by
    intro v w o h
    rcases of_compare? h with ⟨hv, hw⟩ | ⟨hv, hw⟩
    · exact comparedBy_quantity.swap hv hw
    · exact comparedBy_wording.swap hv hw
  cases hvw : v.compare? w with
  | some o => exact hvw ▸ hsome hvw
  | none =>
    cases hwv : w.compare? v with
    | none => rfl
    | some o =>
      have hback := hsome hwv
      rw [hvw, hwv] at hback
      cases hback

/-- Two comparisons with a common value compare the ends. The common
value sees to it that all three are of one kind. -/
theorem compare?_trans {p : Ordering} (huv : u.compare? v = some o) (hvw : v.compare? w = some p)
    (hop : o = p ∨ o = .eq ∨ p = .eq) : u.compare? w = some (o.then p) := by
  rcases of_compare? huv with ⟨hu, hv⟩ | ⟨hu, hv⟩
  · rcases of_compare? hvw with ⟨_, hw⟩ | ⟨hv', _⟩
    · exact comparedBy_quantity.trans hu hv hw huv hvw hop
    · exact absurd hv' hv.not_isText
  · rcases of_compare? hvw with ⟨hv', _⟩ | ⟨_, hw⟩
    · exact absurd hv hv'.not_isText
    · exact comparedBy_wording.trans hu hv hw huv hvw hop

/-- Numbers are equal to numbers alone. -/
theorem looseEq_of_number? (hv : v.number? = some x) (w : Value) :
    v.looseEq w = (w.number?.map x.equal).getD false := by
  cases v with
  | bool _ | int _ | float _ =>
    cases hv
    cases w <;> simp [looseEq, numbersEqual, number?]
  | text _ | list _ | map _ | null => cases hv

/-- Where values are compared, equality is one of the outcomes. -/
theorem looseEq_of_compare? (h : v.compare? w = some o) : v.looseEq w = (o == .eq) := by
  rcases of_compare? h with ⟨⟨x, hv, _⟩, ⟨y, hw, _⟩⟩ | ⟨⟨s, rfl⟩, ⟨t, rfl⟩⟩
  · rw [compare?_of_number? hv, hw, Option.bind_some] at h
    rw [looseEq_of_number? hv, hw, Option.map_some, Option.getD_some, Binary64.equal, h]
    rfl
  · obtain rfl := Option.some.inj h
    rw [looseEq, Bool.eq_iff_iff, beq_iff_eq, beq_iff_eq]
    exact (cmp_eq_eq_iff s t).symm

/-! ### Equality as an equality of forms -/

/-- No NaN at any depth. -/
inductive NaNFree : Value → Prop
  | bool (b : Bool) : NaNFree (bool b)
  | int (i : Int64) : NaNFree (int i)
  | float {x : Binary64} (h : x.isNaN = false) : NaNFree (float x)
  | text (s : String) : NaNFree (text s)
  | null : NaNFree null
  | list {items : List Value} (h : ∀ v ∈ items, NaNFree v) : NaNFree (list items)
  | map {entries : List (String × Value)} (h : ∀ e ∈ entries, NaNFree e.2) : NaNFree (map entries)

/-- A value without NaN is not NaN itself. -/
theorem NaNFree.isNaN (h : v.NaNFree) (hv : v.number? = some x) : x.isNaN = false := by
  cases h with
  | bool b =>
    cases hv
    cases b <;> exact Binary64.isNaN_roundMagnitude _ _
  | int i =>
    cases hv
    exact Binary64.isNaN_roundMagnitude _ _
  | float h =>
    cases hv
    exact h
  | text _ | null | list _ | map _ => cases hv

/-- A value with the quantities of its numbers for the numbers. -/
inductive Form where
  | number (q : WithBot (WithTop Rat))
  | text (s : String)
  | list (items : List Form)
  | map (entries : List (String × Form))
  | null

mutual

/-- The form of a value. -/
def form : Value → Form
  | text s => .text s
  | list items => .list (formItems items)
  | map entries => .map (formEntries entries)
  | null => .null
  | v => .number v.quantity

/-- The forms of some items. -/
def formItems : List Value → List Form
  | [] => []
  | v :: items => form v :: formItems items

/-- The entries of a map with the forms of their values. -/
def formEntries : List (String × Value) → List (String × Form)
  | [] => []
  | (key, v) :: entries => (key, form v) :: formEntries entries

end

/-- Items have their forms one by one. -/
theorem formItems_eq_map (items : List Value) : formItems items = items.map form := by
  induction items with
  | nil => rfl
  | cons v items ih => rw [formItems, List.map_cons, ih]

/-- Entries have their forms one by one, under the same keys. -/
theorem formEntries_eq_map (entries : List (String × Value)) :
    formEntries entries = entries.map fun e => (e.1, form e.2) := by
  induction entries with
  | nil => rfl
  | cons e entries ih => rw [formEntries, List.map_cons, ih]

/-- The form of a number is its quantity. -/
theorem form_of_number? (hv : v.number? = some x) : v.form = .number x.extended := by
  cases v with
  | bool _ | int _ | float _ =>
    cases hv
    rfl
  | text _ | list _ | map _ | null => cases hv

/-- No other value has such a form. -/
theorem number?_of_form {q : WithBot (WithTop Rat)} (h : v.form = .number q) :
    ∃ x, v.number? = some x := by
  cases v with
  | bool _ | int _ | float _ => exact ⟨_, rfl⟩
  | text _ | list _ | map _ | null => cases h

/-- Maps are equal key by key and value by value. -/
theorem looseEqEntries_iff {α : Type} {f : Value → α} {entries others : List (String × Value)}
    (h : ∀ e ∈ entries, ∀ d ∈ others, (e.2.looseEq d.2 = true ↔ f e.2 = f d.2)) :
    looseEqEntries entries others = true ↔
      (entries.map fun e => (e.1, f e.2)) = others.map fun d => (d.1, f d.2) := by
  induction entries generalizing others with
  | nil => cases others <;> simp [looseEqEntries]
  | cons e entries ih =>
    cases others with
    | nil => simp [looseEqEntries]
    | cons d others =>
      have hhead := h e (.head _) d (.head _)
      have htail := ih fun e he d hd => h e (.tail _ he) d (.tail _ hd)
      simp [looseEqEntries, hhead, htail]

/-- A number equals just the values with its quantity. -/
theorem looseEq_iff_form_of_number (hv : v.NaNFree) (hw : w.NaNFree) (hx : v.number? = some x) :
    v.looseEq w = true ↔ v.form = w.form := by
  rw [looseEq_of_number? hx, form_of_number? hx]
  cases hy : w.number? with
  | none =>
    refine iff_of_false (by simp) fun h => ?_
    obtain ⟨y, hy'⟩ := number?_of_form h.symm
    rw [hy] at hy'
    cases hy'
  | some y =>
    rw [form_of_number? hy, Form.number.injEq, Option.map_some, Option.getD_some, Binary64.equal,
      Binary64.compare?_eq_cmp (hv.isNaN hx) (hw.isNaN hy), beq_iff_eq, Option.some.injEq,
      cmp_eq_eq_iff]

/-- Values without NaN are equal where their forms are. -/
theorem looseEq_iff_form (hv : v.NaNFree) (hw : w.NaNFree) :
    v.looseEq w = true ↔ v.form = w.form := by
  -- By the nesting of one side; the other has the same or differs from it.
  induction hv generalizing w with
  | bool b => exact looseEq_iff_form_of_number (.bool b) hw rfl
  | int i => exact looseEq_iff_form_of_number (.int i) hw rfl
  | float h => exact looseEq_iff_form_of_number (.float h) hw rfl
  | text s => cases hw <;> simp [looseEq, numbersEqual, number?, form]
  | null => cases hw <;> simp [looseEq, numbersEqual, number?, form]
  | @list items _ ih =>
    cases hw with
    | @list others hothers =>
      rw [looseEq, looseEqItems_iff fun v hv w hw => ih v hv (hothers w hw), form, form,
        Form.list.injEq, formItems_eq_map, formItems_eq_map]
    | _ => simp [looseEq, numbersEqual, number?, form]
  | @map entries _ ih =>
    cases hw with
    | @map others hothers =>
      rw [looseEq, looseEqEntries_iff fun e he d hd => ih e he (hothers d hd), form, form,
        Form.map.injEq, formEntries_eq_map, formEntries_eq_map]
    | _ => simp [looseEq, numbersEqual, number?, form]

/-! ### All laws -/

/-- Without NaN, two values compare if both are numbers or both are
texts. -/
theorem isSome_compare?_iff (hv : v.NaNFree) (hw : w.NaNFree) :
    (v.compare? w).isSome = true ↔
      v.isNumber = true ∧ w.isNumber = true ∨ IsText v ∧ IsText w := by
  have hquantity : ∀ {v : Value}, v.NaNFree → v.isNumber = true → IsQuantity v := fun hv h => by
    obtain ⟨x, hx⟩ := Option.isSome_iff_exists.1 h
    exact ⟨x, hx, hv.isNaN hx⟩
  constructor
  · intro h
    obtain ⟨o, ho⟩ := Option.isSome_iff_exists.1 h
    rcases of_compare? ho with ⟨⟨x, hx, _⟩, ⟨y, hy, _⟩⟩ | htexts
    · exact .inl ⟨by rw [isNumber, hx]; rfl, by rw [isNumber, hy]; rfl⟩
    · exact .inr htexts
  · rintro (⟨hvn, hwn⟩ | ⟨hvt, hwt⟩)
    · rw [comparedBy_quantity (hquantity hv hvn) (hquantity hw hwn), Option.isSome_some]
    · rw [comparedBy_wording hvt hwt, Option.isSome_some]

/-- The operators say what the comparison says. -/
theorem test?_of_compare? (h : v.compare? w = some o) :
    Comparison.lt.test? v w = some (o == .lt) ∧ Comparison.eq.test? v w = some (o == .eq) ∧
      Comparison.gt.test? v w = some (o == .gt) ∧
      Comparison.le.test? v w = some (o == .lt || o == .eq) ∧
      Comparison.ge.test? v w = some (o == .gt || o == .eq) ∧
      Comparison.ne.test? v w = some !(o == .eq) := by
  simp only [Comparison.test?, h, looseEq_of_compare? h, Option.map_some]
  cases o <;> decide

/-- A value without NaN. -/
abbrev Definite := { v : Value // v.NaNFree }

/-- The laws of comparison, for values without NaN. Equality is an
equivalence. Two values are compared if both are numbers or both are
texts, and not otherwise. The comparison of the other with the one is
the reverse. Two comparisons that do not pull apart compare the ends.
Where two values are compared, they are equal exactly when the outcome
says so, each operator says what the outcome says, exactly one of `<`,
`==` and `>` holds, `<=` and `>=` join `==` to one of the others, and
`!=` is the opposite of `==`. -/
theorem comparison_laws :
    (Equivalence fun v w : Definite => v.1.looseEq w.1 = true) ∧
      ∀ v w : Definite,
        ((v.1.compare? w.1).isSome = true ↔
          v.1.isNumber = true ∧ w.1.isNumber = true ∨ IsText v.1 ∧ IsText w.1) ∧
        w.1.compare? v.1 = (v.1.compare? w.1).map Ordering.swap ∧
        (∀ (u : Definite) (o p : Ordering), v.1.compare? w.1 = some o →
          w.1.compare? u.1 = some p → o = p ∨ o = .eq ∨ p = .eq →
          v.1.compare? u.1 = some (o.then p)) ∧
        ∀ o, v.1.compare? w.1 = some o →
          (o = .eq ↔ v.1.looseEq w.1 = true) ∧
          [o == .lt, o == .eq, o == .gt].count true = 1 ∧
          Comparison.lt.test? v.1 w.1 = some (o == .lt) ∧
          Comparison.eq.test? v.1 w.1 = some (o == .eq) ∧
          Comparison.gt.test? v.1 w.1 = some (o == .gt) ∧
          Comparison.le.test? v.1 w.1 = some (o == .lt || o == .eq) ∧
          Comparison.ge.test? v.1 w.1 = some (o == .gt || o == .eq) ∧
          Comparison.ne.test? v.1 w.1 = some !(o == .eq) := by
  refine ⟨?_, fun v w => ⟨isSome_compare?_iff v.2 w.2, compare?_swap _ _,
    fun u o p => compare?_trans, fun o ho => ⟨?_, ?_, test?_of_compare? ho⟩⟩⟩
  · have hforms : (fun v w : Definite => v.1.looseEq w.1 = true) =
        Function.onFun Eq fun v : Definite => v.1.form := by
      funext v w
      exact propext (looseEq_iff_form v.2 w.2)
    rw [hforms]
    exact eq_equivalence.comap _
  · rw [looseEq_of_compare? ho, beq_iff_eq]
  · cases o <;> decide

/-- Truth is one, and less than three halves. A list within a map is
equal where its numbers are. -/
theorem comparison_laws_nested :
    (bool true).compare? (float (Binary64.round (3 / 2))) = some .lt ∧
      (map [("a", list [bool true])]).looseEq (map [("a", list [int 1])]) = true := by
  let truth : Definite := ⟨bool true, .bool true⟩
  let one : Definite := ⟨int 1, .int 1⟩
  let more : Definite :=
    ⟨float (Binary64.round (3 / 2)), .float (Binary64.isNaN_roundMagnitude _ _)⟩
  have hnested : ∀ v : Definite, (map [("a", list [v.1])]).NaNFree := fun v =>
    .map (by simpa using .list (by simpa using v.2))
  have hback : (map [("a", list [int 1])]).looseEq (map [("a", list [bool true])]) = true := by
    decide +kernel
  obtain ⟨hequal, hordered⟩ := comparison_laws
  obtain ⟨_, _, htrans, _⟩ := hordered truth one
  exact ⟨htrans more .eq .lt (by decide +kernel) (by decide +kernel) (.inr (.inl rfl)),
    hequal.symm (x := ⟨_, hnested one⟩) (y := ⟨_, hnested truth⟩) hback⟩

end Value

end CrapsStrategy
