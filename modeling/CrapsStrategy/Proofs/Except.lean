/-!
# `CrapsStrategy.Proofs.Except`: computations that may fail

A computation in `Except` is taken apart by what it takes to succeed:
both parts of a bind, both of two checks in a row, and the condition
of a branch whose other arm is a fault.

`FaultsIn` says where a computation may end when it does not succeed.
It goes through a bind part by part.
-/

set_option autoImplicit false

namespace CrapsStrategy

variable {ε α β : Type}

/-- A computation succeeds exactly when both of its parts do. -/
theorem bind_eq_ok {x : Except ε α} {f : α → Except ε β} {b : β} :
    (x >>= f) = .ok b ↔ ∃ a, x = .ok a ∧ f a = .ok b := by
  cases x with
  | error fault =>
    constructor
    · intro h
      cases h
    · rintro ⟨a, h, _⟩
      cases h
  | ok a =>
    constructor
    · intro h
      exact ⟨a, rfl, h⟩
    · rintro ⟨_, h, hf⟩
      cases h
      exact hf

/-- Two checks in a row pass exactly when each does. -/
theorem seq_eq_ok {x y : Except ε Unit} :
    (x >>= fun _ => y) = .ok () ↔ x = .ok () ∧ y = .ok () := by
  rw [bind_eq_ok]
  exact ⟨fun ⟨_, hx, hy⟩ => ⟨hx, hy⟩, fun ⟨hx, hy⟩ => ⟨(), hx, hy⟩⟩

/-- A branch whose other arm is a fault succeeds exactly when its
condition holds and it does. -/
theorem ite_error_eq_ok {c : Prop} [Decidable c] {x : Except ε α} {fault : ε} {a : α} :
    (if c then x else .error fault) = .ok a ↔ c ∧ x = .ok a := by
  by_cases hc : c <;> simp [hc]

/-- What has been read off a result tells that there is one. -/
theorem exists_ok_of_toOption {x : Except ε α} {read : α → β} {b : β}
    (h : x.toOption.map read = some b) : ∃ a, x = .ok a ∧ read a = b := by
  cases x with
  | error fault => cases h
  | ok a => exact ⟨a, rfl, Option.some.inj h⟩

/-- What a mapped list has in it comes from an element that
succeeded. -/
theorem exists_of_mem_mapM {f : α → Except ε β} {xs : List α} {ys : List β}
    (h : xs.mapM f = .ok ys) {y : β} (hy : y ∈ ys) : ∃ x ∈ xs, f x = .ok y := by
  induction xs generalizing ys with
  | nil =>
    cases h
    cases hy
  | cons x xs ih =>
    rw [List.mapM_cons] at h
    obtain ⟨first, hfirst, h⟩ := bind_eq_ok.1 h
    obtain ⟨rest, hrest, h⟩ := bind_eq_ok.1 h
    cases h
    rcases List.mem_cons.1 hy with rfl | hlater
    · exact ⟨x, List.mem_cons_self, hfirst⟩
    · obtain ⟨x', hx', hfx⟩ := ih hrest hlater
      exact ⟨x', List.mem_cons_of_mem _ hx', hfx⟩

/-- A list is mapped when every element of it is. -/
theorem exists_mapM_eq_ok {f : α → Except ε β} {xs : List α} :
    (∃ ys, xs.mapM f = .ok ys) ↔ ∀ x ∈ xs, ∃ y, f x = .ok y := by
  induction xs with
  | nil => exact iff_of_true ⟨[], rfl⟩ (List.forall_mem_nil _)
  | cons x xs ih =>
    rw [List.forall_mem_cons, ← ih, List.mapM_cons]
    constructor
    · rintro ⟨ys, h⟩
      obtain ⟨first, hfirst, h⟩ := bind_eq_ok.1 h
      obtain ⟨rest, hrest, _⟩ := bind_eq_ok.1 h
      exact ⟨⟨first, hfirst⟩, rest, hrest⟩
    · rintro ⟨⟨first, hfirst⟩, rest, hrest⟩
      exact ⟨first :: rest, bind_eq_ok.2 ⟨first, hfirst, bind_eq_ok.2 ⟨rest, hrest, rfl⟩⟩⟩

/-- The fault of a mapped list is that of one of its elements. -/
theorem exists_of_mapM_eq_error {f : α → Except ε β} {xs : List α} {fault : ε}
    (h : xs.mapM f = .error fault) : ∃ x ∈ xs, f x = .error fault := by
  induction xs with
  | nil => cases h
  | cons x xs ih =>
    rw [List.mapM_cons] at h
    cases hx : f x with
    | error first =>
      rw [hx] at h
      cases h
      exact ⟨x, List.mem_cons_self, hx⟩
    | ok first =>
      rw [hx] at h
      cases hxs : xs.mapM f with
      | error rest =>
        -- The list is mapped one element further, with the same fault.
        have hsame : xs.mapM f = .error fault := by
          rw [hxs] at h ⊢
          cases h
          rfl
        obtain ⟨x', hx', hfx⟩ := ih hsame
        exact ⟨x', List.mem_cons_of_mem _ hx', hfx⟩
      | ok rest =>
        rw [hxs] at h
        cases h

/-! ### Faults -/

/-- Every fault that a computation may end in is of a kind. -/
def FaultsIn (kind : ε → Prop) (x : Except ε α) : Prop :=
  ∀ fault, x = .error fault → kind fault

namespace FaultsIn

variable {kind : ε → Prop}

/-- A success has no fault at all. -/
@[simp]
theorem ok (a : α) : FaultsIn kind (.ok a : Except ε α) := by
  intro fault h
  cases h

/-- A value that is returned has no fault either. -/
@[simp]
theorem pure (a : α) : FaultsIn kind (Pure.pure a : Except ε α) :=
  ok a

/-- A fault is of a kind if it is. -/
@[simp]
theorem error_iff {fault : ε} : FaultsIn kind (.error fault : Except ε α) ↔ kind fault := by
  constructor
  · intro h
    exact h fault rfl
  · intro hkind other h
    cases h
    exact hkind

/-- Two computations in a row fault in a kind if the first does, and the
second does on every result of the first. -/
theorem bind {x : Except ε α} {f : α → Except ε β} (hx : FaultsIn kind x)
    (hf : ∀ a, x = .ok a → FaultsIn kind (f a)) : FaultsIn kind (x >>= f) := by
  cases x with
  | error fault => exact error_iff.2 (hx fault rfl)
  | ok a => exact hf a rfl

/-- Of two branches only one is taken, so it is enough that both fault
in the kind. -/
theorem ite {c : Prop} [Decidable c] {x y : Except ε α} (hx : FaultsIn kind x)
    (hy : FaultsIn kind y) : FaultsIn kind (if c then x else y) := by
  split
  · exact hx
  · exact hy

/-- Faults of a kind are faults of every wider kind. -/
theorem mono {wider : ε → Prop} {x : Except ε α} (h : FaultsIn kind x)
    (hwider : ∀ fault, kind fault → wider fault) : FaultsIn wider x :=
  fun fault hx => hwider fault (h fault hx)

end FaultsIn

end CrapsStrategy
