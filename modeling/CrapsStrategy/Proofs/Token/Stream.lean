import CrapsStrategy.Token.Stream

/-!
# `CrapsStrategy.Proofs.Token.Stream`: the steps that parsers share

A step that takes a token says what the next token was, and the other
way round: the next token decides whether a step takes it
(`accept?_eq_none`, `after?_eq_none`).

`Yields` is the result of a parser without the bound on its rest, so
that results can be stated before they are computed. It goes through a
bind as the parser does.
-/

set_option autoImplicit false

namespace CrapsStrategy

namespace TokenStream

variable {ts rest : List Located} {hrest : rest.length < ts.length}

/-- A token that is taken is the next one. -/
theorem of_accept? {β : Type} {f : Token → Option β} {b : β}
    (h : accept? f ts = some (b, ⟨rest, hrest⟩)) : ∃ t, ts = t :: rest ∧ f t.token = some b := by
  cases ts with
  | nil => cases h
  | cons t ts =>
    obtain ⟨found, hfound, heq⟩ := Option.map_eq_some_iff.1 h
    cases heq
    exact ⟨t, rfl, hfound⟩

/-- A given token that is taken is the next one. -/
theorem of_after? {token : Token} (h : after? token ts = some ⟨rest, hrest⟩) :
    ∃ t, ts = t :: rest ∧ t.token = token := by
  obtain ⟨⟨_, taken⟩, haccept, heq⟩ := Option.map_eq_some_iff.1 h
  cases heq
  obtain ⟨t, hts, ht⟩ := of_accept? haccept
  refine ⟨t, hts, ?_⟩
  split at ht
  · assumption
  · cases ht

/-- A symbol that is expected and found is the next token. -/
theorem of_expect {wanted : Symbol} (h : expect wanted ts = .ok ⟨rest, hrest⟩) :
    ∃ t, ts = t :: rest ∧ t.token = .symbol wanted := by
  unfold expect at h
  split at h
  · rename_i hafter
    cases h
    exact of_after? hafter
  · cases h

/-! ### Steps forward -/

variable {t : Located}

/-- A next token of the kind is taken. -/
theorem accept?_cons {β : Type} {f : Token → Option β} {b : β} (h : f t.token = some b) :
    accept? f (t :: ts) = some (b, ⟨ts, Nat.lt_succ_self _⟩) := by
  rw [accept?, h]
  rfl

/-- At the end of the input there is nothing to take. -/
theorem accept?_eq_none {β : Type} {f : Token → Option β} (hend : f .endOfInput = none) :
    accept? f ts = none ↔ f (next ts).token = none := by
  cases ts with
  | nil => exact ⟨fun _ => hend, fun _ => rfl⟩
  | cons t ts => exact Option.map_eq_none_iff

/-- The given token is taken if it is next. -/
theorem after?_cons {token : Token} (h : t.token = token) :
    after? token (t :: ts) = some ⟨ts, Nat.lt_succ_self _⟩ := by
  rw [after?, accept?_cons (b := ()) (if_pos h)]
  rfl

/-- A token is not taken exactly if another one is next. At the end of
the input there is none to take. -/
theorem after?_eq_none {token : Token} (hend : token ≠ .endOfInput) :
    after? token ts = none ↔ (next ts).token ≠ token := by
  rw [after?, Option.map_eq_none_iff, accept?_eq_none (if_neg hend.symm)]
  simp

/-- A symbol that is expected is taken if it is next. -/
theorem expect_cons {wanted : Symbol} (h : t.token = .symbol wanted) :
    expect wanted (t :: ts) = .ok ⟨ts, Nat.lt_succ_self _⟩ := by
  rw [expect, after?_cons h]

/-- What is before the end of the input is found by looking for it. -/
theorem takeWhile_eq_of_end {xs us : List Located} (hxs : ∀ t ∈ xs, t.token ≠ .endOfInput)
    (hus : (next us).token = .endOfInput) :
    (xs ++ us).takeWhile (fun t => t.token ≠ .endOfInput) = xs := by
  rw [List.takeWhile_append_of_pos fun t ht => decide_eq_true (hxs t ht)]
  cases us with
  | nil => exact List.append_nil xs
  | cons u us =>
    have hu : u.token = .endOfInput := hus
    rw [List.takeWhile_cons_of_neg (by simp [hu])]
    exact List.append_nil xs

end TokenStream

/-! ### Results -/

section

variable {α β : Type} {bound larger : Nat}

/-- A parser succeeds with a node, and `us` are the tokens after it. -/
def Yields (x : Except Fault (Parsed α bound)) (node : α) (us : List Located) : Prop :=
  ∃ fewer, x = .ok ⟨node, us, fewer⟩

/-- A parser goes on from where another has ended. -/
theorem Yields.bind {x : Except Fault (Parsed α bound)}
    {f : Parsed α bound → Except Fault (Parsed β larger)} {node : α} {node' : β}
    {us vs : List Located} (hx : Yields x node us)
    (hf : ∀ fewer, Yields (f ⟨node, us, fewer⟩) node' vs) : Yields (x >>= f) node' vs := by
  obtain ⟨fewer, hx⟩ := hx
  rw [hx]
  exact hf fewer

/-- A parser yields one node at most. -/
theorem Yields.unique {x : Except Fault (Parsed α bound)} {node other : α}
    {us vs : List Located} (h : Yields x node us) (hother : Yields x other vs) :
    node = other ∧ us = vs := by
  obtain ⟨_, h⟩ := h
  obtain ⟨_, hother⟩ := hother
  rw [h] at hother
  cases hother
  exact ⟨rfl, rfl⟩

end

end CrapsStrategy
