/-!
# `CrapsStrategy.KeyMap`: maps in the order of their keys

A map from texts is the list of its entries, ascending by key, each
key once. The order is that of code points. Two maps with the same
entries are equal, so a map is known by what each key looks up.

The operations on raw entry lists (`Entries`) serve the values that
nest maps inside themselves; `KeyMap` carries the order as a proof.
-/

set_option autoImplicit false

namespace CrapsStrategy

namespace Entries

variable {α β : Type}

/-- Entries with `key` set to `a`, the order kept. -/
def insert (key : String) (a : α) : List (String × α) → List (String × α)
  | [] => [(key, a)]
  | (k, b) :: rest =>
    if key < k then (key, a) :: (k, b) :: rest
    else if key = k then (key, a) :: rest
    else (k, b) :: insert key a rest

/-- Entries without `key`. -/
def erase (key : String) (entries : List (String × α)) : List (String × α) :=
  entries.filter fun entry => entry.1 ≠ key

/-- The entries of a list of pairs; of two with one key the later
counts. -/
def ofList (pairs : List (String × α)) : List (String × α) :=
  pairs.foldl (fun entries pair => insert pair.1 pair.2 entries) []

/-- Ascending keys. -/
def Ascending (entries : List (String × α)) : Prop :=
  entries.Pairwise fun a b => a.1 < b.1

/-- An entry that is there after an insertion is the new one or an old
one. -/
theorem mem_insert {key : String} {a : α} {entries : List (String × α)} {e : String × α}
    (h : e ∈ insert key a entries) : e = (key, a) ∨ e ∈ entries := by
  induction entries with
  | nil => simpa [insert] using h
  | cons head rest ih =>
    obtain ⟨k, b⟩ := head
    unfold insert at h
    split at h
    · simpa using h
    · split at h
      · rcases List.mem_cons.1 h with h | h
        · exact .inl h
        · exact .inr (List.mem_cons_of_mem _ h)
      · rcases List.mem_cons.1 h with h | h
        · exact .inr (h ▸ List.mem_cons_self)
        · exact (ih h).imp_right (List.mem_cons_of_mem _)

/-- The new entry goes where its key belongs. -/
theorem Ascending.insert {entries : List (String × α)} (h : Ascending entries)
    (key : String) (a : α) : Ascending (insert key a entries) := by
  induction entries with
  | nil => exact List.pairwise_singleton _ _
  | cons head rest ih =>
    obtain ⟨k, b⟩ := head
    obtain ⟨hk, hrest⟩ := List.pairwise_cons.1 h
    unfold Entries.insert
    split
    · rename_i hlt
      refine List.pairwise_cons.2 ⟨fun e he => ?_, h⟩
      rcases List.mem_cons.1 he with he | he
      · exact he ▸ hlt
      · exact String.lt_trans hlt (hk e he)
    · split
      · rename_i heq
        exact List.pairwise_cons.2 ⟨heq ▸ hk, hrest⟩
      · rename_i hlt hne
        refine List.pairwise_cons.2 ⟨fun e he => ?_, ih hrest⟩
        have hgt : k < key := by
          refine Classical.byContradiction fun hn => hne ?_
          exact String.le_antisymm (String.not_lt.1 hn) (String.not_lt.1 hlt)
        rcases mem_insert he with he | he
        · exact he ▸ hgt
        · exact hk e he

/-- Entries that are picked out stay in order. -/
theorem Ascending.filter {entries : List (String × α)} (h : Ascending entries)
    (p : String × α → Bool) : Ascending (entries.filter p) :=
  List.Pairwise.filter p h

/-- Pairs in any order make ascending entries. -/
theorem Ascending.ofList (pairs : List (String × α)) : Ascending (ofList pairs) := by
  have step : ∀ (entries : List (String × α)), Ascending entries →
      Ascending (pairs.foldl (fun entries pair => Entries.insert pair.1 pair.2 entries)
        entries) := by
    induction pairs with
    | nil => exact fun _ h => h
    | cons pair rest ih => exact fun _ h => ih _ (h.insert _ _)
  exact step [] List.Pairwise.nil

end Entries

/-- A map from texts, its entries ascending by key. -/
structure KeyMap (α : Type) where
  entries : List (String × α)
  ascending : Entries.Ascending entries

namespace KeyMap

variable {α β : Type}

instance [DecidableEq α] : DecidableEq (KeyMap α) := fun a b =>
  decidable_of_iff (a.entries = b.entries)
    ⟨fun h => by cases a; cases b; cases h; rfl, fun h => h ▸ rfl⟩

/-- A map is its entries. -/
theorem ext_entries {a b : KeyMap α} (h : a.entries = b.entries) : a = b := by
  cases a; cases b; cases h; rfl

def empty : KeyMap α :=
  ⟨[], List.Pairwise.nil⟩

instance : Inhabited (KeyMap α) := ⟨empty⟩

/-- The map of a list of pairs; of two with one key the later
counts. -/
def ofList (pairs : List (String × α)) : KeyMap α :=
  ⟨Entries.ofList pairs, .ofList pairs⟩

def get? (m : KeyMap α) (key : String) : Option α :=
  m.entries.lookup key

def contains (m : KeyMap α) (key : String) : Bool :=
  (m.get? key).isSome

def insert (m : KeyMap α) (key : String) (a : α) : KeyMap α :=
  ⟨Entries.insert key a m.entries, m.ascending.insert key a⟩

def erase (m : KeyMap α) (key : String) : KeyMap α :=
  ⟨Entries.erase key m.entries, m.ascending.filter _⟩

/-- The map of the entries that pass a test. -/
def filter (m : KeyMap α) (p : String → α → Bool) : KeyMap α :=
  ⟨m.entries.filter fun entry => p entry.1 entry.2, m.ascending.filter _⟩

def keys (m : KeyMap α) : List String :=
  m.entries.map Prod.fst

/-- A map over another, whose entries win. -/
def override (m other : KeyMap α) : KeyMap α :=
  other.entries.foldl (fun m entry => m.insert entry.1 entry.2) m

/-- The map with `f` applied to every value. -/
def mapValues (m : KeyMap α) (f : α → β) : KeyMap β :=
  ⟨m.entries.map fun entry => (entry.1, f entry.2), List.pairwise_map.2 (by exact m.ascending)⟩

/-- The map with the value of `key` changed by `f`, which gets the
present value if there is one. -/
def alter (m : KeyMap α) (key : String) (f : Option α → α) : KeyMap α :=
  m.insert key (f (m.get? key))

end KeyMap

/-- A set of texts in order. -/
abbrev KeySet := KeyMap Unit

/-- The set of some texts. -/
def KeySet.ofList (keys : List String) : KeySet :=
  KeyMap.ofList (keys.map fun key => (key, ()))

end CrapsStrategy
