import CrapsStrategy.KeyMap
import Mathlib.Algebra.GroupWithZero.Nat

/-!
# `CrapsStrategy.Proofs.KeyMap`: maps are what their keys look up

`KeyMap.get?` is the view of a map. Every operation has one equation
that says what a key looks up in its result, and `ext_get?` says that
a map has nothing else: two maps that look up the same under every
key are equal. With these a proof about maps never opens the entry
lists.

None of the equations needs the order of the entries. It counts in
`mem_entries_iff`, where each key must stand only once, and in
`perm_insert`, which is for sums over the entries; `total_alter` is the
sum after one value was changed.
-/

set_option autoImplicit false

namespace CrapsStrategy

variable {α β : Type}

namespace Entries

/-- What a key looks up, decided by the first entry or else by the
rest. -/
theorem lookup_cons (k first : String) (a : α) (rest : List (String × α)) :
    ((first, a) :: rest).lookup k = if k = first then some a else rest.lookup k := by
  rw [List.lookup_cons]
  cases hk : k == first with
  | true => rw [if_pos (eq_of_beq hk)]
  | false => rw [if_neg (ne_of_beq_false hk)]

/-- An insertion is seen under its key and nowhere else. The entries
need not be in order for it. -/
theorem lookup_insert (key : String) (a : α) (entries : List (String × α)) (k : String) :
    (insert key a entries).lookup k = if k = key then some a else entries.lookup k := by
  induction entries with
  | nil => rw [insert, lookup_cons]
  | cons head rest ih =>
    obtain ⟨first, b⟩ := head
    unfold insert
    split
    · rw [lookup_cons]
    · split
      · -- The present entry of the key gives way.
        rename_i hsame
        rw [lookup_cons, lookup_cons, ← hsame]
        by_cases hk : k = key <;> simp [hk]
      · rename_i hother
        rw [lookup_cons, ih, lookup_cons]
        by_cases hfirst : k = first
        · have hne : k ≠ key := fun h => hother (h.symm.trans hfirst)
          rw [if_pos hfirst, if_neg hne, if_pos hfirst]
        · rw [if_neg hfirst, if_neg hfirst]

/-- An erased key has no value, and every other keeps its own. -/
theorem lookup_erase (key : String) (entries : List (String × α)) (k : String) :
    (erase key entries).lookup k = if k = key then none else entries.lookup k := by
  unfold erase
  induction entries with
  | nil => simp
  | cons head rest ih =>
    obtain ⟨first, b⟩ := head
    rw [lookup_cons]
    by_cases hfirst : first = key
    · rw [List.filter_cons_of_neg (by simp [hfirst]), ih, hfirst]
      by_cases hk : k = key <;> simp [hk]
    · rw [List.filter_cons_of_pos (by simp [hfirst]), lookup_cons, ih]
      by_cases hk : k = first
      · have hne : k ≠ key := fun h => hfirst (hk.symm.trans h)
        rw [if_pos hk, if_neg hne, if_pos hk]
      · rw [if_neg hk, if_neg hk]

/-- Changing the values changes what is looked up in the same way. -/
theorem lookup_map (f : α → β) (entries : List (String × α)) (k : String) :
    (entries.map fun entry => (entry.1, f entry.2)).lookup k = (entries.lookup k).map f := by
  induction entries with
  | nil => rfl
  | cons head rest ih =>
    obtain ⟨first, a⟩ := head
    rw [List.map_cons, lookup_cons, lookup_cons, ih]
    split <;> rfl

/-- In ascending entries a key stands only once, so an entry is what
its key looks up. -/
theorem Ascending.mem_iff_lookup {entries : List (String × α)} (h : Ascending entries)
    (key : String) (a : α) : (key, a) ∈ entries ↔ entries.lookup key = some a := by
  induction entries with
  | nil => simp
  | cons head rest ih =>
    obtain ⟨first, b⟩ := head
    obtain ⟨hfirst, hrest⟩ := List.pairwise_cons.1 h
    rw [List.mem_cons, lookup_cons]
    by_cases hkey : key = first
    · subst hkey
      have hlater : (key, a) ∉ rest := fun hmem =>
        String.lt_irrefl key (hfirst (key, a) hmem)
      rw [if_pos rfl]
      simp [hlater, eq_comm]
    · rw [if_neg hkey, ← ih hrest]
      simp [hkey]

/-- Ascending entries are known by which entries they are. -/
theorem Ascending.eq_of_mem_iff {entries others : List (String × α)} (h : Ascending entries)
    (hothers : Ascending others) (hmem : ∀ entry, entry ∈ entries ↔ entry ∈ others) :
    entries = others := by
  have hnodup : ∀ {entries : List (String × α)}, Ascending entries → entries.Nodup := by
    intro entries h
    refine List.Pairwise.imp (fun {x y} hlt heq => ?_) h
    subst heq
    exact String.lt_irrefl x.1 hlt
  refine List.Perm.eq_of_pairwise (fun x y _ _ hxy hyx => ?_) h hothers
    ((List.perm_ext_iff_of_nodup (hnodup h) (hnodup hothers)).2 hmem)
  exact absurd (String.lt_trans hxy hyx) (String.lt_irrefl _)

/-- The first key of ascending entries is not among the others. -/
theorem Ascending.lookup_tail {first : String} {a : α} {rest : List (String × α)}
    (h : Ascending ((first, a) :: rest)) : rest.lookup first = none := by
  obtain ⟨hfirst, hrest⟩ := List.pairwise_cons.1 h
  rw [Option.eq_none_iff_forall_ne_some]
  intro b hlookup
  have hmem := (Ascending.mem_iff_lookup hrest first b).2 hlookup
  exact String.lt_irrefl first (hfirst _ hmem)

/-- It does not matter from which end ascending entries are searched. -/
theorem Ascending.lookup_reverse {entries : List (String × α)} (h : Ascending entries)
    (key : String) : entries.reverse.lookup key = entries.lookup key := by
  induction entries with
  | nil => rfl
  | cons head rest ih =>
    obtain ⟨first, a⟩ := head
    have htail := h.lookup_tail
    rw [List.reverse_cons, List.lookup_append, ih (List.pairwise_cons.1 h).2, lookup_cons,
      lookup_cons]
    by_cases hkey : key = first
    · rw [hkey, htail]
      simp
    · simp [hkey]

/-- Entries that are put in order are some of the pairs. -/
theorem mem_of_mem_ofList {pairs : List (String × α)} {entry : String × α}
    (h : entry ∈ ofList pairs) : entry ∈ pairs := by
  have step : ∀ entries : List (String × α),
      ∀ entry ∈ pairs.foldl (fun entries pair => insert pair.1 pair.2 entries) entries,
        entry ∈ entries ∨ entry ∈ pairs := by
    clear h
    induction pairs with
    | nil => exact fun _ _ h => .inl h
    | cons pair pairs ih =>
      intro entries entry h
      rcases ih _ entry h with h | h
      · rcases mem_insert h with rfl | h
        · exact .inr List.mem_cons_self
        · exact .inl h
      · exact .inr (List.mem_cons_of_mem _ h)
  rcases step [] entry h with h | h
  · cases h
  · exact h

/-- Setting a key is erasing it and adding it again. -/
theorem perm_insert (key : String) (a : α) {entries : List (String × α)} (h : Ascending entries) :
    (insert key a entries).Perm ((key, a) :: erase key entries) := by
  have hself : ∀ entries : List (String × α), (∀ entry ∈ entries, entry.1 ≠ key) →
      erase key entries = entries := by
    intro entries hne
    exact List.filter_eq_self.2 fun entry hentry => decide_eq_true (hne entry hentry)
  induction entries with
  | nil => exact List.Perm.refl _
  | cons head rest ih =>
    obtain ⟨k, b⟩ := head
    obtain ⟨hk, hrest⟩ := List.pairwise_cons.1 h
    unfold insert
    split
    · -- All keys come after the new one.
      rename_i hlt
      rw [hself]
      intro entry hentry heq
      rcases List.mem_cons.1 hentry with rfl | hlater
      · exact String.lt_irrefl key (heq ▸ hlt)
      · exact String.lt_irrefl key (String.lt_trans hlt (heq ▸ hk entry hlater))
    · split
      · rename_i hsame
        have hothers : erase key ((k, b) :: rest) = rest := by
          rw [erase, List.filter_cons_of_neg (by simp [hsame])]
          exact hself rest fun entry hentry heq =>
            String.lt_irrefl k (by simpa [heq, hsame] using hk entry hentry)
        rw [hothers]
      · rename_i hother
        have hkeeps : erase key ((k, b) :: rest) = (k, b) :: erase key rest :=
          List.filter_cons_of_pos (by simpa using fun hsame => hother hsame.symm)
        rw [hkeeps]
        exact ((ih hrest).cons _).trans (List.Perm.swap _ _ _)

end Entries

namespace KeyMap

/-- Nothing is in the empty map. -/
@[simp]
theorem get?_empty (key : String) : (empty : KeyMap α).get? key = none := rfl

/-- An inserted value is found under its key and changes no other. -/
@[simp]
theorem get?_insert (m : KeyMap α) (key : String) (a : α) (k : String) :
    (m.insert key a).get? k = if k = key then some a else m.get? k :=
  Entries.lookup_insert key a m.entries k

/-- An erased key has no value, and every other keeps its own. -/
@[simp]
theorem get?_erase (m : KeyMap α) (key : String) (k : String) :
    (m.erase key).get? k = if k = key then none else m.get? k :=
  Entries.lookup_erase key m.entries k

/-- An entry of a map is what its key looks up. -/
theorem mem_entries_iff (m : KeyMap α) (key : String) (a : α) :
    (key, a) ∈ m.entries ↔ m.get? key = some a :=
  m.ascending.mem_iff_lookup key a

/-- A map is known by what each key looks up. -/
theorem ext_get? {a b : KeyMap α} (h : ∀ key, a.get? key = b.get? key) : a = b := by
  refine ext_entries (a.ascending.eq_of_mem_iff b.ascending ?_)
  rintro ⟨key, v⟩
  rw [mem_entries_iff, mem_entries_iff, h]

/-- What a key looks up after pairs were set in order: the last pair
under it, or else what was there. -/
theorem get?_foldl_insert (m : KeyMap α) (pairs : List (String × α)) (key : String) :
    (pairs.foldl (fun m pair => m.insert pair.1 pair.2) m).get? key =
      (pairs.reverse.lookup key).or (m.get? key) := by
  induction pairs generalizing m with
  | nil => rfl
  | cons pair rest ih =>
    obtain ⟨first, a⟩ := pair
    rw [List.foldl_cons, ih, get?_insert, List.reverse_cons, List.lookup_append,
      Entries.lookup_cons, Option.or_assoc]
    by_cases hkey : key = first <;> simp [hkey]

/-- In a map with another on top, a key has its value on top if there is
one. -/
@[simp]
theorem get?_override (m other : KeyMap α) (key : String) :
    (m.override other).get? key = (other.get? key).or (m.get? key) := by
  rw [override, get?_foldl_insert, other.ascending.lookup_reverse]
  rfl

/-- The last pair under a key counts. -/
theorem get?_ofList (pairs : List (String × α)) (key : String) :
    (ofList pairs).get? key = pairs.reverse.lookup key := by
  have hentries : ∀ m : KeyMap α,
      (pairs.foldl (fun m pair => m.insert pair.1 pair.2) m).entries =
        pairs.foldl (fun entries pair => Entries.insert pair.1 pair.2 entries) m.entries := by
    intro m
    induction pairs generalizing m with
    | nil => rfl
    | cons pair rest ih => exact ih _
  have hfold : ofList pairs = pairs.foldl (fun m pair => m.insert pair.1 pair.2) empty :=
    ext_entries (hentries empty).symm
  rw [hfold, get?_foldl_insert, get?_empty, Option.or_none]

/-- A map is that of its entries. -/
theorem ofList_entries (m : KeyMap α) : ofList m.entries = m := by
  apply ext_get?
  intro key
  rw [get?_ofList, m.ascending.lookup_reverse]
  rfl

/-- A map of some pairs is not empty. -/
theorem entries_ofList_ne_nil {pairs : List (String × α)} (h : pairs ≠ []) :
    (ofList pairs).entries ≠ [] := by
  intro hnil
  cases hrev : pairs.reverse with
  | nil => exact h (List.reverse_eq_nil_iff.1 hrev)
  | cons last rest =>
    have hlast := get?_ofList pairs last.1
    rw [get?, hnil, hrev, Entries.lookup_cons, if_pos rfl] at hlast
    cases hlast

/-- The entries after an insertion are the new one and those under other
keys. This is how sums over a map are split. -/
theorem perm_insert (m : KeyMap α) (key : String) (a : α) :
    (m.insert key a).entries.Perm ((key, a) :: (m.erase key).entries) :=
  Entries.perm_insert key a m.ascending

/-- A key set to what it has already. -/
theorem insert_eq_self {m : KeyMap α} {key : String} {a : α} (h : m.get? key = some a) :
    m.insert key a = m := by
  apply ext_get?
  intro k
  rw [get?_insert]
  split
  · rename_i hk
    rw [hk, h]
  · rfl

/-- Erasing a key that has no value changes nothing. -/
theorem erase_eq_self {m : KeyMap α} {key : String} (h : m.get? key = none) : m.erase key = m := by
  apply ext_get?
  intro k
  rw [get?_erase]
  split
  · rename_i hk
    rw [hk, h]
  · rfl

/-- A filter keeps a value where it holds of key and value. -/
@[simp]
theorem get?_filter (m : KeyMap α) (p : String → α → Bool) (key : String) :
    (m.filter p).get? key = (m.get? key).filter (p key) := by
  apply Option.ext
  intro a
  rw [← mem_entries_iff, Option.filter_eq_some_iff, ← mem_entries_iff]
  exact List.mem_filter

/-- Changing the values of a map changes what is found in the same way. -/
@[simp]
theorem get?_mapValues (m : KeyMap α) (f : α → β) (key : String) :
    (m.mapValues f).get? key = (m.get? key).map f :=
  Entries.lookup_map f m.entries key

/-- A map contains the keys that have a value. -/
theorem contains_iff (m : KeyMap α) (key : String) :
    m.contains key = true ↔ ∃ a, m.get? key = some a :=
  Option.isSome_iff_exists

/-! ### Keys -/

/-- Ascending keys are all different. -/
theorem nodup_keys (m : KeyMap α) : m.keys.Nodup := by
  refine List.pairwise_map.2 (List.Pairwise.imp (fun {x y} hlt heq => ?_) m.ascending)
  exact String.lt_irrefl x.1 (heq ▸ hlt)

/-- The keys of a map are those that have a value. -/
theorem mem_keys_iff (m : KeyMap α) (key : String) : key ∈ m.keys ↔ ∃ a, m.get? key = some a := by
  simp [keys, mem_entries_iff]

/-! ### Sums over the values -/

/-- The sum of the weights of all values. -/
def total (weight : α → Nat) (m : KeyMap α) : Nat :=
  (m.entries.map fun entry => weight entry.2).sum

/-- The total over no entries is zero. -/
@[simp]
theorem total_empty (weight : α → Nat) : (empty : KeyMap α).total weight = 0 := rfl

/-- A total after an insertion has the weight of the new value and of
what was there under other keys. -/
theorem total_insert (weight : α → Nat) (m : KeyMap α) (key : String) (a : α) :
    (m.insert key a).total weight = weight a + (m.erase key).total weight := by
  have hperm := (m.perm_insert key a).map fun entry => weight entry.2
  rw [total, hperm.sum_nat, List.map_cons, List.sum_cons, total]

/-- The weight of one value, and that of the map without it. -/
theorem total_eq_add_erase (weight : α → Nat) (m : KeyMap α) (key : String) :
    m.total weight = (m.get? key).elim 0 weight + (m.erase key).total weight := by
  cases hget : m.get? key with
  | some a =>
    have hinsert := total_insert weight m key a
    rw [insert_eq_self hget] at hinsert
    exact hinsert
  | none =>
    rw [erase_eq_self hget]
    simp

/-- A value that comes to weigh more adds as much to the sum. -/
theorem total_alter (weight : α → Nat) (m : KeyMap α) (key : String) (f : Option α → α) {n : Nat}
    (h : weight (f (m.get? key)) = (m.get? key).elim 0 weight + n) :
    (m.alter key f).total weight = m.total weight + n := by
  rw [alter, total_insert, total_eq_add_erase weight m key]
  omega

end KeyMap

/-- Of several pairs with one key the last one counts. -/
theorem Entries.lookup_ofList (pairs : List (String × α)) (key : String) :
    (ofList pairs).lookup key = pairs.reverse.lookup key :=
  KeyMap.get?_ofList pairs key

/-- A set of texts has the texts that it was made of. -/
theorem KeySet.mem_keys_ofList (keys : List String) (key : String) :
    key ∈ (KeySet.ofList keys).keys ↔ key ∈ keys := by
  rw [KeyMap.mem_keys_iff, KeySet.ofList, KeyMap.get?_ofList]
  simp [← Option.isSome_iff_exists, List.lookup_isSome_iff]

end CrapsStrategy
