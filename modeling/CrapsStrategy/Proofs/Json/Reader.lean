import CrapsStrategy.Json.Reader
import CrapsStrategy.Proofs.Json.Numbers
import CrapsStrategy.Proofs.Json.Ordered

/-!
# `CrapsStrategy.Proofs.Json.Reader`: documents that are read from texts

`Written` is a document that is put together as texts are read, and
`written_of_read?` says that there are no others. So what holds of a
text, of a number that is written and of what they make up holds of
every document that is read: its fields are in order
(`isOrdered_of_read?`) and its numbers fit (`numbersFit_of_read?`).

A number is scaled by powers of ten that doubles can hold. It grows at
most once, and is refused when that makes it infinite, so what is left is
finite (`isFinite_of_scale?`).
-/

set_option autoImplicit false

namespace CrapsStrategy

namespace Json

/-- A document that is put together as texts are read. -/
inductive Written : Json → Prop
  | null : Written .null
  | bool (b : Bool) : Written (.bool b)
  | text (s : String) : Written (.text s)
  | number (t : NumberText) (j : Json) (h : t.value? = some j) : Written j
  | array (items : List Json) (h : ∀ item ∈ items, Written item) : Written (.array items)
  | object (fields : List (String × Json)) (h : ∀ field ∈ fields, Written field.2) :
      Written (.ofFields fields)

/-! ### Reading -/

/-- A number that is read is written. -/
theorem written_number {negative : Bool} {cs : List Char} {s : Scanned Json cs.length}
    (h : number negative cs = some s) : Written s.value := by
  unfold number at h
  simp only [Option.bind_eq_bind, Option.bind_eq_some_iff] at h
  obtain ⟨_, _, _, _, _, _, j, hj, hs⟩ := h
  cases hs
  exact .number _ j hj

/-- A word that is read is written if the document that it stands for
is. -/
theorem written_word {expected : List Char} {j : Json} {cs : List Char}
    {s : Scanned Json cs.length} (hj : Written j) (h : word expected j cs = some s) :
    Written s.value := by
  unfold word at h
  split at h
  · cases h
    exact hj
  · cases h

mutual

/-- Every document that is read is written. -/
theorem written_value {depth : Nat} {cs : List Char} {s : Scanned Json cs.length}
    (h : value depth cs = some s) : Written s.value := by
  unfold value at h
  split at h
  · cases h
  · rename_i c rest hshort hskip
    have shorter : rest.length < cs.length := hshort
    dsimp only at h
    -- By its first character it is a text, an array, an object, a
    -- negative number, one of the three words, or else a number.
    split at h
    · obtain ⟨tail, _, htail⟩ := Option.bind_eq_some_iff.1 h
      cases htail
      exact .text _
    split at h
    · split at h
      · cases h
      split at h
      · cases h
        exact .array [] nofun
      · obtain ⟨tail, hitems, htail⟩ := Option.bind_eq_some_iff.1 h
        cases htail
        exact .array _ (written_items hitems)
    split at h
    · split at h
      · cases h
      split at h
      · cases h
        exact .object [] nofun
      · obtain ⟨tail, hmembers, htail⟩ := Option.bind_eq_some_iff.1 h
        cases htail
        exact .object _ (written_members hmembers)
    split at h
    · obtain ⟨tail, hnumber, htail⟩ := Option.bind_eq_some_iff.1 h
      cases htail
      have hread := written_number hnumber
      exact hread
    split at h
    · obtain ⟨tail, hword, htail⟩ := Option.bind_eq_some_iff.1 h
      cases htail
      have hread := written_word (.bool true) hword
      exact hread
    split at h
    · obtain ⟨tail, hword, htail⟩ := Option.bind_eq_some_iff.1 h
      cases htail
      have hread := written_word (.bool false) hword
      exact hread
    split at h
    · obtain ⟨tail, hword, htail⟩ := Option.bind_eq_some_iff.1 h
      cases htail
      have hread := written_word .null hword
      exact hread
    · obtain ⟨tail, hnumber, htail⟩ := Option.bind_eq_some_iff.1 h
      cases htail
      have hread := written_number hnumber
      exact hread
termination_by (cs.length, 0)

/-- The items of an array that is read are written. -/
theorem written_items {depth : Nat} {cs : List Char} {s : Scanned (List Json) cs.length}
    (h : items depth cs = some s) : ∀ item ∈ s.value, Written item := by
  unfold items at h
  obtain ⟨item, hitem, h⟩ := Option.bind_eq_some_iff.1 h
  have hfirst := written_value hitem
  split at h
  · cases h
  · rename_i c rest hshort hskip
    have shorter : rest.length < cs.length := Nat.lt_of_lt_of_le hshort item.short
    dsimp only at h
    split at h
    · cases h
      simpa using hfirst
    split at h
    · obtain ⟨tail, hitems, htail⟩ := Option.bind_eq_some_iff.1 h
      cases htail
      exact List.forall_mem_cons.2 ⟨hfirst, written_items hitems⟩
    · cases h
termination_by (cs.length, 1)

/-- The fields of an object that is read are written, still in the order
of the text. -/
theorem written_members {depth : Nat} {cs : List Char}
    {s : Scanned (List (String × Json)) cs.length} (h : members depth cs = some s) :
    ∀ field ∈ s.value, Written field.2 := by
  unfold members at h
  split at h
  · cases h
  · rename_i c rest hshort hskip
    dsimp only at h
    split at h
    · cases h
    obtain ⟨name, hname, h⟩ := Option.bind_eq_some_iff.1 h
    obtain ⟨⟨afterColon, hafter⟩, hcolon, h⟩ := Option.bind_eq_some_iff.1 h
    obtain ⟨field, hfield, h⟩ := Option.bind_eq_some_iff.1 h
    have shorter : afterColon.length < cs.length :=
      Nat.lt_of_le_of_lt (Nat.le_trans hafter name.short) hshort
    -- The value read after the colon is shorter, so it is written by the
    -- mutual recursion.
    have hfirst := written_value hfield
    dsimp only at h
    split at h
    · cases h
    · rename_i c' rest' hshort' hskip'
      have shorter' : rest'.length < cs.length :=
        Nat.lt_trans (Nat.lt_of_lt_of_le hshort' field.short) shorter
      split at h
      · cases h
        simpa using hfirst
      split at h
      · obtain ⟨tail, hmembers, htail⟩ := Option.bind_eq_some_iff.1 h
        cases htail
        exact List.forall_mem_cons.2 ⟨hfirst, written_members hmembers⟩
      · cases h
termination_by (cs.length, 1)

end

/-- Every document that is read from a text is written. -/
theorem written_of_read? {text : String} {document : Json} (h : read? text = some document) :
    Written document := by
  obtain ⟨scanned, hscanned, h⟩ := Option.bind_eq_some_iff.1 h
  have hread := written_value hscanned
  split at h
  · cases h
    exact hread
  · cases h

/-! ### Numbers that are written -/

namespace Significand

/-- Another digit before the point keeps the significand within bounds.
One that would not fit only counts as a power of ten. -/
theorem value_pushWhole_le {s : Significand} (h : s.value ≤ maxSignificand) (c : Char) :
    (s.pushWhole c).value ≤ maxSignificand := by
  unfold pushWhole
  dsimp only
  split
  · exact h
  · rename_i hroom
    rw [Bool.or_eq_true, not_or, decide_eq_true_iff] at hroom
    exact not_lt.1 hroom.2

/-- Another digit behind the point leaves the significand in its 64
bits, for one that would not fit is dropped. -/
theorem value_pushFraction_le {s : Significand} (h : s.value ≤ maxSignificand) (c : Char) :
    (s.pushFraction c).value ≤ maxSignificand := by
  unfold pushFraction
  dsimp only
  split
  · exact h
  · rename_i hroom
    rw [Bool.or_eq_true, not_or, decide_eq_true_iff] at hroom
    exact not_lt.1 hroom.2

/-- The digits that count fit 64 bits. -/
theorem value_ofWhole_le (whole : List Char) : (ofWhole whole).value ≤ maxSignificand :=
  List.foldlRecOn (motive := fun s : Significand => s.value ≤ maxSignificand) whole pushWhole
    (Nat.zero_le _) fun _ h c _ => value_pushWhole_le h c

/-- Any digits behind the point leave the significand in its 64 bits. -/
theorem value_foldl_pushFraction_le {s : Significand} (h : s.value ≤ maxSignificand)
    (fraction : List Char) : (fraction.foldl pushFraction s).value ≤ maxSignificand :=
  List.foldlRecOn (motive := fun s : Significand => s.value ≤ maxSignificand) fraction pushFraction
    h fun _ h c _ => value_pushFraction_le h c

end Significand

/-- A power that is compared as a natural number. -/
theorem zpow_le_of_pow_le {a b m k : Nat} (h : a ^ b ≤ m * 2 ^ k) :
    (a : Rat) ^ (b : Int) ≤ m * 2 ^ (k : Int) := by
  rw [zpow_natCast, zpow_natCast]
  exact_mod_cast h

/-- The powers of ten that numbers are scaled by. -/
theorem isFinite_powerOfTen {power : Int} (hleast : 0 ≤ power) (hgreatest : power ≤ 308) :
    (Binary64.round (10 ^ power)).isFinite = true ∧ 1 ≤ (Binary64.round (10 ^ power)).toRat := by
  refine Binary64.one_le_round (one_le_zpow₀ (by norm_num) hleast) ?_
  calc (10 : Rat) ^ power ≤ 10 ^ (308 : Int) := zpow_le_zpow_right₀ (by norm_num) hgreatest
    _ ≤ Binary64.maxMagnitude :=
        zpow_le_of_pow_le (a := 10) (b := 308) (m := 9007199254740991) (k := 971)
          (by decide +kernel)

/-- Scaling gives a finite double or none. -/
theorem isFinite_of_scale? {x y : Binary64} {power : Int} (hx : x.isFinite = true)
    (h : scale? x power = some y) : y.isFinite = true := by
  fun_induction scale? x power
  case case1 =>
    cases h
    exact hx
  case case2 => cases h
  case case3 => cases h
  case case4 x power hleast hgreatest scaled hrange =>
    rw [← Option.some.inj h]
    exact Binary64.isFinite_mul hx (isFinite_powerOfTen hleast (not_lt.1 hgreatest)).1
      (Bool.eq_false_iff.2 hrange)
  case case5 x power hnegative hleast =>
    cases h
    have hpositive : 0 ≤ -power := by omega
    obtain ⟨hpower, hone⟩ := isFinite_powerOfTen hpositive (by omega)
    exact Binary64.isFinite_div hx hpower hone
  case case6 =>
    cases h
    exact hx
  case case7 ih =>
    obtain ⟨hpower, hone⟩ := isFinite_powerOfTen (by decide) (le_refl 308)
    exact ih (Binary64.isFinite_div hx hpower hone) h

/-- A bounded significand is a finite double. -/
theorem isFinite_ofNat {value : Nat} (h : value ≤ maxSignificand) :
    (Binary64.ofNat value).isFinite = true := by
  have hcast : Binary64.ofNat value = Binary64.ofInt value := by
    rw [Binary64.ofNat, Binary64.ofInt, Int.cast_natCast]
  rw [hcast]
  unfold maxSignificand at h
  exact Binary64.isFinite_ofInt (by omega)

/-- A significand scaled by a power of ten is finite, or the number is
refused. -/
theorem isFinite_of_ofSignificand? {negative : Bool} {value : Nat} {power : Int} {x : Binary64}
    (hvalue : value ≤ maxSignificand) (h : ofSignificand? negative value power = some x) :
    x.isFinite = true := by
  obtain ⟨scaled, hscaled, rfl⟩ := Option.map_eq_some_iff.1 h
  have hread := isFinite_of_scale? (isFinite_ofNat hvalue) hscaled
  split
  · exact Binary64.isFinite_neg hread
  · exact hread

/-- A number that is written is a whole number of 64 bits or a finite
double. -/
theorem int_or_float_of_value? {t : NumberText} {j : Json} (h : t.value? = some j) :
    (∃ i, j = .int i ∧ isWord i = true) ∨ ∃ x, j = .float x ∧ x.isFinite = true := by
  have hwhole := Significand.value_ofWhole_le t.whole
  have hfloat : ∀ {value : Nat} {power : Int}, value ≤ maxSignificand →
      (ofSignificand? t.negative value power).map float = some j →
      ∃ x, j = .float x ∧ x.isFinite = true := by
    intro value power hvalue h
    obtain ⟨x, hx, rfl⟩ := Option.map_eq_some_iff.1 h
    exact ⟨x, rfl, isFinite_of_ofSignificand? hvalue hx⟩
  unfold NumberText.value? at h
  dsimp only at h
  split at h
  · -- Neither a fraction nor an exponent: whole if it fits 64 bits. A zero
    -- with a sign is kept as a double.
    split at h
    · exact .inr (hfloat hwhole h)
    split at h
    · cases h
      refine .inl ⟨_, rfl, decide_eq_true ?_⟩
      unfold maxSignificand at hwhole
      omega
    · split at h
      · cases h
        exact .inr ⟨_, rfl, Binary64.isFinite_neg (isFinite_ofNat hwhole)⟩
      · rename_i hsmall
        cases h
        refine .inl ⟨_, rfl, decide_eq_true ?_⟩
        omega
  · -- Digits after the point leave the significand in its 64 bits, so what
    -- is scaled is bounded as before.
    have hstart : { Significand.ofWhole t.whole with full := false }.value ≤ maxSignificand := hwhole
    have hdigits := Significand.value_foldl_pushFraction_le hstart
    split at h
    · exact .inr (hfloat (hdigits _) h)
    split at h
    · exact .inr (hfloat (hdigits _) h)
    · split at h
      · cases h
      · cases h
        exact .inr ⟨_, rfl, rfl⟩

/-! ### Documents -/

/-- The fields of a document that is read from a text are in order. -/
theorem isOrdered_of_read? {text : String} {document : Json} (h : read? text = some document) :
    document.isOrdered = true := by
  have hwritten := written_of_read? h
  clear h
  induction hwritten with
  | null | bool _ | text _ => rfl
  | number t j hj =>
    rcases int_or_float_of_value? hj with ⟨i, rfl, _⟩ | ⟨x, rfl, _⟩
    · rfl
    · rfl
  | array items _ ih => exact isOrdered_array.2 ih
  | object fields _ ih => exact isOrdered_ofFields ih

/-- The numbers of a document that is read from a text fit. -/
theorem numbersFit_of_read? {text : String} {document : Json} (h : read? text = some document) :
    document.numbersFit = true := by
  have hwritten := written_of_read? h
  clear h
  induction hwritten with
  | null | bool _ | text _ => rfl
  | number t j hj =>
    rcases int_or_float_of_value? hj with ⟨i, rfl, hword⟩ | ⟨x, rfl, hfinite⟩
    · exact hword
    · exact hfinite
  | array items _ ih => exact numbersFit_array.2 ih
  | object fields _ ih =>
    exact numbersFit_object.2 fun field hfield => ih field (Entries.mem_of_mem_ofList hfield)

end Json

end CrapsStrategy
