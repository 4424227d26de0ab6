import CrapsStrategy.Proofs.Binary64.Whole
import CrapsStrategy.Table.Legal
import Mathlib.Data.List.Basic

/-!
# `CrapsStrategy.Proofs.Table.Odds`: keys and limits of odds

The key of odds is like no other: it tells the side and the point
(`oddsKey_inj`), it is not that of a line bet, and no spelling of a
place bet leads to it (`canonical_place_ne_oddsKey`).

Legal odds stay within the multiple that the table allows, and there
are none on what is no point. Products that end at the greatest 64-bit
integer only make the limit lower. `OddsWithin` has the limit in exact
terms: taken odds are limited themselves, laid odds by what they win.

No legal amount, of odds or of another bet, is beyond the 64-bit
integers (`bet_le_maxInt`, `passOdds_le_maxInt`, `layOdds_le_maxInt`).
-/

set_option autoImplicit false

namespace CrapsStrategy

/-! ### Keys -/

namespace Text

/-- Trimming keeps a first character that is not blank. -/
theorem trimChars_cons {c : Char} (h : isBlank c = false) (cs : List Char) :
    ∃ rest, trimChars (c :: cs) = c :: rest := by
  have hdrop : (c :: cs).dropWhile isBlank = c :: cs := by
    rw [List.dropWhile_cons_of_neg (by rw [h]; exact Bool.false_ne_true)]
  rw [trimChars, hdrop, List.reverse_cons, List.dropWhile_append]
  -- From the other end the first character is the last, and stops the dropping.
  split
  · refine ⟨[], ?_⟩
    rw [List.dropWhile_cons_of_neg (by rw [h]; exact Bool.false_ne_true)]
    rfl
  · exact ⟨_, List.reverse_append⟩

end Text

namespace BetKey

/-- A spelling with `p` for its first letter is of a key that has it
too. -/
theorem head?_ofSpelling (cs : List Char) : (ofSpelling ('p' :: cs)).head? = some 'p' := by
  unfold ofSpelling
  split
  · rfl
  · rfl
  -- The three spellings of the other side have another first letter.
  · rename_i hdont
    cases String.ofList_inj.1 hdont
  · rename_i hdont
    cases String.ofList_inj.1 hdont
  · rename_i hdont
    cases String.ofList_inj.1 hdont
  · dsimp only
    split <;> rfl

/-- All spellings of place bets are such spellings. -/
theorem head?_canonical_place (number : String) :
    (canonical ("place_" ++ number)).toList.head? = some 'p' := by
  obtain ⟨rest, htrim⟩ :=
    Text.trimChars_cons (c := 'p') (by decide) ("lace_".toList ++ number.toList)
  have hspelling : (Text.lower (Text.trim ("place_" ++ number))).toList =
      'p' :: Text.lowerFrom ['p'] rest := by
    have htext : ("place_" ++ number).toList = 'p' :: ("lace_".toList ++ number.toList) := by
      rw [String.toList_append]
      rfl
    rw [Text.lower, Text.trim, String.toList_ofList, String.toList_ofList, htext, htrim]
    rfl
  rw [canonical, hspelling, String.toList_ofList, List.filter_cons_of_pos (by decide)]
  exact head?_ofSpelling _

end BetKey

namespace LineSide

variable {side side' : LineSide} {p q : Nat}

/-- The key of odds begins with its own letter. -/
theorem head?_oddsKey (side : LineSide) (point : Nat) :
    (side.oddsKey point).toList.head? = some 'o' := by
  cases side <;> simp [oddsKey]

/-- No number, however spelled, makes the key of a place bet one of
odds. -/
theorem canonical_place_ne_oddsKey (number : String) (side : LineSide) (point : Nat) :
    BetKey.canonical ("place_" ++ number) ≠ side.oddsKey point := by
  intro h
  have hplace := BetKey.head?_canonical_place number
  rw [h, head?_oddsKey] at hplace
  cases hplace

/-- A line bet has no key of odds, for its first letter is another one. -/
theorem lineKey_ne_oddsKey (side side' : LineSide) (point : Nat) :
    side.lineKey ≠ side'.oddsKey point := by
  intro h
  have hhead := head?_oddsKey side' point
  rw [← h] at hhead
  cases side <;> cases hhead

/-- The key of odds tells the side and the point. -/
theorem oddsKey_inj (hp : isPoint p = true) (hq : isPoint q = true) :
    side.oddsKey p = side'.oddsKey q ↔ side = side' ∧ p = q := by
  -- Only six numbers are points.
  have hkeys : ∀ p ∈ pointNumbers, ∀ q ∈ pointNumbers,
      side.oddsKey p = side'.oddsKey q ↔ side = side' ∧ p = q := by
    cases side <;> cases side' <;> decide
  exact hkeys p (List.contains_iff_mem.1 hp) q (List.contains_iff_mem.1 hq)

end LineSide

/-! ### Limits -/

namespace LineSide

/-- What is laid on a point, and what that wins. -/
def layRatio (point : Nat) : Int × Int :=
  match point with
  | 4 | 10 => (2, 1)
  | 5 | 9 => (3, 2)
  | _ => (6, 5)

/-- Whether odds of an amount keep to a limit, on themselves behind
the pass line and on what they win behind the don't pass. -/
def OddsWithin (side : LineSide) (point : Nat) (limit amount : Int) : Prop :=
  match side with
  | .pass => amount ≤ limit
  | .dont => amount * (layRatio point).2 ≤ limit * (layRatio point).1

end LineSide

namespace Legal

/-- Rounding down goes down. -/
theorem roundDown_le (amount step : Int) : roundDown amount step ≤ amount := by
  unfold roundDown
  split
  · exact Int.le_refl _
  · have hrest := Int.emod_nonneg amount (by omega : step ≠ 0)
    omega

/-- A product that ends at the greatest 64-bit integer is at most the
exact one. -/
theorem boundedMul_le (a b : Int) : boundedMul a b ≤ a * b :=
  Int.min_le_right _ _

/-- The cap is at most what the policy allows on the line bet. -/
theorem oddsCap_le (policy : OddsPolicy) (point : Nat) {base : Int} (hbase : 0 ≤ base) :
    oddsCap policy point base ≤ policy.multiple point * base := by
  rw [oddsCap, Int.max_eq_left hbase]
  exact boundedMul_le _ _

/-- There is no cap but zero on what is no point. -/
theorem oddsCap_eq_zero (policy : OddsPolicy) {point : Nat} (h : isPoint point = false)
    (base : Int) : oddsCap policy point base = 0 := by
  have hmultiple : policy.multiple point = 0 := by simp [OddsPolicy.multiple, h]
  rw [oddsCap, hmultiple, boundedMul, Int.zero_mul]
  rfl

/-- Taken odds are at most the cap. -/
theorem passOdds_le (point : Nat) (base : Int) (raw : Binary64) (table : TableRules) :
    passOdds point base raw table ≤ oddsCap table.odds point base :=
  Int.le_trans (roundDown_le _ _) (Int.min_le_right _ _)

/-- The lay cap wins no more than the cap on winning. -/
theorem layCap?_mul_le {point : Nat} {winCap cap step : Int}
    (h : layCap? point winCap = some (cap, step)) :
    isPoint point = true ∧
      cap * (LineSide.layRatio point).2 ≤ winCap * (LineSide.layRatio point).1 := by
  -- Halves and fifths of a dollar are dropped, which only lowers the cap.
  have hdouble := boundedMul_le winCap 2
  have htriple := boundedMul_le winCap 3
  have hsixfold := boundedMul_le winCap 6
  unfold layCap? at h
  split at h <;> cases h <;> refine ⟨rfl, ?_⟩ <;> simp only [LineSide.layRatio] <;> omega

/-- Laid odds are on a point, and win at most the cap. -/
theorem layOdds_mul_le {point : Nat} {base : Int} {raw : Binary64} {table : TableRules}
    (h : 0 < layOdds point base raw table) :
    isPoint point = true ∧
      layOdds point base raw table * (LineSide.layRatio point).2 ≤
        oddsCap table.odds point base * (LineSide.layRatio point).1 := by
  unfold layOdds at h ⊢
  split at h
  · rename_i cap step hcap
    obtain ⟨hpoint, hle⟩ := layCap?_mul_le hcap
    have hlaid : roundDown (min (wholeDollars raw) cap) (if table.bubble then 1 else step) ≤ cap :=
      Int.le_trans (roundDown_le _ _) (Int.min_le_right _ _)
    have hratio : 0 ≤ (LineSide.layRatio point).2 := by
      unfold LineSide.layRatio
      split <;> decide
    exact ⟨hpoint, Int.le_trans (Int.mul_le_mul_of_nonneg_right hlaid hratio) hle⟩
  · cases h

/-! ### The range -/

/-- Whole dollars are not negative. -/
theorem zero_le_wholeDollars (raw : Binary64) : 0 ≤ wholeDollars raw :=
  Int.le_max_left 0 _

/-- Whole dollars are within 64 bits. -/
theorem wholeDollars_le_maxInt (raw : Binary64) : wholeDollars raw ≤ Binary64.maxInt :=
  max_le (by decide) raw.saturate_le_maxInt

/-- Rounding up stays within 64 bits. -/
theorem roundUp_le_maxInt {amount : Int} (h : amount ≤ Binary64.maxInt) (step : Int) :
    roundUp amount step ≤ Binary64.maxInt := by
  unfold roundUp
  split
  · exact h
  · split
    · exact h
    · exact Int.min_le_left _ _

/-- A legal amount is within 64 bits, if the table level is. -/
theorem bet_le_maxInt {table : TableRules} (hlevel : table.level ≤ Binary64.maxInt)
    (key : String) (raw : Binary64) : bet key raw table ≤ Binary64.maxInt := by
  unfold bet amount
  dsimp only
  split
  · decide
  · exact roundUp_le_maxInt (max_le (wholeDollars_le_maxInt raw) hlevel) _

/-- Taken odds are within 64 bits. -/
theorem passOdds_le_maxInt (point : Nat) (base : Int) (raw : Binary64) (table : TableRules) :
    passOdds point base raw table ≤ Binary64.maxInt :=
  (roundDown_le _ _).trans ((Int.min_le_left _ _).trans (wholeDollars_le_maxInt raw))

/-- Laid odds are within 64 bits. -/
theorem layOdds_le_maxInt (point : Nat) (base : Int) (raw : Binary64) (table : TableRules) :
    layOdds point base raw table ≤ Binary64.maxInt := by
  unfold layOdds
  split
  · exact (roundDown_le _ _).trans ((Int.min_le_left _ _).trans (wholeDollars_le_maxInt raw))
  · decide

end Legal

end CrapsStrategy
