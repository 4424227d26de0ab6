import CrapsStrategy.Proofs.KeyMap
import CrapsStrategy.Proofs.Rule.Firing
import CrapsStrategy.Proofs.Table.Odds
import CrapsStrategy.Template.Render

/-!
# `CrapsStrategy.Proofs.Template.Odds`: odds in rendered templates

Odds come into a rendered template last, on the point, behind a line
bet that is there, and nothing after that changes a line bet
(`Render.OddsOn`). So odds that were asked for as odds are backed and
capped.

Before them every entry is taken for a flat bet under its own name,
and that name may be the key of odds: `SetsFlat` says what comes of
it. `odds_of_render` has both ways, and there is no third; with the
second the amount is that of a flat bet, whatever the point and the
line (`unbacked_oddsAlone`).
-/

set_option autoImplicit false

namespace CrapsStrategy

/-- Odds on a point behind a line bet that is there, within the
multiple of it that a policy allows. -/
def Layout.Backed (bets : Layout) (policy : OddsPolicy) (side : LineSide) (point : Nat)
    (amount : Int) : Prop :=
  ∃ base, KeyMap.get? bets side.lineKey = some base ∧ 0 < base ∧
    side.OddsWithin point (policy.multiple point * base) amount

/-- A template names a bet outright, and the amount is that of a flat
bet by that key. -/
def Template.SetsFlat (template : Template) (scope : Scope) (table : TableRules) (key : String)
    (amount : Int) : Prop :=
  ∃ name entry raw, (name, entry) ∈ template.entries ∧ BetKey.canonical name = key ∧
    entry.positive? scope = some raw ∧ amount = Legal.bet key raw table

namespace Render

/-- Odds that are there are on a point, and within the multiple of the
line bet that the table allows. -/
theorem oddsAmount_within {table : TableRules} {point : Nat} {base : Int} {request : OddsRequest}
    (hbase : 0 ≤ base) (h : 0 < oddsAmount table point base request) :
    isPoint point = true ∧
      request.side.OddsWithin point (table.odds.multiple point * base)
        (oddsAmount table point base request) := by
  have hcap := Legal.oddsCap_le table.odds point hbase
  unfold oddsAmount at h ⊢
  cases hside : request.side with
  | pass =>
    rw [hside] at h
    have hle := Legal.passOdds_le point base request.raw table
    refine ⟨?_, Int.le_trans hle hcap⟩
    -- Off the points the cap is zero, and there would be no odds.
    rw [← Bool.not_eq_false]
    intro hpoint
    rw [Legal.oddsCap_eq_zero table.odds hpoint] at hle
    exact absurd (Int.lt_of_lt_of_le h hle) (Int.lt_irrefl 0)
  | dont =>
    rw [hside] at h
    obtain ⟨hpoint, hle⟩ := Legal.layOdds_mul_le h
    have hratio : 0 ≤ (LineSide.layRatio point).1 := by
      unfold LineSide.layRatio
      split <;> decide
    exact ⟨hpoint, Int.le_trans hle (Int.mul_le_mul_of_nonneg_right hcap hratio)⟩

/-! ### Before the odds -/

variable {table : TableRules} {scope : Scope} {point : Nat} {side : LineSide} {p : Nat}
  {amount : Int}

/-- A bet is put at one key, and others stay. -/
theorem of_get?_place {key bet : String} {bets : Layout} {raw : Option Binary64}
    (h : KeyMap.get? (place table key bets raw) bet = some amount) :
    KeyMap.get? bets bet = some amount ∨
      key = bet ∧ ∃ x, raw = some x ∧ amount = Legal.bet bet x table := by
  unfold place at h
  split at h
  · rename_i x
    dsimp only at h
    split at h
    · rw [KeyMap.get?_insert] at h
      split at h
      · rename_i hbet
        cases h
        exact .inr ⟨hbet.symm, x, rfl, by rw [hbet]⟩
      · exact .inl h
    · exact .inl h
  · exact .inl h

/-- The group of place bets leaves odds alone. -/
theorem of_get?_placeEntries {bets : Layout} {entries : List (String × TemplateEntry)}
    (h : KeyMap.get? (entries.foldl (placeEntry table scope) bets) (side.oddsKey p) = some amount) :
    KeyMap.get? bets (side.oddsKey p) = some amount := by
  induction entries generalizing bets with
  | nil => exact h
  | cons entry rest ih =>
    rcases of_get?_place (ih h) with hold | ⟨hkey, _⟩
    · exact hold
    · exact absurd hkey (LineSide.canonical_place_ne_oddsKey _ _ _)

/-- One entry of a template puts up odds only if it names them. -/
theorem of_get?_step {draft : Draft} {entry : String × TemplateEntry}
    (h : KeyMap.get? (step table scope draft entry).bets (side.oddsKey p) = some amount) :
    KeyMap.get? draft.bets (side.oddsKey p) = some amount ∨
      BetKey.canonical entry.1 = side.oddsKey p ∧ ∃ raw, entry.2.positive? scope = some raw ∧
        amount = Legal.bet (side.oddsKey p) raw table := by
  obtain ⟨name, entry⟩ := entry
  cases entry with
  | amount a => exact of_get?_place h
  | sized bet => exact of_get?_place h
  | nested entries =>
    -- Of the groups only that of place bets goes to the bets at once.
    unfold step at h
    dsimp only at h
    split at h
    · exact .inl (of_get?_placeEntries h)
    · split at h <;> exact .inl h

/-- Odds in the draft of a template are named by it. -/
theorem setsFlat_of_draft {template : Template}
    (h : KeyMap.get? (template.entries.foldl (step table scope)
      { bets := .empty, requests := [] }).bets (side.oddsKey p) = some amount) :
    template.SetsFlat scope table (side.oddsKey p) amount := by
  refine List.foldlRecOn (motive := fun draft : Draft => ∀ amount,
      KeyMap.get? draft.bets (side.oddsKey p) = some amount →
        template.SetsFlat scope table (side.oddsKey p) amount)
    template.entries (step table scope) (fun _ hget => by cases hget) ?_ amount h
  intro draft hdraft entry hentry amount hget
  rcases of_get?_step hget with hold | ⟨hname, raw, hraw, hamount⟩
  · exact hdraft amount hold
  · exact ⟨entry.1, entry.2, raw, hentry, hname, hraw, hamount⟩

/-! ### The odds -/

/-- A rendered template with some odds added to the bets of its draft:
the line is that of the draft, and what is new is backed by it. -/
structure OddsOn (table : TableRules) (point : Nat) (flat : Layout) (r : Rendered) : Prop where
  line : ∀ side : LineSide, KeyMap.get? r.bets side.lineKey = KeyMap.get? flat side.lineKey
  odds : ∀ bet amount, KeyMap.get? r.bets bet = some amount →
    KeyMap.get? flat bet = some amount ∨
      ∃ side : LineSide, bet = side.oddsKey point ∧ isPoint point = true ∧
        flat.Backed table.odds side point amount

/-- Before the first request no odds have been added. -/
theorem OddsOn.refl (flat : Layout) (working : KeySet) :
    OddsOn table point flat { bets := flat, working } :=
  ⟨fun _ => rfl, fun _ _ h => .inl h⟩

/-- A request adds odds that are backed, or none. As keys of odds are no
keys of line bets, the line stays what the next request looks at. -/
theorem OddsOn.addOdds {flat : Layout} {r : Rendered} (h : OddsOn table point flat r)
    (request : OddsRequest) : OddsOn table point flat (addOdds table point r request) := by
  unfold Render.addOdds
  dsimp only
  split
  · rename_i hpositive
    obtain ⟨hbase, hamount⟩ := hpositive
    -- The base is positive, so the line bet is there.
    obtain ⟨base, hline⟩ : ∃ base, KeyMap.get? r.bets request.side.lineKey = some base := by
      cases hline : KeyMap.get? r.bets request.side.lineKey with
      | none => rw [hline] at hbase; exact absurd hbase (Int.lt_irrefl 0)
      | some base => exact ⟨base, rfl⟩
    rw [hline] at hbase hamount ⊢
    obtain ⟨hpoint, hwithin⟩ := oddsAmount_within (Int.le_of_lt hbase) hamount
    constructor
    case line =>
      -- Odds never go to the key of a line bet.
      intro side
      rw [KeyMap.get?_insert, if_neg (LineSide.lineKey_ne_oddsKey _ _ _)]
      exact h.line side
    case odds =>
      intro bet amount hget
      rw [KeyMap.get?_insert] at hget
      split at hget
      · rename_i hbet
        cases hget
        rw [h.line] at hline
        exact .inr ⟨request.side, hbet, hpoint, base, hline, hbase, hwithin⟩
      · exact h.odds bet amount hget
  · exact h

end Render

/-- Odds on a point in a rendered template are on the point of the
snapshot, behind a line bet and capped by it; or else the template
names them outright, and they are a flat bet like any other. -/
theorem Template.odds_of_render {template : Template} {s : Snapshot} {table : TableRules}
    {side : LineSide} {p : Nat} {amount : Int} (hp : isPoint p = true)
    (h : (template.render s table).bets.get? (side.oddsKey p) = some amount) :
    (s.point = some p ∧ (template.render s table).bets.Backed table.odds side p amount) ∨
      template.SetsFlat (.ofVariables s.merged) table (side.oddsKey p) amount := by
  unfold render at h ⊢
  dsimp only at h ⊢
  cases hpoint : s.point with
  | none =>
    -- Without a point the draft is all there is.
    rw [hpoint] at h
    exact .inr (Render.setsFlat_of_draft h)
  | some point =>
    rw [hpoint] at h
    dsimp only at h ⊢
    generalize hdraft : template.entries.foldl (Render.step table (.ofVariables s.merged))
      { bets := .empty, requests := [] } = draft at h ⊢
    have hon : Render.OddsOn table point draft.bets
        (draft.requests.foldl (Render.addOdds table point)
          { bets := draft.bets, working := .empty }) :=
      List.foldlRecOn (motive := Render.OddsOn table point draft.bets) _ _ (.refl _ _)
        fun r hr request _ => hr.addOdds request
    rcases hon.odds _ _ h with hflat | ⟨side', hkey, hq, base, hline, hbase, hwithin⟩
    · rw [← hdraft] at hflat
      exact .inr (Render.setsFlat_of_draft hflat)
    · obtain ⟨rfl, rfl⟩ := (LineSide.oddsKey_inj hp hq).1 hkey
      exact .inl ⟨rfl, base, (hon.line side).trans hline, hbase, hwithin⟩

namespace Template

/-- The rules of a table with a level of ten dollars. -/
def tenDollarTable : TableRules :=
  { bubble := false, level := 10, odds := .threeFourFive }

/-- A line bet with more odds than a table takes. -/
def heavyOdds : Template :=
  .ofList [("pass", .sized {
    amount := .number (.ofNat 10), working := none, odds := some (.number (.ofNat 900)) })]

/-- On the six they are cut to five times the line. -/
theorem odds_of_render_heavyOdds :
    let s := { Snapshot.inHand .roll 1 with onComeout := false, point := some 6 }
    let bets := (heavyOdds.render s tenDollarTable).bets
    isPoint 6 = true ∧ bets.get? (LineSide.pass.oddsKey 6) = some 50 ∧ s.point = some 6 ∧
      bets.Backed tenDollarTable.odds .pass 6 50 := by
  intro s bets
  have hget : bets.get? (LineSide.pass.oddsKey 6) = some 50 := by
    decide +kernel
  rcases odds_of_render rfl hget with ⟨hpoint, hbacked⟩ | ⟨name, entry, raw, hentry, hname, _⟩
  · exact ⟨rfl, hget, hpoint, hbacked⟩
  · -- The only entry is the line.
    have hline : name = "pass" := by
      have hmem := List.mem_map_of_mem (f := Prod.fst) hentry
      simpa [heavyOdds, KeyMap.ofList, Entries.ofList, Entries.insert] using hmem
    rw [hline] at hname
    exact absurd hname (by decide +kernel)

/-- A bet that goes by the key of odds, and nothing else. -/
def oddsAlone : Template :=
  .ofList [("odds_6_pass", .amount (.number (.ofNat 100)))]

/-- It is put up on a come-out, without a line bet. -/
theorem unbacked_oddsAlone :
    let s := Snapshot.inHand .comeout 1
    let bets := (oddsAlone.render s tenDollarTable).bets
    isPoint 6 = true ∧ bets.get? (LineSide.pass.oddsKey 6) = some 100 ∧ s.point = none ∧
      bets.get? LineSide.pass.lineKey = none := by
  decide +kernel

end Template

end CrapsStrategy
