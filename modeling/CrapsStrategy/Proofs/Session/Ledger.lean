import CrapsStrategy.Proofs.KeyMap
import CrapsStrategy.Proofs.Session.Pass
import CrapsStrategy.Session.Ledger

/-!
# `CrapsStrategy.Proofs.Session.Ledger`: what the books count

`Ledger.add` changes a dozen fields in one pass, some once per pass,
some once per envelope and some once per rule. `Ledger.Recounts` has
for each of them what it is in terms of the passes alone, and
`recounts_ofPasses` says that the books of any passes are these
counts. Nothing is asked of the passes, so they need not come from a
controller.

The envelopes of a pass go through a fold of their own, which
`foldl_addAction` opens once: each counter moves by the envelopes of
its kind.
-/

set_option autoImplicit false

namespace CrapsStrategy

/-! ### What is counted -/

namespace Envelope

/-- Whether an envelope sets a variable. -/
def isSetvar (e : Envelope) : Bool :=
  e.action = .setvar

/-- Whether an envelope is about a bet that it names. -/
def isOnBet (e : Envelope) : Bool :=
  e.action.mutatesBets && e.bet.isSome

/-- Whether an envelope is about a bet, named or not. -/
def isAboutBets (e : Envelope) : Bool :=
  e.action.mutatesBets

/-- Every envelope is a switch, or about a variable, or about a bet. -/
theorem length_eq_kinds (es : List Envelope) :
    es.length = es.countP isSetvar + es.countP isSwitch + es.countP isAboutBets := by
  induction es with
  | nil => rfl
  | cons e es ih =>
    simp only [List.length_cons, List.countP_cons]
    cases haction : e.action <;>
      simp [isSetvar, isSwitch, isAboutBets, haction, ActionKind.mutatesBets] <;> omega

/-- Every envelope was asked for by a template or by a rule. -/
theorem length_eq_sources (es : List Envelope) :
    es.length = es.countP (fun e => e.source = .template) +
      es.countP (fun e => e.source = .rule) := by
  induction es with
  | nil => rfl
  | cons e es ih =>
    simp only [List.length_cons, List.countP_cons]
    cases hsource : e.source <;> simp <;> omega

end Envelope

/-- All envelopes of some passes, in order. -/
def envelopesOf (passes : List Pass) : List Envelope :=
  passes.flatMap Pass.actions

/-- One more pass comes with its envelopes behind the others. -/
@[simp]
theorem envelopesOf_snoc (passes : List Pass) (pass : Pass) :
    envelopesOf (passes ++ [pass]) = envelopesOf passes ++ pass.actions := by
  simp [envelopesOf]

/-- Whether a rule asked for something in a pass. -/
def Pass.isAskedBy (ruleId : String) (pass : Pass) : Bool :=
  pass.actions.any fun e => e.source = .rule && e.id = ruleId

/-- The envelopes on a bet, of all kinds. -/
def BetTally.envelopes (tally : BetTally) : Nat :=
  tally.sets + tally.presses + tally.reduces + tally.clears

/-- A tally counts each envelope once, under whatever action. -/
@[simp]
theorem BetTally.envelopes_add (tally : BetTally) (action : ActionKind)
    (amount : Option Binary64) : (tally.add action amount).envelopes = tally.envelopes + 1 := by
  cases action <;> simp [add, envelopes] <;> omega

namespace Ledger

/-! ### Counts by key -/

/-- Counting a key adds one to the sum of all counts. -/
@[simp]
theorem total_increment (counts : KeyMap Nat) (key : String) :
    (increment counts key).total id = counts.total id + 1 := by
  refine KeyMap.total_alter id counts key _ ?_
  cases counts.get? key <;> rfl

/-- Counting a key adds one to the count of that key alone. -/
@[simp]
theorem count_increment (counts : KeyMap Nat) (key k : String) :
    count (increment counts key) k = count counts k + if k = key then 1 else 0 := by
  unfold count increment KeyMap.alter
  rw [KeyMap.get?_insert]
  by_cases hk : k = key
  · subst hk
    simp
  · simp [hk]

/-- Counting a list adds how often each key is in it. -/
theorem count_foldl_increment (counts : KeyMap Nat) (keys : List String) (k : String) :
    count (keys.foldl increment counts) k = count counts k + keys.count k := by
  induction keys generalizing counts with
  | nil => rfl
  | cons key keys ih =>
    rw [List.foldl_cons, ih, count_increment, List.count_cons]
    by_cases hk : k = key
    · simp [hk]
      omega
    · simp [hk, Ne.symm hk]

/-- The ids of the rules of a pass, each once. -/
theorem count_firedIds (pass : Pass) (ruleId : String) :
    (firedIds pass.actions).keys.count ruleId = if pass.isAskedBy ruleId then 1 else 0 := by
  rw [List.Nodup.count (KeyMap.nodup_keys _)]
  have hmem : ruleId ∈ (firedIds pass.actions).keys ↔ pass.isAskedBy ruleId = true := by
    simp [firedIds, KeySet.mem_keys_ofList, Pass.isAskedBy, and_assoc]
  simp only [hmem]

/-! ### The envelopes of a pass -/

/-- The tallies of the bets after one more envelope. -/
def tallyBet (bets : KeyMap BetTally) (e : Envelope) : KeyMap BetTally :=
  match e.bet with
  | some bet =>
    if e.action.mutatesBets then
      bets.alter bet fun tally => (tally.getD .empty).add e.action e.amount
    else bets
  | none => bets

/-- One more envelope counts once by who asked and once by what for. -/
theorem addAction_eq (ledger : Ledger) (e : Envelope) :
    addAction ledger e = { ledger with
      templateActions := ledger.templateActions + if e.source = .template then 1 else 0
      ruleActions := ledger.ruleActions + if e.source = .rule then 1 else 0
      modeSwitches := ledger.modeSwitches ++ if e.isSwitch then [e.notes] else []
      setvars := ledger.setvars + if e.isSetvar then 1 else 0
      bets := tallyBet ledger.bets e } := by
  unfold addAction countAction countSource tallyBet Envelope.isSwitch Envelope.isSetvar
  cases e.source <;> cases e.action <;> cases e.bet <;> simp [ActionKind.mutatesBets]

/-- The envelopes of a pass count all at once, and the figures of the
passes stay. -/
theorem foldl_addAction (ledger : Ledger) (es : List Envelope) :
    es.foldl addAction ledger = { ledger with
      templateActions := ledger.templateActions + es.countP fun e => e.source = .template
      ruleActions := ledger.ruleActions + es.countP fun e => e.source = .rule
      modeSwitches := ledger.modeSwitches ++ (es.filter Envelope.isSwitch).map Envelope.notes
      setvars := ledger.setvars + es.countP Envelope.isSetvar
      bets := es.foldl tallyBet ledger.bets } := by
  induction es generalizing ledger with
  | nil => simp
  | cons e es ih =>
    rw [List.foldl_cons, ih, addAction_eq]
    simp only [List.countP_cons, List.filter_cons, List.foldl_cons, List.append_assoc,
      decide_eq_true_eq, mk.injEq, true_and, and_true]
    refine ⟨by omega, by omega, ?_, by omega⟩
    cases e.isSwitch <;> simp

/-- An envelope is tallied under one bet if it is about a bet that it
names. -/
theorem total_tallyBet (bets : KeyMap BetTally) (e : Envelope) :
    (tallyBet bets e).total BetTally.envelopes =
      bets.total BetTally.envelopes + if e.isOnBet then 1 else 0 := by
  unfold tallyBet Envelope.isOnBet
  cases e.bet with
  | none => simp
  | some bet =>
    cases hmutates : e.action.mutatesBets with
    | false => simp
    | true =>
      simp only [if_true, Option.isSome_some, Bool.and_self]
      refine KeyMap.total_alter _ bets bet _ ?_
      cases bets.get? bet <;> rw [BetTally.envelopes_add] <;> rfl

/-- The tallies of some envelopes add up to those on bets. -/
theorem total_foldl_tallyBet (bets : KeyMap BetTally) (es : List Envelope) :
    (es.foldl tallyBet bets).total BetTally.envelopes =
      bets.total BetTally.envelopes + es.countP Envelope.isOnBet := by
  induction es generalizing bets with
  | nil => rfl
  | cons e es ih =>
    rw [List.foldl_cons, ih, total_tallyBet, List.countP_cons]
    omega

/-! ### The books of some passes -/

/-- The books of some passes. -/
def ofPasses (passes : List Pass) : Ledger :=
  passes.foldl addPass .empty

/-- The books of one more pass are those so far, with the pass added. -/
@[simp]
theorem ofPasses_snoc (passes : List Pass) (pass : Pass) :
    ofPasses (passes ++ [pass]) = (ofPasses passes).addPass pass := by
  simp [ofPasses]

/-- The figures of some books as counts over a log of passes. -/
structure Recounts (ledger : Ledger) (log : List Pass) : Prop where
  passes : ledger.passes = log.length
  events : ledger.events.total id = log.length
  eventCount : ∀ kind, ledger.eventCount kind = log.countP fun p => p.event.kind = kind
  points : ledger.points.total id =
    log.countP fun p => p.event.kind = .pointEstablished && p.event.point.isSome
  firedCount : ∀ ruleId, ledger.firedCount ruleId = log.countP (Pass.isAskedBy ruleId)
  templateActions : ledger.templateActions =
    (envelopesOf log).countP fun e => e.source = .template
  ruleActions : ledger.ruleActions = (envelopesOf log).countP fun e => e.source = .rule
  modeSwitches : ledger.modeSwitches =
    ((envelopesOf log).filter Envelope.isSwitch).map Envelope.notes
  setvars : ledger.setvars = (envelopesOf log).countP Envelope.isSetvar
  bets : ledger.bets.total BetTally.envelopes = (envelopesOf log).countP Envelope.isOnBet
  /-- The highest roll and hand of any event. -/
  rolls : ledger.rolls = (log.map fun p => p.event.rollIndex).foldl max 0
  hands : ledger.hands = (log.map fun p => p.event.handId).foldl max 0
  /-- Mode and bankroll are those of the latest pass. -/
  mode : ledger.mode = (log.getLast?.map fun p => modeAfter p.snapshot p.actions).getD ""
  bankroll : ledger.bankroll = (log.getLast?.map fun p => p.snapshot.bankroll).getD 0

/-- The books count events by their names, which differ. -/
theorem name_inj {a b : EventKind} : a.name = b.name ↔ a = b := by
  cases a <;> cases b <;> decide

/-- A point counts if the event has one to name. -/
theorem total_addPoint (points : KeyMap Nat) (event : Event) :
    (addPoint points event).total id = points.total id +
      if event.kind = .pointEstablished && event.point.isSome then 1 else 0 := by
  unfold addPoint
  cases event.kind <;> cases event.point <;> simp

/-- One more pass adds to each figure what the pass has of it. -/
theorem Recounts.addPass {ledger : Ledger} {passes : List Pass} (h : ledger.Recounts passes)
    (pass : Pass) : (ledger.addPass pass).Recounts (passes ++ [pass]) := by
  unfold Ledger.addPass add
  -- The envelopes are booked one by one; this is their sum.
  rw [foldl_addAction]
  constructor
  case passes => simp [h.passes]
  case events => simp [h.events]
  case eventCount =>
    intro kind
    show count (increment ledger.events pass.event.kind.name) kind.name = _
    have hsofar : count ledger.events kind.name = _ := h.eventCount kind
    simp [hsofar, List.countP_append, List.countP_cons, name_inj, eq_comm]
  case points => simp [total_addPoint, h.points, List.countP_append, List.countP_cons]
  case firedCount =>
    intro ruleId
    show count ((firedIds pass.actions).keys.foldl increment ledger.rulesFired) ruleId = _
    have hsofar : count ledger.rulesFired ruleId = _ := h.firedCount ruleId
    rw [count_foldl_increment, count_firedIds, hsofar, List.countP_append, List.countP_singleton]
  case templateActions => simp [h.templateActions]
  case ruleActions => simp [h.ruleActions]
  case modeSwitches => simp [h.modeSwitches]
  case setvars => simp [h.setvars]
  case bets => simp [total_foldl_tallyBet, h.bets]
  case rolls => simp [h.rolls]
  case hands => simp [h.hands]
  case mode => simp
  case bankroll => simp

/-- The books of any passes count them rightly: the run of
`Recounts.addPass` from empty books. -/
theorem recounts_ofPasses (passes : List Pass) : (ofPasses passes).Recounts passes := by
  induction passes using List.reverseRecOn with
  | nil =>
    constructor <;> simp [ofPasses, empty, envelopesOf, eventCount, firedCount, count]
  | append_singleton passes pass ih =>
    rw [ofPasses_snoc]
    exact ih.addPass pass

end Ledger

end CrapsStrategy
