import CrapsStrategy.Json.Reader
import CrapsStrategy.Session.Report
import CrapsStrategy.Session.Settings

/-!
# `CrapsStrategy.Session.Replay`: playing settings

A replay plays the rolls of settings over a paper table and reports
as documents: every envelope in order, the trace if it is kept, and
the books. A roll that cannot happen ends it, with the envelopes of the
rolls before it as its report.
-/

set_option autoImplicit false

namespace CrapsStrategy

/-- Why a replay comes to nothing. -/
inductive ReplayFault where
  | malformedText (what : String)
  | undecodableSettings
  | settings (fault : SettingsFault)
  | load (fault : LoadFault)
  | start (fault : StartFault)
  | roll (fault : InvalidRoll)
deriving DecidableEq

def ReplayFault.message : ReplayFault → String
  | malformedText what => what ++ " are not a JSON document"
  | undecodableSettings => "Settings could not be decoded"
  | settings fault => fault.message
  | load fault => fault.message
  | start fault => fault.message
  | roll fault => "Roll " ++ toString fault.total ++ " rejected: " ++ fault.message

/-- Reads settings and checks them. -/
def Settings.read (text : String) : Except ReplayFault Settings :=
  match Json.read? text with
  | none => .error (.malformedText "Settings")
  | some document =>
    match Settings.ofJson? document with
    | none => .error .undecodableSettings
    | some settings =>
      match settings.check with
      | .ok () => .ok settings
      | .error fault => .error (.settings fault)

/-- Reads a strategy and checks it. -/
def Strategy.read (text : String) : Except ReplayFault Strategy :=
  match Json.read? text with
  | none => .error (.malformedText "Strategies")
  | some document =>
    match Strategy.load document with
    | .ok strategy => .ok strategy
    | .error fault => .error (.load fault)

namespace Session

/-- Plays rolls in order, up to the first that cannot happen: the passes
before it, and the session after them or the fault of the roll. -/
def play {τ : Type} [BettingTable τ] (s : Session τ) :
    List (Nat × Option (Nat × Nat)) → List Pass × Except InvalidRoll (Session τ)
  | [] => ([], .ok s)
  | (total, dice) :: rolls =>
    match s.perform (.roll total dice) with
    | (s, .ok passes) =>
      let (more, result) := s.play rolls
      (passes ++ more, result)
    | (_, .error fault) => ([], .error fault)

/-- The documents of a finished session behind its envelopes. -/
def closing (s : Session PaperTable) : List Json :=
  s.controller.engine.trace.map TraceRecord.toJson ++ [s.ledger.toJson .float]

/-- The documents of a replay, and its fault if it does not come to an
end. -/
def replay (settings : Settings) (strategy : Strategy) : List Json × Option ReplayFault :=
  let table : PaperTable := { bets := .empty, bankroll := settings.bankroll }
  match Session.start strategy table with
  | .error fault => ([], some (.start fault))
  | .ok s =>
    let s := { s with controller := s.controller.withTrace settings.trace }
    let (passes, result) := s.play settings.schedule
    let envelopes := passes.flatMap fun pass => pass.actions.map Envelope.toJson
    match result with
    | .error fault => (envelopes, some (.roll fault))
    | .ok s => (envelopes ++ s.closing, none)

end Session

end CrapsStrategy
