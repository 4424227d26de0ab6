import CrapsStrategy.Session.Ledger

/-!
# `CrapsStrategy.Session.Run`: sessions

A session is a controller with its books. It follows the commands of
a table, rolls, bets that were settled elsewhere, and fresh starts,
and enters every pass in the books. `Session.run` is the fold of
`Session.perform` over the commands.
-/

set_option autoImplicit false

namespace CrapsStrategy

/-- What happens at the table. -/
inductive Command where
  | roll (total : Nat) (dice : Option (Nat × Nat))
  | resolve (bet result : String) (payout : Option Binary64)
  | resetTable

/-- A controller with its books. -/
structure Session (τ : Type) where
  controller : Controller τ
  ledger : Ledger

namespace Session

variable {τ : Type}

/-- A session before its first command. -/
def start (strategy : Strategy) (table : τ) : Except StartFault (Session τ) := do
  return { controller := ← Controller.start strategy table, ledger := .empty }

/-- The session with passes in its books. -/
def enter (s : Session τ) (controller : Controller τ) (passes : List Pass) : Session τ :=
  { controller, ledger := passes.foldl Ledger.addPass s.ledger }

/-- Follows a command: the session after it and its passes. A roll
that cannot happen changes nothing. -/
def perform [BettingTable τ] (s : Session τ) (command : Command) :
    Session τ × Except InvalidRoll (List Pass) :=
  match command with
  | .roll total dice =>
    match s.controller.roll total dice with
    | .ok (controller, passes) => (s.enter controller passes, .ok passes)
    | .error fault => (s, .error fault)
  | .resolve bet result payout =>
    let (controller, pass) := s.controller.resolve bet result payout
    (s.enter controller [pass], .ok [pass])
  | .resetTable => ({ s with controller := s.controller.resetTable }, .ok [])

/-- The passes of a command. -/
def passesOf : Except InvalidRoll (List Pass) → List Pass
  | .ok passes => passes
  | .error _ => []

/-- A session and its passes so far, one command later. -/
def step [BettingTable τ] (state : Session τ × List Pass) (command : Command) :
    Session τ × List Pass :=
  let (s, result) := state.1.perform command
  (s, state.2 ++ passesOf result)

/-- Follows commands in order: the session after them and all their
passes. -/
def run [BettingTable τ] (s : Session τ) (commands : List Command) : Session τ × List Pass :=
  commands.foldl step (s, [])

end Session

end CrapsStrategy
