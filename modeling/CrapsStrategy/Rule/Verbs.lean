import CrapsStrategy.Envelope
import CrapsStrategy.Text.Lowercase

/-!
# `CrapsStrategy.Rule.Verbs`: the verbs that steps may use

A registry says which action each verb stands for, case aside. The
standard one has the name of every action, and `switch_profile` for
the switch of modes.
-/

set_option autoImplicit false

namespace CrapsStrategy

/-- The actions of verbs in lower case. -/
structure Verbs where
  actions : KeyMap ActionKind

namespace Verbs

def empty : Verbs :=
  { actions := .empty }

/-- The registry with a verb for an action, in place of what the verb
stood for. -/
def register (verbs : Verbs) (name : String) (action : ActionKind) : Verbs :=
  { actions := verbs.actions.insert (Text.lower name) action }

def standard : Verbs :=
  (ActionKind.all.foldl (fun verbs action => verbs.register action.name action) empty).register
    "switch_profile" .switchMode

/-- The action of a verb. -/
def resolve? (verbs : Verbs) (name : String) : Option ActionKind :=
  verbs.actions.get? (Text.lower name)

def size (verbs : Verbs) : Nat :=
  verbs.actions.entries.length

def isEmpty (verbs : Verbs) : Bool :=
  verbs.actions.entries.isEmpty

end Verbs

end CrapsStrategy
