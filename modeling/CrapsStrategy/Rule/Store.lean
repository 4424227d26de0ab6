import CrapsStrategy.Value.Basic

/-!
# `CrapsStrategy.Rule.Store`: the variables and the mode of a run

A store holds the user variables and the active mode of one run. The
modes to choose from are those of the strategy, and only these can be
switched to.
-/

set_option autoImplicit false

namespace CrapsStrategy

/-- The live variables and the active mode. -/
structure Store where
  vars : Variables
  mode : String
  modes : KeySet

namespace Store

/-- The mode that a run starts in unless it is told otherwise. -/
def defaultMode : String := "Main"

/-- The mode that the variable `mode` asks for. -/
def requestedMode? (initial : Variables) (modes : KeySet) : Option String :=
  match initial.get? "mode" with
  | some (.text mode) => if modes.contains mode then some mode else none
  | _ => none

/-- The mode that a run starts in: the requested one, or else the
default, or else the first by name. -/
def startingMode (initial : Variables) (modes : KeySet) : String :=
  match requestedMode? initial modes with
  | some mode => mode
  | none => if modes.contains defaultMode then defaultMode else modes.keys.headD ""

/-- The store that a run starts with. The variable `mode` is used up
by it. -/
def start (initial : Variables) (modes : KeySet) : Store :=
  { vars := initial.erase "mode", mode := startingMode initial modes, modes }

def get? (s : Store) (name : String) : Option Value :=
  s.vars.get? name

def set (s : Store) (name : String) (v : Value) : Store :=
  { s with vars := s.vars.insert name v }

def hasMode (s : Store) (mode : String) : Bool :=
  s.modes.contains mode

/-- The store with a mode active; a mode that it does not have is
refused. -/
def switchMode (s : Store) (mode : String) : Store :=
  if s.hasMode mode then { s with mode } else s

/-- Whether a switch changes the active mode. -/
def changesMode (s : Store) (mode : String) : Bool :=
  (s.switchMode mode).mode != s.mode

end Store

end CrapsStrategy
