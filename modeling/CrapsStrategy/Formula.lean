import CrapsStrategy.Script.Eval
import CrapsStrategy.Script.Parser
import CrapsStrategy.Script.Sandbox

/-!
# `CrapsStrategy.Formula`: text in the wide dialect

Amounts are texts with one expression, steps may be texts with
statements. A text is compiled without the blanks around it, and only
a script that passes the sandbox is ever run.
-/

set_option autoImplicit false

namespace CrapsStrategy

/-- Reads a script without the blanks around it and checks it. -/
def Script.compile (source : String) : Except Fault Script := do
  let script ← Script.parse (Text.trim source)
  script.check
  return script

/-- The value of a script that is one expression. -/
def Script.value (s : Script) (scope : Scope) : Except Fault Value :=
  match s.expression? with
  | some e => e.eval scope
  | none => .error (.syntaxAt .start .statementsForExpression)

namespace Formula

/-- The value of a text with one expression. -/
def value (source : String) (scope : Scope) : Except Fault Value := do
  (← Script.compile source).value scope

/-- The number of a text with one expression. -/
def number (source : String) (scope : Scope) : Except Fault Binary64 := do
  let v ← value source scope
  match v.number? with
  | some x => return x
  | none => .error (.evaluation (.notNumber v.kind v.display))

/-- The truth value that a word stands for. -/
def truthWord? (word : String) : Option Bool :=
  if ["true", "t", "1", "yes", "y"].contains word then some true
  else if ["false", "f", "0", "no", "n", ""].contains word then some false
  else none

/-- The truth of a text with one expression. A text result is read as
a word. -/
def truth (source : String) (scope : Scope) : Except Fault Bool := do
  match ← value source scope with
  | .text s =>
    match truthWord? (Text.lower (Text.trim s)) with
    | some b => return b
    | none => .error (.evaluation (.notTruth s))
  | v => return v.truthy

/-- Runs a text with statements over live variables. A text that does
not compile changes nothing. -/
def run (source : String) (base : Scope) (vars : Variables) : Run × Option Fault :=
  match Script.compile source with
  | .ok script => script.run base vars
  | .error fault => (.start vars, some fault)

end Formula

end CrapsStrategy
