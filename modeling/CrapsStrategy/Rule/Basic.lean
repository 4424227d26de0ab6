import CrapsStrategy.Event.Basic
import CrapsStrategy.Guard
import CrapsStrategy.Rule.Step

/-!
# `CrapsStrategy.Rule.Basic`: compiled rules

A rule is compiled before it runs: its trigger names an event, its
guard compiles, and it has steps or the short form. The first of
these that fails makes the rule malformed.
-/

set_option autoImplicit false

namespace CrapsStrategy

/-- A compiled rule. -/
structure Rule where
  id : String
  /-- The event that the rule waits for; without one it never
  fires. -/
  trigger : Option EventKind
  guard : Option Guard
  /-- The guard as written, empty where there is none. -/
  guardText : String
  steps : List Step
  scope : RuleScope
  /-- For how many passes after a fire the rule rests. -/
  cooldown : Nat
  once : Bool

/-- What makes a rule malformed. -/
inductive RuleFault where
  | unknownEvent (text : String)
  | badGuard (fault : Fault)
  | noSteps
deriving DecidableEq

def RuleFault.message : RuleFault → String
  | unknownEvent text => EventKind.unknownMessage text
  | badGuard fault => "when: " ++ fault.message
  | noSteps => "missing 'do' or 'then'"

/-- A malformed rule and the reason. -/
structure MalformedRule where
  id : String
  fault : RuleFault
deriving DecidableEq

def MalformedRule.message (m : MalformedRule) : String :=
  "Malformed rule " ++ m.id ++ ": " ++ m.fault.message

namespace RuleSection

/-- A label without the blanks around it, unless nothing is left. -/
def label? (text : Option String) : Option String :=
  (text.map Text.trim).filter fun label => !label.isEmpty

/-- The id of the rule at a position: its name, or else its own id,
or else its place in the list. -/
def ruleId (rule : RuleSection) (index : Nat) : String :=
  "rule:" ++ ((label? rule.name).or (label? rule.id)).getD ("#" ++ toString (index + 1))

/-- The event that the trigger names. -/
def trigger (rule : RuleSection) : Except RuleFault (Option EventKind) :=
  match rule.event with
  | none => .ok none
  | some text =>
    match EventKind.read? text with
    | some kind => .ok (some kind)
    | none => .error (.unknownEvent text)

/-- The guard as written. -/
def guardText (rule : RuleSection) : String :=
  rule.guard.getD ""

/-- The compiled guard. A blank one is no guard. -/
def compileGuard (rule : RuleSection) : Except RuleFault (Option Guard) :=
  if Text.isBlankText rule.guardText then .ok none
  else match Guard.compile rule.guardText with
    | .ok guard => .ok (some guard)
    | .error fault => .error (.badGuard fault)

/-- The steps in order, the short form last. -/
def compileSteps (rule : RuleSection) : Except RuleFault (List Step) :=
  if rule.steps.isEmpty && rule.thenStep.isNone then .error .noSteps
  else .ok (rule.steps.filterMap Step.ofText? ++ (rule.thenStep.map Step.ofThen).toList)

end RuleSection

namespace Rule

/-- Compiles a rule but for naming it in a fault. -/
def compileParts (index : Nat) (rule : RuleSection) : Except RuleFault Rule := do
  let trigger ← rule.trigger
  let guard ← rule.compileGuard
  let steps ← rule.compileSteps
  return {
    id := rule.ruleId index, trigger, guard, guardText := rule.guardText, steps,
    scope := rule.scope, cooldown := rule.cooldown, once := rule.once }

/-- Compiles the rule at a position, counted from zero. -/
def compile (index : Nat) (rule : RuleSection) : Except MalformedRule Rule :=
  match compileParts index rule with
  | .ok compiled => .ok compiled
  | .error fault => .error { id := rule.ruleId index, fault }

/-- Compiles rules, up to the first malformed one. -/
def compileAll (rules : List RuleSection) : Except MalformedRule (List Rule) :=
  rules.zipIdx.mapM fun (rule, index) => compile index rule

end Rule

end CrapsStrategy
