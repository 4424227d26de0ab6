import CrapsStrategy.Strategy.Check
import CrapsStrategy.Strategy.Decode

/-!
# `CrapsStrategy.Strategy.Load`: strategies from checked documents

A document is checked first and decoded only if the check finds no
problem. A file is read in the format that its extension names.
-/

set_option autoImplicit false

namespace CrapsStrategy

/-- Why a document gives no strategy. -/
inductive LoadFault where
  | invalid (problems : List Problem)
  | undecodable
deriving DecidableEq

namespace LoadFault

/-- Problems as an itemized list. -/
def itemize (problems : List Problem) : String :=
  String.join (problems.map fun p => "\n- " ++ p.message)

def message : LoadFault → String
  | invalid problems => "Spec validation failed:" ++ itemize problems
  | undecodable => "Spec passed validation but could not be decoded"

end LoadFault

/-- The strategy of a document. -/
def Strategy.load (document : Json) : Except LoadFault Strategy :=
  let report := Strategy.check document
  if report.isClean then
    match Strategy.ofJson? document with
    | some strategy => .ok strategy
    | none => .error .undecodable
  else .error (.invalid report.problems)

end CrapsStrategy
