import CrapsStrategy.Json.Printer
import CrapsStrategy.Session.Replay
import CrapsStrategy.Strategy.FileFormat

/-!
# `CrapsStrategy.Main`: the command line

The program takes the name of a settings file, `craps.json` unless it
is told otherwise, plays the session that it describes, and prints
one document a line. Settings and strategy are JSON files.
-/

set_option autoImplicit false

open CrapsStrategy

/-- The settings file of a call without arguments. -/
def defaultSettingsPath : String := "craps.json"

/-- Fails with a message. -/
def failWith {α : Type} (message : String) : IO α :=
  throw (IO.userError message)

/-- The result of pure code, or a failure with the wording of its
fault. -/
def orFail {α : Type} : Except ReplayFault α → IO α
  | .ok a => pure a
  | .error fault => failWith fault.message

/-- The text of a strategy file, which has to be a JSON file. -/
def readStrategyFile (path : String) : IO String :=
  match FileFormat.ofPath? path with
  | some .json => IO.FS.readFile path
  | some _ => failWith ("Only JSON strategies can be read: " ++ path)
  | none => failWith (FileFormat.unsupportedMessage path)

def main (arguments : List String) : IO Unit := do
  let settings ← orFail (Settings.read (← IO.FS.readFile (arguments.headD defaultSettingsPath)))
  let strategy ← orFail (Strategy.read (← readStrategyFile settings.strategyPath))
  let (documents, fault?) := Session.replay settings strategy
  for document in documents do
    IO.println document.print
  if let some fault := fault? then
    failWith fault.message
