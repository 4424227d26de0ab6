import CrapsStrategy.Text.Lowercase

/-!
# `CrapsStrategy.Strategy.FileFormat`: the format of a strategy file

The extension of a path decides the format, case aside. It is what
stands after the last dot of the path's last component, unless that
dot is its first character. Slashes at the end, and components that
are a single dot, name nothing; `..` has no extension.
-/

set_option autoImplicit false

namespace CrapsStrategy

/-- The formats of strategy files. -/
inductive FileFormat where
  | json | yaml | toml
deriving DecidableEq, Repr

namespace FileFormat

def name : FileFormat → String
  | json => "json"
  | yaml => "yaml"
  | toml => "toml"

/-- The last component of a path that names something. -/
def fileName? (path : String) : Option (List Char) :=
  let parts := path.toList.splitOn '/'
  (parts.filter fun part => part ≠ [] ∧ part ≠ ['.']).getLast?.filter (· ≠ ['.', '.'])

/-- What stands after the last dot of a file name, if something
stands before it. -/
def extension? (file : List Char) : Option (List Char) :=
  let reversed := file.reverse
  match reversed.dropWhile (· ≠ '.') with
  | '.' :: _ :: _ => some (reversed.takeWhile (· ≠ '.')).reverse
  | _ => none

/-- The format of an extension. -/
def ofExtension? (extension : String) : Option FileFormat :=
  match Text.lower extension with
  | "json" => some json
  | "yaml" => some yaml
  | "yml" => some yaml
  | "toml" => some toml
  | _ => none

/-- The format that a path names. -/
def ofPath? (path : String) : Option FileFormat := do
  ofExtension? (String.ofList (← extension? (← fileName? path)))

/-- The wording for a path that names no format. -/
def unsupportedMessage (path : String) : String :=
  "Unsupported spec extension for " ++ path ++ " (expected .json, .yaml, .yml or .toml)"

/-- The wording for a file that cannot be read. -/
def unreadableMessage (path : String) : String :=
  "Failed to read spec file: " ++ path

end FileFormat

end CrapsStrategy
