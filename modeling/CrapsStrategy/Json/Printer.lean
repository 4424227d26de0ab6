import CrapsStrategy.Decimal.Layout
import CrapsStrategy.Json.Basic

/-!
# `CrapsStrategy.Json.Printer`: documents as text

A document is written on one line without blanks. Strings escape
quotes, backslashes and controls only; doubles keep their fraction,
and a double that is no number is written as `null`.
-/

set_option autoImplicit false

namespace CrapsStrategy.Json

/-- Four hexadecimal digits. -/
def hexDigits (n : Nat) : List Char :=
  let digits := Nat.toDigits 16 n
  List.replicate (4 - digits.length) '0' ++ digits

/-- A character inside a JSON string. -/
def escapeChar (c : Char) : List Char :=
  match c with
  | '"' => ['\\', '"']
  | '\\' => ['\\', '\\']
  | '\n' => ['\\', 'n']
  | '\r' => ['\\', 'r']
  | '\t' => ['\\', 't']
  | '\x08' => ['\\', 'b']
  | '\x0c' => ['\\', 'f']
  | c => if c.toNat < 32 then ['\\', 'u'] ++ hexDigits c.toNat else [c]

/-- A JSON string. -/
def quote (s : String) : String :=
  String.ofList ('"' :: s.toList.flatMap escapeChar ++ ['"'])

/-- A JSON number. -/
def floatText (x : Binary64) : String :=
  if x.isFinite then x.textWith .interchange else "null"

mutual

/-- A document on one line. -/
def print : Json → String
  | null => "null"
  | bool b => if b then "true" else "false"
  | int i => toString i
  | float x => floatText x
  | text s => quote s
  | array items => "[" ++ printItems items ++ "]"
  | object fields => "\x7b" ++ printFields fields ++ "\x7d"

def printItems : List Json → String
  | [] => ""
  | [item] => print item
  | item :: rest => print item ++ "," ++ printItems rest

def printFields : List (String × Json) → String
  | [] => ""
  | [(name, value)] => quote name ++ ":" ++ print value
  | (name, value) :: rest => quote name ++ ":" ++ print value ++ "," ++ printFields rest

end

end CrapsStrategy.Json
