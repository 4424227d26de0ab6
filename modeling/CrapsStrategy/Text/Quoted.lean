import CrapsStrategy.Text.HiddenTable
import CrapsStrategy.Text.Lowercase

/-!
# `CrapsStrategy.Text.Quoted`: quoted text

Messages show a string literal between double quotes. A quote, a
backslash and the common controls take a backslash and a letter, and
a character without a plain glyph takes its code point in braces.
-/

set_option autoImplicit false

namespace CrapsStrategy.Text

/-- A character that quoted text writes by its code point. Of ASCII
these are the controls. -/
def isHidden (c : Char) : Bool :=
  if c.toNat < 128 then decide (c.toNat < 32) || c == '\x7f'
  else withinBounds hiddenBounds c

/-- A character as quoted text writes it. -/
def quoteChar (c : Char) : List Char :=
  match c with
  | '"' => ['\\', '"']
  | '\\' => ['\\', '\\']
  | '\n' => ['\\', 'n']
  | '\r' => ['\\', 'r']
  | '\t' => ['\\', 't']
  | '\x00' => ['\\', '0']
  | c =>
    if isHidden c then
      ['\\', 'u', '\x7b'] ++ Nat.toDigits 16 c.toNat ++ ['\x7d']
    else [c]

/-- A text between double quotes. -/
def quote (s : String) : String :=
  String.ofList ('"' :: s.toList.flatMap quoteChar ++ ['"'])

end CrapsStrategy.Text
