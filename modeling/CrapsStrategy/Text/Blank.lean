/-!
# `CrapsStrategy.Text.Blank`: blank characters and trimming

A blank is a character of the Unicode property White_Space, all 25
of them. `trim` drops the blanks at both ends of a text and nothing
else.
-/

set_option autoImplicit false

namespace CrapsStrategy.Text

/-- The White_Space characters. -/
def isBlank (c : Char) : Bool :=
  let n := c.toNat
  (9 ≤ n && n ≤ 13) || n == 0x20 || n == 0x85 || n == 0xA0 || n == 0x1680 ||
    (0x2000 ≤ n && n ≤ 0x200A) || n == 0x2028 || n == 0x2029 || n == 0x202F ||
    n == 0x205F || n == 0x3000

/-- A list of characters without the blanks at its ends. -/
def trimChars (cs : List Char) : List Char :=
  ((cs.dropWhile isBlank).reverse.dropWhile isBlank).reverse

/-- A text without the blanks at its ends. -/
def trim (s : String) : String :=
  String.ofList (trimChars s.toList)

/-- Whether nothing but blanks is in a text. -/
def isBlankText (s : String) : Bool :=
  s.toList.all isBlank

end CrapsStrategy.Text
