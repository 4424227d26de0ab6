import CrapsStrategy.Text.Blank

/-!
# `CrapsStrategy.Text.Words`: words between blanks

The words of a text are its longest parts without a blank. Blanks at
the ends and runs of blanks make no empty words.
-/

set_option autoImplicit false

namespace CrapsStrategy.Text

/-- The words of a list of characters. -/
def wordsOf (cs : List Char) : List (List Char) :=
  (cs.splitOnP isBlank).filter fun word => !word.isEmpty

/-- The words of a text. -/
def words (s : String) : List String :=
  (wordsOf s.toList).map String.ofList

/-- The first word of a text, empty where there is none. -/
def firstWord (s : String) : String :=
  (words s).headD ""

end CrapsStrategy.Text
