import CrapsStrategy.Decimal.Layout
import CrapsStrategy.Text.Quoted

/-!
# `CrapsStrategy.Token.Basic`: tokens of expression text

Guards, amounts and statements share one set of tokens. A name is a
dotted path and stays whole; `true`, `and`, `if` and their kin are
tokens of their own; the words of statements that scripts never have
are `reserved`. Every token stands at a `Position`, line and column
counted from one.
-/

set_option autoImplicit false

namespace CrapsStrategy

/-- A place in a text. Columns count characters. -/
structure Position where
  line : Nat
  column : Nat
deriving DecidableEq, Repr

namespace Position

/-- The first character of a text. -/
def start : Position :=
  { line := 1, column := 1 }

instance : Inhabited Position := ⟨start⟩

/-- The place after a character. -/
def advance (p : Position) (c : Char) : Position :=
  if c = '\n' then { line := p.line + 1, column := 1 }
  else { p with column := p.column + 1 }

/-- The place after some characters. -/
def advanceBy (p : Position) (cs : List Char) : Position :=
  cs.foldl advance p

end Position

/-- The punctuation and operators of expression text. -/
inductive Symbol where
  | floorDivideAssign | power | floorDivide | equal | notEqual | atMost | atLeast
  | plusAssign | minusAssign | timesAssign | divideAssign | remainderAssign
  | less | greater | assign | plus | minus | times | divide | remainder
  | openParen | closeParen | openBracket | closeBracket | comma | semicolon | colon
deriving DecidableEq, Repr

namespace Symbol

/-- The written form. -/
def text : Symbol → String
  | floorDivideAssign => "//="
  | power => "**"
  | floorDivide => "//"
  | equal => "=="
  | notEqual => "!="
  | atMost => "<="
  | atLeast => ">="
  | plusAssign => "+="
  | minusAssign => "-="
  | timesAssign => "*="
  | divideAssign => "/="
  | remainderAssign => "%="
  | less => "<"
  | greater => ">"
  | assign => "="
  | plus => "+"
  | minus => "-"
  | times => "*"
  | divide => "/"
  | remainder => "%"
  | openParen => "("
  | closeParen => ")"
  | openBracket => "["
  | closeBracket => "]"
  | comma => ","
  | semicolon => ";"
  | colon => ":"

/-- All symbols, a longer one before those it starts with. -/
def all : List Symbol :=
  [floorDivideAssign, power, floorDivide, equal, notEqual, atMost, atLeast, plusAssign,
    minusAssign, timesAssign, divideAssign, remainderAssign, less, greater, assign, plus, minus,
    times, divide, remainder, openParen, closeParen, openBracket, closeBracket, comma, semicolon,
    colon]

/-- The longest symbol at the start of a text. -/
def atStart? (cs : List Char) : Option Symbol :=
  all.find? fun symbol => symbol.text.toList.isPrefixOf cs

end Symbol

/-- The words that are tokens of their own. -/
inductive Keyword where
  | true | false | none | and | or | not | isIn | ifThen | otherwise
deriving DecidableEq, Repr

/-- A word as lists of tokens show it. -/
def Keyword.display : Keyword → String
  | true => "TRUE"
  | false => "FALSE"
  | none => "None"
  | and => "AND"
  | or => "OR"
  | not => "NOT"
  | isIn => "'in'"
  | ifThen => "'if'"
  | otherwise => "'else'"

/-- A token of expression text. -/
inductive Token where
  | int (i : Int64)
  | float (x : Binary64)
  | text (s : String)
  | name (path : String)
  | keyword (word : Keyword)
  | reserved (word : String)
  | symbol (s : Symbol)
  | newline
  | endOfInput
deriving DecidableEq

namespace Token

/-- A token as messages show it. -/
def display : Token → String
  | int i => toString i.toInt
  | float x => x.text
  | text s => Text.quote s
  | name path => "'" ++ path ++ "'"
  | keyword word => word.display
  | reserved word => "'" ++ word ++ "'"
  | symbol s => "'" ++ s.text ++ "'"
  | newline => "end of line"
  | endOfInput => "end of input"

end Token

/-- A token and where it starts. -/
structure Located where
  token : Token
  position : Position
deriving DecidableEq

instance : Inhabited Located := ⟨⟨.endOfInput, .start⟩⟩

end CrapsStrategy
