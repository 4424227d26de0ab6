import CrapsStrategy.Decimal.Reader
import CrapsStrategy.Fault
import CrapsStrategy.Text.Blank

/-!
# `CrapsStrategy.Token.Lexer`: text to tokens

The lexer cuts a text into pieces. A piece (`Piece`) is a first
character and the number of characters that go with it, and either
stands for a token or for nothing, as blanks and comments do. The
text is exactly the pieces in a row, so the position of a token is
the position after all characters before it.

Conditions are one expression: their line ends are blank and they
have no comments. Scripts have statements: a line end outside
brackets is a token, and `#` starts a comment.
-/

set_option autoImplicit false

namespace CrapsStrategy

/-- The two dialects of expression text. -/
inductive Dialect where
  | condition | script
deriving DecidableEq, Repr

/-- The token a piece of text stands for, if any, and the number of
characters after its first. -/
structure Piece where
  token : Option Token
  more : Nat

namespace Lexer

/-- The words of statements that scripts never have. -/
def reservedWords : List String :=
  ["for", "while", "def", "class", "import", "from", "lambda", "return", "yield", "with", "try",
    "except", "finally", "global", "nonlocal", "del", "async", "await", "pass", "break",
    "continue", "raise", "assert", "is"]

/-- A character that starts a name. -/
def isNameStart (c : Char) : Bool :=
  Text.isLetter c || c == '_'

/-- A character inside a name. -/
def isNameChar (c : Char) : Bool :=
  isNameStart c || Text.isDigit c

/-- The character of an escape letter in a text literal. -/
def escape? (c : Char) : Option Char :=
  match c with
  | 'n' => some '\n'
  | 'r' => some '\r'
  | 't' => some '\t'
  | '\'' => some '\''
  | '"' => some '"'
  | '\\' => some '\\'
  | _ => none

/-- The content of a text literal after its opening quote, and the
number of characters up to and with its closing quote. An escape that
is not known keeps its backslash. -/
def textBody? (quote : Char) : List Char → Option (List Char × Nat)
  | [] => none
  | c :: rest =>
    if c = quote then some ([], 1)
    else if c = '\\' then
      match rest with
      | [] => none
      | d :: rest =>
        (textBody? quote rest).map fun (content, length) =>
          (match escape? d with
            | some e => e :: content
            | none => '\\' :: d :: content, length + 2)
    else (textBody? quote rest).map fun (content, length) => (c :: content, length + 1)

/-- A text literal that opens with `quote`. -/
def textPiece (quote : Char) (position : Position) (rest : List Char) : Except Fault Piece :=
  match textBody? quote rest with
  | some (content, length) =>
    .ok { token := some (.text (String.ofList content)), more := length }
  | none => .error (.syntaxAt position .unterminatedText)

/-- The digits of a number literal: those before the point, and those
after it with the point in front if there are any. -/
def splitNumber (cs : List Char) : List Char × List Char :=
  let whole := cs.takeWhile Text.isDigit
  match cs.dropWhile Text.isDigit with
  | '.' :: rest =>
    match rest.takeWhile Text.isDigit with
    -- A point with no digit behind it is left for the next piece.
    | [] => (whole, [])
    | digits => (whole, '.' :: digits)
  | _ => (whole, [])

/-- The value of a number literal. -/
def numberToken (whole fraction : List Char) : Except SyntaxFault Token :=
  if fraction = [] then
    let n := Text.natOfDigits whole
    if (n : Int) ≤ Binary64.maxInt then .ok (.int (Int64.ofNat n))
    else .error (.hugeInteger (String.ofList whole))
  else
    .ok (.float (Decimal.nearestDouble false (Text.natOfDigits (whole ++ fraction.drop 1))
      (1 - (fraction.length : Int))))

/-- A number literal, which no letter may follow. -/
def numberPiece (position : Position) (cs : List Char) : Except Fault Piece :=
  let (whole, fraction) := splitNumber cs
  let lexeme := whole ++ fraction
  if (cs.drop lexeme.length).head?.any isNameStart then
    .error (.syntaxAt position (.badNumber (String.ofList lexeme)))
  else
    match numberToken whole fraction with
    | .ok token => .ok { token := some token, more := lexeme.length - 1 }
    | .error fault => .error (.syntaxAt position fault)

/-- The number of characters of a dotted name; a point belongs to it
when a name character follows. -/
def nameLength : List Char → Nat
  | [] => 0
  | '.' :: c :: rest => if isNameChar c then nameLength (c :: rest) + 1 else 0
  | c :: rest => if isNameChar c then nameLength rest + 1 else 0

/-- The segments of a dotted name. -/
def segments (cs : List Char) : List (List Char) :=
  cs.splitOn '.'

/-- Whether two low lines stand in a row. -/
def hasDunder : List Char → Bool
  | '_' :: '_' :: _ => true
  | _ :: rest => hasDunder rest
  | [] => false

/-- The token of a word, any case of letters. -/
def wordToken (word : String) : Token :=
  match Text.lowerAscii word with
  | "true" => .keyword .true
  | "false" => .keyword .false
  | "none" => .keyword .none
  | "and" => .keyword .and
  | "or" => .keyword .or
  | "not" => .keyword .not
  | "in" => .keyword .isIn
  | "if" => .keyword .ifThen
  | "else" => .keyword .otherwise
  | lowered => if reservedWords.contains lowered then .reserved lowered else .name word

/-- A name or a word. No segment may hold two low lines in a row. -/
def namePiece (position : Position) (cs : List Char) : Except Fault Piece :=
  let path := cs.take (nameLength cs)
  match (segments path).find? hasDunder with
  | some segment => .error (.syntaxAt position (.forbiddenSegment (String.ofList segment)))
  | none =>
    let text := String.ofList path
    -- Only a path of one segment may be a word.
    let token := if path.contains '.' then .name text else wordToken text
    .ok { token := some token, more := path.length - 1 }

/-- An operator or a punctuation mark. -/
def symbolPiece (position : Position) (c : Char) (rest : List Char) : Except Fault Piece :=
  match Symbol.atStart? (c :: rest) with
  | some symbol =>
    .ok { token := some (.symbol symbol), more := symbol.text.toList.length - 1 }
  | none => .error (.syntaxAt position (.unexpectedChar c))

/-- The piece at the start of a text, inside `depth` brackets. -/
def piece (dialect : Dialect) (depth : Nat) (position : Position) (c : Char) (rest : List Char) :
    Except Fault Piece :=
  if c = '\n' then
    .ok { token := if dialect = .script ∧ depth = 0 then some .newline else none, more := 0 }
  else if Text.isBlank c then .ok { token := none, more := 0 }
  else if dialect = .script ∧ c = '#' then
    .ok { token := none, more := (rest.takeWhile (· ≠ '\n')).length }
  else if c = '\'' ∨ c = '"' then textPiece c position rest
  else if Text.isDigit c then numberPiece position (c :: rest)
  else if isNameStart c then namePiece position (c :: rest)
  else symbolPiece position c rest

/-- The depth of brackets after a token; a closing one too many
changes nothing. -/
def depthAfter (depth : Nat) : Option Token → Nat
  | some (.symbol .openParen) | some (.symbol .openBracket) => depth + 1
  | some (.symbol .closeParen) | some (.symbol .closeBracket) => depth - 1
  | _ => depth

/-- The tokens of a text that starts at a position, inside `depth`
brackets. The last one is the end of the input. -/
def scan (dialect : Dialect) (depth : Nat) (position : Position) (cs : List Char) :
    Except Fault (List Located) :=
  match cs with
  | [] => .ok [⟨.endOfInput, position⟩]
  | c :: rest => do
    let piece ← piece dialect depth position c rest
    let tokens ← scan dialect (depthAfter depth piece.token)
      (position.advanceBy (c :: rest.take piece.more)) (rest.drop piece.more)
    return match piece.token with
      | some token => ⟨token, position⟩ :: tokens
      | none => tokens
termination_by cs.length
decreasing_by simp only [List.length_drop, List.length_cons]; omega

end Lexer

/-- The tokens of a text. -/
def tokenize (dialect : Dialect) (source : String) : Except Fault (List Located) :=
  Lexer.scan dialect 0 .start source.toList

end CrapsStrategy
