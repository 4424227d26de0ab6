import CrapsStrategy.Json.Number

/-!
# `CrapsStrategy.Json.Reader`: documents from text

`Json.read?` reads one document and nothing after it but blanks. A
text is refused when it breaks the grammar, holds a lone surrogate
escape or a raw control character in a string, nests deeper than
`maxDepth`, or writes a number past the range. Of two fields with one
name the later counts.

Each reader returns what is left of its input with a bound on its
length, which is what makes the recursion end.
-/

set_option autoImplicit false

namespace CrapsStrategy.Json

/-- A result and the rest of the input, at most `bound` characters. -/
structure Scanned (α : Type) (bound : Nat) where
  value : α
  rest : List Char
  short : rest.length ≤ bound

namespace Scanned

variable {α β : Type} {bound : Nat}

/-- The result changed by `f`. -/
def map (f : α → β) (s : Scanned α bound) : Scanned β bound :=
  ⟨f s.value, s.rest, s.short⟩

/-- The same result under a greater bound. -/
def weaken {larger : Nat} (s : Scanned α bound) (h : bound ≤ larger) : Scanned α larger :=
  ⟨s.value, s.rest, Nat.le_trans s.short h⟩

/-- The same result where `more` characters stand before. -/
def later (more : Nat) (s : Scanned α bound) : Scanned α (bound + more) :=
  s.weaken (Nat.le_add_right _ _)

/-- A result from what another one left. -/
def through (s : Scanned α bound) (t : Scanned β s.rest.length) : Scanned β bound :=
  t.weaken s.short

end Scanned

/-- The depth of nesting at which a document is refused. -/
def maxDepth : Nat := 127

/-- The blanks of document text. -/
def isSpace (c : Char) : Bool :=
  c == ' ' || c == '\t' || c == '\n' || c == '\r'

/-- Dropping characters leaves no more of them, so readers come to an
end. -/
theorem length_dropWhile_le (p : Char → Bool) (cs : List Char) :
    (cs.dropWhile p).length ≤ cs.length :=
  (List.dropWhile_sublist p).length_le

/-! ## Strings -/

/-- The number of a hexadecimal digit. -/
def hexValue? (c : Char) : Option Nat :=
  if Text.isDigit c then some (Text.digitValue c)
  else if 'a' ≤ c ∧ c ≤ 'f' then some (c.toNat - 87)
  else if 'A' ≤ c ∧ c ≤ 'F' then some (c.toNat - 55)
  else none

/-- The number of four hexadecimal digits. -/
def hex4? (a b c d : Char) : Option Nat := do
  let a ← hexValue? a
  let b ← hexValue? b
  let c ← hexValue? c
  let d ← hexValue? d
  return ((a * 16 + b) * 16 + c) * 16 + d

/-- The character of an escape letter. -/
def escape? (c : Char) : Option Char :=
  match c with
  | '"' => some '"'
  | '\\' => some '\\'
  | '/' => some '/'
  | 'b' => some '\x08'
  | 'f' => some '\x0c'
  | 'n' => some '\n'
  | 'r' => some '\r'
  | 't' => some '\t'
  | _ => none

/-- The character that two surrogates stand for. -/
def pair? (high low : Nat) : Option Char :=
  if 0xDC00 ≤ low ∧ low ≤ 0xDFFF then
    some (Char.ofNat (0x10000 + (high - 0xD800) * 0x400 + (low - 0xDC00)))
  else none

/-- The number of a second escape right after the first. -/
def secondEscape? (cs : List Char) : Option (Scanned Nat cs.length) :=
  match cs with
  | '\\' :: 'u' :: a :: b :: c :: d :: rest => do
    let unit ← hex4? a b c d
    return Scanned.later 6 ⟨unit, rest, Nat.le_refl _⟩
  | _ => none

/-- The rest of a string after its opening quote. -/
def stringTail (cs : List Char) : Option (Scanned (List Char) cs.length) :=
  match cs with
  | '"' :: rest => some (Scanned.later 1 ⟨[], rest, Nat.le_refl _⟩)
  | '\\' :: 'u' :: a :: b :: c :: d :: rest => do
    let unit ← hex4? a b c d
    if 0xD800 ≤ unit ∧ unit ≤ 0xDBFF then
      -- The first of two surrogates needs the second right behind it.
      let low ← secondEscape? rest
      have _shorter := low.short
      let char ← pair? unit low.value
      let tail ← stringTail low.rest
      return (low.through (tail.map (char :: ·))).later 6
    else if 0xDC00 ≤ unit ∧ unit ≤ 0xDFFF then none
    else
      let tail ← stringTail rest
      return (tail.map (Char.ofNat unit :: ·)).later 6
  | '\\' :: c :: rest => do
    let char ← escape? c
    let tail ← stringTail rest
    return (tail.map (char :: ·)).later 2
  | c :: rest => do
    if c.toNat < 32 ∨ c = '\\' then none
    else
      let tail ← stringTail rest
      return (tail.map (c :: ·)).later 1
  | [] => none
termination_by cs.length

/-! ## Numbers -/

/-- Digits, at least one. -/
def someDigits (cs : List Char) : Option (Scanned (List Char) cs.length) :=
  let digits := cs.takeWhile Text.isDigit
  if digits = [] then none
  else some ⟨digits, cs.dropWhile Text.isDigit, length_dropWhile_le _ cs⟩

/-- Digits without a leading zero, or a zero. -/
def wholeDigits (cs : List Char) : Option (Scanned (List Char) cs.length) := do
  let digits ← someDigits cs
  match digits.value with
  | '0' :: _ :: _ => none
  | _ => return digits

/-- The fraction of a number, if a point follows. -/
def fraction (cs : List Char) : Option (Scanned (Option (List Char)) cs.length) :=
  match cs with
  | '.' :: rest => do
    let digits ← someDigits rest
    return (digits.map some).weaken (by simp)
  | cs => some ⟨none, cs, Nat.le_refl _⟩

/-- The exponent of a number, if its letter follows. -/
def exponent (cs : List Char) : Option (Scanned (Option (Bool × List Char)) cs.length) :=
  let signed (rest : List Char) : Option (Scanned (Option (Bool × List Char)) rest.length) :=
    match rest with
    | '-' :: rest => do
      let digits ← someDigits rest
      return (digits.map fun d => some (true, d)).weaken (by simp)
    | '+' :: rest => do
      let digits ← someDigits rest
      return (digits.map fun d => some (false, d)).weaken (by simp)
    | rest => do
      let digits ← someDigits rest
      return digits.map fun d => some (false, d)
  match cs with
  | 'e' :: rest => do return (← signed rest).weaken (by simp)
  | 'E' :: rest => do return (← signed rest).weaken (by simp)
  | cs => some ⟨none, cs, Nat.le_refl _⟩

/-- A number after its sign. -/
def number (negative : Bool) (cs : List Char) : Option (Scanned Json cs.length) := do
  let whole ← wholeDigits cs
  let fraction ← fraction whole.rest
  let exponent ← exponent fraction.rest
  let value ← NumberText.value?
    { negative, whole := whole.value, fraction := fraction.value, exponent := exponent.value }
  return ⟨value, exponent.rest,
    Nat.le_trans exponent.short (Nat.le_trans fraction.short whole.short)⟩

/-! ## Values -/

/-- The input without the blanks before it. -/
def skip (cs : List Char) : { rest : List Char // rest.length ≤ cs.length } :=
  ⟨cs.dropWhile isSpace, length_dropWhile_le _ cs⟩

/-- A fixed word, which stands for `json`. -/
def word (expected : List Char) (json : Json) (cs : List Char) : Option (Scanned Json cs.length) :=
  if expected.isPrefixOf cs then some ⟨json, cs.drop expected.length, by simp⟩ else none

/-- What follows the character `c`, if it is next but for blanks. -/
def after? (c : Char) (cs : List Char) : Option { rest : List Char // rest.length ≤ cs.length } :=
  match skip cs with
  | ⟨d :: rest, h⟩ => if c = d then some ⟨rest, by simp at h; omega⟩ else none
  | ⟨[], _⟩ => none

mutual

/-- A value, within `depth` more levels of nesting. -/
def value (depth : Nat) (cs : List Char) : Option (Scanned Json cs.length) :=
  match skip cs with
  | ⟨[], _⟩ => none
  | ⟨c :: rest, h⟩ =>
    have shorter : rest.length < cs.length := h
    if c = '"' then do
      let tail ← stringTail rest
      return (tail.map fun s => text (String.ofList s)).weaken (Nat.le_of_lt shorter)
    else if c = '[' then
      if depth = 0 then none
      else match after? ']' rest with
        | some ⟨after, h'⟩ => some ⟨array [], after, by omega⟩
        | none => do
          let tail ← items (depth - 1) rest
          return (tail.map array).weaken (Nat.le_of_lt shorter)
    else if c = '\x7b' then
      if depth = 0 then none
      else match after? '\x7d' rest with
        | some ⟨after, h'⟩ => some ⟨object [], after, by omega⟩
        | none => do
          let tail ← members (depth - 1) rest
          return (tail.map ofFields).weaken (Nat.le_of_lt shorter)
    else if c = '-' then do
      return (← number true rest).weaken (Nat.le_of_lt shorter)
    else if c = 't' then do
      return (← word ['r', 'u', 'e'] (bool true) rest).weaken (Nat.le_of_lt shorter)
    else if c = 'f' then do
      return (← word ['a', 'l', 's', 'e'] (bool false) rest).weaken (Nat.le_of_lt shorter)
    else if c = 'n' then do
      return (← word ['u', 'l', 'l'] null rest).weaken (Nat.le_of_lt shorter)
    else do
      return (← number false (c :: rest)).weaken h
termination_by (cs.length, 0)
decreasing_by all_goals exact Prod.Lex.left _ _ shorter

/-- The items of an array up to its closing bracket. -/
def items (depth : Nat) (cs : List Char) : Option (Scanned (List Json) cs.length) := do
  let item ← value depth cs
  match skip item.rest with
  | ⟨[], _⟩ => none
  | ⟨c :: rest, h⟩ =>
    have shorter : rest.length < cs.length := Nat.lt_of_lt_of_le h item.short
    if c = ']' then some ⟨[item.value], rest, Nat.le_of_lt shorter⟩
    else if c = ',' then
      let tail ← items depth rest
      return (tail.map (item.value :: ·)).weaken (Nat.le_of_lt shorter)
    else none
termination_by (cs.length, 1)
decreasing_by
  · exact Prod.Lex.right _ (by omega)
  · exact Prod.Lex.left _ _ shorter

/-- The fields of an object up to its closing brace. -/
def members (depth : Nat) (cs : List Char) :
    Option (Scanned (List (String × Json)) cs.length) :=
  match skip cs with
  | ⟨[], _⟩ => none
  | ⟨c :: rest, h⟩ =>
    if c ≠ '"' then none else do
    let name ← stringTail rest
    let ⟨afterColon, h'⟩ ← after? ':' name.rest
    have shorter : afterColon.length < cs.length :=
      Nat.lt_of_le_of_lt (Nat.le_trans h' name.short) h
    let field ← value depth afterColon
    match skip field.rest with
    | ⟨[], _⟩ => none
    | ⟨c :: rest', h''⟩ =>
      have shorter' : rest'.length < cs.length :=
        Nat.lt_trans (Nat.lt_of_lt_of_le h'' field.short) shorter
      let entry := (String.ofList name.value, field.value)
      if c = '\x7d' then some ⟨[entry], rest', Nat.le_of_lt shorter'⟩
      else if c = ',' then
        let tail ← members depth rest'
        return (tail.map (entry :: ·)).weaken (Nat.le_of_lt shorter')
      else none
termination_by (cs.length, 1)
decreasing_by
  · exact Prod.Lex.left _ _ shorter
  · exact Prod.Lex.left _ _ shorter'

end

/-- Reads a document. -/
def read? (s : String) : Option Json := do
  let document ← value maxDepth s.toList
  if document.rest.all isSpace then some document.value else none

end CrapsStrategy.Json
