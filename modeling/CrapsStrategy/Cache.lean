import CrapsStrategy.Fault
import CrapsStrategy.Text.Blank

/-!
# `CrapsStrategy.Cache`: compiled texts, kept once

A cache keeps one compiled form for each text, blanks around it
aside. A form is known by its slot, the number of forms kept before
it, and no slot is ever changed or given up.

Asking takes two steps that may interleave with those of others:
`find?` looks the text up, and `keep` stores a form unless the text
has one by then, and gives back the one that is kept.
-/

set_option autoImplicit false

namespace CrapsStrategy

/-- The kept forms with their texts, the oldest first. -/
structure Cache (α : Type) where
  entries : List (String × α)

namespace Cache

variable {α : Type}

def empty : Cache α :=
  { entries := [] }

/-- A kept form and its slot. -/
structure Kept (α : Type) where
  slot : Nat
  form : α

/-- The form of a text in a list of entries, counted from `slot`. -/
def findFrom (key : String) (slot : Nat) : List (String × α) → Option (Kept α)
  | [] => none
  | (k, form) :: rest => if k = key then some { slot, form } else findFrom key (slot + 1) rest

/-- The kept form of a text. -/
def find? (c : Cache α) (key : String) : Option (Kept α) :=
  findFrom key 0 c.entries

/-- Stores a form unless its text has one, and gives back the kept
one. -/
def keep (c : Cache α) (key : String) (form : α) : Cache α × Kept α :=
  match c.find? key with
  | some kept => (c, kept)
  | none => ({ entries := c.entries ++ [(key, form)] }, { slot := c.entries.length, form })

/-- The kept form of a text, compiled if there is none. A text that
does not compile leaves nothing behind. -/
def getOrCompile (c : Cache α) (compile : String → Except Fault α) (source : String) :
    Cache α × Except Fault (Kept α) :=
  let key := Text.trim source
  match c.find? key with
  | some kept => (c, .ok kept)
  | none =>
    match compile key with
    | .ok form =>
      let (c, kept) := c.keep key form
      (c, .ok kept)
    | .error fault => (c, .error fault)

/-- The number of kept forms. -/
def size (c : Cache α) : Nat :=
  c.entries.length

def isEmpty (c : Cache α) : Bool :=
  c.entries.isEmpty

end Cache

end CrapsStrategy
