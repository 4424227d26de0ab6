import CrapsStrategy.Text.CaseTable

/-!
# `CrapsStrategy.Text.Lowercase`: lower-casing

Lower-casing follows the full case rules: most letters have one
partner, the dotted capital I lowers to two characters, and a
capital sigma at the end of a word lowers to the final form. A sigma
ends a word when a cased letter stands before it and none after it,
looking past the characters that case rules ignore.
-/

set_option autoImplicit false

namespace CrapsStrategy.Text

/-- Membership in a table of bounds: an odd number of them are at
most the code point. -/
def withinBounds (bounds : List Nat) (c : Char) : Bool :=
  bounds.foldl (fun inside bound => if bound ≤ c.toNat then !inside else inside) false

def isCased (c : Char) : Bool :=
  withinBounds casedBounds c

def isCaseIgnorable (c : Char) : Bool :=
  withinBounds caseIgnorableBounds c

/-- The lower-case partner of a letter on its own. The table agrees
with `Char.toLower` on ASCII, which goes first. -/
def lowerChar (c : Char) : Char :=
  if c.toNat < 128 then c.toLower else
  match loweringRuns.find? fun (first, last, stride, _) =>
      first ≤ c.toNat && c.toNat ≤ last && (c.toNat - first) % stride == 0 with
  | some (_, _, _, offset) => Char.ofNat ((c.toNat : Int) + offset).toNat
  | none => c

/-- Whether the first character that case rules do not ignore is
cased. -/
def startsCased (cs : List Char) : Bool :=
  match cs.dropWhile isCaseIgnorable with
  | c :: _ => isCased c
  | [] => false

/-- Lowers a text whose characters before it are `before`, the
nearest first. -/
def lowerFrom (before : List Char) : List Char → List Char
  | [] => []
  | c :: rest =>
    let lowered :=
      if c = 'İ' then ['i', '\u0307']
      else if c = 'Σ' then
        if startsCased before && !startsCased rest then ['ς'] else ['σ']
      else [lowerChar c]
    lowered ++ lowerFrom (c :: before) rest

/-- A text in lower case. -/
def lower (s : String) : String :=
  String.ofList (lowerFrom [] s.toList)

/-- The lower-case partner of an ASCII letter; all else stays. -/
def lowerAscii (s : String) : String :=
  s.map Char.toLower

end CrapsStrategy.Text
