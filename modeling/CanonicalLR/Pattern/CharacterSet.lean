import CanonicalLR.Ascending.Combination

/-!
Contract: sets of characters.

Owns:
- sets as runs of codes, membership, and the operations on them;
- the sets of ASCII characters that have a name.

Does not own: how sets are written.

A set is made from the codes at which membership can change and from the membership
of those codes: between two neighbours of them it stays the same. The runs that come
out are as long as they can be, so sets with the same characters are equal.
-/

namespace CanonicalLR

/-- `runs` are the first and the last codes of the runs of members, in ascending order. -/
structure CharacterSet where
  runs : List (Nat × Nat)
deriving DecidableEq

namespace CharacterSet

def containsCode (set : CharacterSet) (code : Nat) : Bool :=
  set.runs.any fun (first, last) => first ≤ code && code ≤ last

def contains (set : CharacterSet) (character : Char) : Bool :=
  set.containsCode character.toNat

/-- The runs of codes that `holds` is true of, up to the last bound. It is constant
from each bound up to the next one. -/
def runsBetween (holds : Nat → Bool) : List Nat → List (Nat × Nat)
  | start :: next :: bounds =>
      let later := runsBetween holds (next :: bounds)
      if !holds start then
        later
      else
        match later with
        | (first, last) :: runs =>
            if first = next then (start, last) :: runs else (start, next - 1) :: later
        | [] => [(start, next - 1)]
  | _ => []

/-- The ends of the codes, and of those in their middle that are no characters. -/
def outerBounds : List Nat := [0, 0xd800, 0xe000, 0x110000]

/-- The characters whose codes `holds` is true of. It changes at the given bounds
only, which stand in ascending order. -/
def ofBounds (bounds : List Nat) (holds : Nat → Bool) : CharacterSet :=
  ⟨runsBetween (fun code => code.isValidChar && holds code) (Ascending.unite bounds outerBounds)⟩

/-- The codes at which membership changes. -/
def bounds (set : CharacterSet) : List Nat :=
  set.runs.flatMap fun (first, last) => [first, last + 1]

def isEmpty (set : CharacterSet) : Bool :=
  set.runs.isEmpty

def none : CharacterSet := ⟨[]⟩

def range (first last : Char) : CharacterSet :=
  if last < first then none
  else ofBounds [first.toNat, last.toNat + 1] fun code => first.toNat ≤ code && code ≤ last.toNat

def singleton (character : Char) : CharacterSet :=
  range character character

/-- The characters of which `holds` is true, by their membership in two sets. -/
def combine (holds : Bool → Bool → Bool) (left right : CharacterSet) : CharacterSet :=
  ofBounds (Ascending.unite left.bounds right.bounds) fun code =>
    holds (left.containsCode code) (right.containsCode code)

def union : CharacterSet → CharacterSet → CharacterSet :=
  combine fun inLeft inRight => inLeft || inRight

def intersection : CharacterSet → CharacterSet → CharacterSet :=
  combine fun inLeft inRight => inLeft && inRight

def difference : CharacterSet → CharacterSet → CharacterSet :=
  combine fun inLeft inRight => inLeft && !inRight

def symmetricDifference : CharacterSet → CharacterSet → CharacterSet :=
  combine fun inLeft inRight => inLeft != inRight

def complement (set : CharacterSet) : CharacterSet :=
  ofBounds set.bounds fun code => !set.containsCode code

def all : CharacterSet :=
  complement none

def ofRanges (ranges : List (Char × Char)) : CharacterSet :=
  ranges.foldr (fun (first, last) set => (range first last).union set) none

def capitals : CharacterSet := range 'A' 'Z'

def smallLetters : CharacterSet := range 'a' 'z'

/-- How far a small letter of ASCII stands behind its capital. -/
def caseDistance : Nat := 'a'.toNat - 'A'.toNat

/-- The members with every ASCII letter in both cases. -/
def eitherCase (set : CharacterSet) : CharacterSet :=
  let small := set.intersection smallLetters
  let capital := set.intersection capitals
  let raised : CharacterSet :=
    ⟨small.runs.map fun (first, last) => (first - caseDistance, last - caseDistance)⟩
  let lowered : CharacterSet :=
    ⟨capital.runs.map fun (first, last) => (first + caseDistance, last + caseDistance)⟩
  set.union (raised.union lowered)

def digits : CharacterSet := range '0' '9'

def spaces : CharacterSet := ofRanges [('\t', '\r'), (' ', ' ')]

def words : CharacterSet := ofRanges [('0', '9'), ('A', 'Z'), ('_', '_'), ('a', 'z')]

/-- The sets of ASCII characters by their names. -/
def named? : String → Option CharacterSet
  | "alnum" => some (ofRanges [('0', '9'), ('A', 'Z'), ('a', 'z')])
  | "alpha" => some (ofRanges [('A', 'Z'), ('a', 'z')])
  | "ascii" => some (range '\x00' '\x7f')
  | "blank" => some (ofRanges [('\t', '\t'), (' ', ' ')])
  | "cntrl" => some (ofRanges [('\x00', '\x1f'), ('\x7f', '\x7f')])
  | "digit" => some digits
  | "graph" => some (range '!' '\x7e')
  | "lower" => some smallLetters
  | "print" => some (range ' ' '\x7e')
  | "punct" =>
      some (ofRanges [('!', '/'), (':', '@'), ('\x5b', '\x60'), ('\x7b', '\x7e')])
  | "space" => some spaces
  | "upper" => some capitals
  | "word" => some words
  | "xdigit" => some (ofRanges [('0', '9'), ('A', 'F'), ('a', 'f')])
  | _ => Option.none

end CharacterSet

end CanonicalLR
