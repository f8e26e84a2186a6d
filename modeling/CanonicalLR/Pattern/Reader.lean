import CanonicalLR.Pattern
import CanonicalLR.Pattern.Fault
import CanonicalLR.Whitespace

/-!
Contract: the reader of written patterns.

Owns:
- the state of a reading, and how it moves over characters;
- the two ways of finding faults.

Does not own: what characters mean.

A fault in the writing ends the reading. What is written well but cannot be
matched is only noted, and counts if the rest is written well too.
-/

namespace CanonicalLR

/-- The settings that a pattern can change. `anyLineEnds` lets a carriage return
end a line, `spaced` makes white space and comments stand for nothing, and
`prefersFewer` exchanges what repetitions prefer. -/
structure PatternMode where
  caseless : Bool
  multiLine : Bool
  dotMatchesAll : Bool
  anyLineEnds : Bool
  ascii : Bool
  spaced : Bool
  prefersFewer : Bool
deriving DecidableEq

/-- `groupCount` is the number of groups that have been opened, and `refusal?` is what
was first found that cannot be matched. -/
structure PatternReader where
  offset : Nat
  rest : List Char
  mode : PatternMode
  groupCount : Nat
  groupNames : List (String × Span)
  refusal? : Option (PatternFault × Span)

abbrev Reading := StateT PatternReader (Except PatternError)

namespace PatternReader

def ofText (text : String) : PatternReader :=
  ⟨0, text.toList, ⟨false, false, false, false, false, false, false⟩, 0, [], none⟩

/-- The number of characters that white space and comments take up. A comment runs
from a hash sign to the end of its line. -/
def spaceLength (inComment : Bool) : List Char → Nat
  | [] => 0
  | character :: rest =>
      if inComment then
        1 + spaceLength (character ≠ '\n') rest
      else if character = '#' then
        1 + spaceLength true rest
      else if Whitespace.contains character then
        1 + spaceLength false rest
      else
        0

def drop (reader : PatternReader) (count : Nat) : PatternReader :=
  { reader with offset := reader.offset + count, rest := reader.rest.drop count }

def dropSpace (reader : PatternReader) : PatternReader :=
  if reader.mode.spaced then reader.drop (spaceLength false reader.rest) else reader

end PatternReader

namespace Reading

def fail {α : Type} (fault : PatternFault) (span : Span) : Reading α :=
  throw (.found fault span none)

def refuse (fault : PatternFault) (span : Span) : Reading Unit :=
  modify fun reader => { reader with refusal? := reader.refusal?.or (some (fault, span)) }

/-- The number of the group that is opened. -/
def nextGroup : Reading Nat := do
  let number := (← get).groupCount
  modify fun reader => { reader with groupCount := number + 1 }
  return number

def mode : Reading PatternMode := do
  return (← get).mode

def setMode (mode : PatternMode) : Reading Unit :=
  modify fun reader => { reader with mode }

def offset : Reading Nat := do
  return (← get).offset

def peek? : Reading (Option Char) := do
  return (← get).rest.head?

/-- The characters from number `first` on that have been passed. -/
def spanFrom (first : Nat) : Reading Span := do
  return ⟨first, ← offset⟩

/-- The next character. -/
def nextSpan : Reading Span := do
  let first ← offset
  return ⟨first, first + 1⟩

/-- The place before the next character. -/
def emptySpan : Reading Span := do
  spanFrom (← offset)

def advance : Reading Unit :=
  modify fun reader => reader.drop 1

def skipSpace : Reading Unit :=
  modify PatternReader.dropSpace

/-- Pass one character and the space behind it. -/
def advanceSpaced : Reading Unit := do
  advance
  skipSpace

/-- Pass `text` if it comes next. -/
def take (text : String) : Reading Bool := do
  let reader ← get
  if text.toList.isPrefixOf reader.rest then
    set (reader.drop text.length)
    return true
  else
    return false

def takeAtMost (belongs : Char → Bool) : Nat → Reading (List Char)
  | 0 => return []
  | count + 1 => do
      match ← peek? with
      | none => return []
      | some character =>
          if belongs character then
            advanceSpaced
            return character :: (← takeAtMost belongs count)
          else
            return []

/-- Pass the characters that belong, with the space behind each, and give them. -/
def takeWhile (belongs : Char → Bool) : Reading (List Char) := do
  takeAtMost belongs (← get).rest.length

end Reading

end CanonicalLR
