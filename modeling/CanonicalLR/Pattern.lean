import CanonicalLR.Pattern.CharacterSet

/-!
Contract: patterns of text.

Owns:
- patterns, and the assertions that they make of places in a text.

Does not own: how patterns are written and put into their form, and where they occur.

The places in a text are the gaps between its characters, the one before the first
and the one behind the last included.
-/

namespace CanonicalLR

/-- A place in a text, with the character before it and all that comes behind it. -/
structure Gap where
  before? : Option Char
  rest : List Char
deriving DecidableEq

namespace Gap

def after? (gap : Gap) : Option Char :=
  gap.rest.head?

/-- The gaps from the one behind `before?` to the end of the text. -/
def listFrom (before? : Option Char) : List Char → List Gap
  | [] => [⟨before?, []⟩]
  | character :: rest => ⟨before?, character :: rest⟩ :: listFrom (some character) rest

def ofText (text : String) : List Gap :=
  listFrom none text.toList

end Gap

/-- The places that words make. The half edges look to one side only. -/
inductive WordPlace where
  | edge
  | noEdge
  | start
  | stop
  | startHalf
  | stopHalf
deriving DecidableEq

namespace WordPlace

/-- Whether a place is of the kind, by whether a word stands before and behind it. -/
def holds (place : WordPlace) (before after : Bool) : Bool :=
  match place with
  | edge => before != after
  | noEdge => before == after
  | start => !before && after
  | stop => before && !after
  | startHalf => !before
  | stopHalf => !after

end WordPlace

/-- What can be asserted of a place. `asciiWord` is about words of ASCII letters,
digits and underscores. `anyWord` is about words of all letters there are; no table
of those is at hand, so it never holds, and no pattern with it is made use of. -/
inductive Assertion where
  | textStart
  | textEnd
  | lineStart
  | lineEnd
  | anyLineStart
  | anyLineEnd
  | asciiWord (place : WordPlace)
  | anyWord (place : WordPlace)
deriving DecidableEq

namespace Assertion

/-- Any line may also end with a carriage return, but a place between a carriage
return and a line feed is neither start nor end of a line. -/
def holds (assertion : Assertion) (gap : Gap) : Bool :=
  match assertion with
  | textStart => gap.before? = none
  | textEnd => gap.after? = none
  | lineStart => gap.before? = none || gap.before? = some '\n'
  | lineEnd => gap.after? = none || gap.after? = some '\n'
  | anyLineStart =>
      gap.before? = none || gap.before? = some '\n' ||
        (gap.before? = some '\r' && gap.after? ≠ some '\n')
  | anyLineEnd =>
      gap.after? = none || gap.after? = some '\r' ||
        (gap.after? = some '\n' && gap.before? ≠ some '\r')
  | asciiWord place =>
      place.holds (gap.before?.any CharacterSet.words.contains)
        (gap.after?.any CharacterSet.words.contains)
  | anyWord _ => false

end Assertion

/-- A group is a pattern whose occurrences could be asked for by number. Whether a set is
one of bytes, and whether a repetition prefers fewer occurrences, makes no difference to
where they occur, but patterns that differ in it are different. -/
inductive Pattern where
  | empty
  | literal (characters : List Char)
  | set (members : CharacterSet) (ofBytes : Bool)
  | assertion (asserted : Assertion)
  | sequence (first second : Pattern)
  | choice (left right : Pattern)
  | repeated (pattern : Pattern) (least : Nat) (most? : Option Nat) (prefersFewer : Bool)
  | group (number : Nat) (pattern : Pattern)
deriving DecidableEq

namespace Pattern

/-- Whether the pattern asks for words of more than ASCII characters. -/
def asksForAnyWord : Pattern → Bool
  | assertion (.anyWord _) => true
  | empty | literal _ | set _ _ | assertion _ => false
  | sequence first second => first.asksForAnyWord || second.asksForAnyWord
  | choice left right => left.asksForAnyWord || right.asksForAnyWord
  | repeated pattern _ _ _ => pattern.asksForAnyWord
  | group _ pattern => pattern.asksForAnyWord

end Pattern

end CanonicalLR
