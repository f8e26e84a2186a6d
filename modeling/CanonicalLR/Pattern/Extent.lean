import CanonicalLR.Pattern

/-!
Contract: what the shape of a pattern tells of its occurrences.

Owns:
- bounds of their lengths;
- whether they are bound to the beginning or the end of the text.

Does not own: the occurrences themselves.
-/

namespace CanonicalLR

namespace Pattern

/-- A length that no occurrence falls below; none is known where a part never occurs. -/
def leastLength? : Pattern → Option Nat
  | empty | assertion _ => some 0
  | literal characters => some characters.length
  | set members _ => if members.isEmpty then none else some 1
  | sequence first second => return (← first.leastLength?) + (← second.leastLength?)
  | choice left right => return min (← left.leastLength?) (← right.leastLength?)
  | repeated pattern least _ _ => return (← pattern.leastLength?) * least
  | group _ pattern => pattern.leastLength?

/-- A length that no occurrence goes beyond, if there is one. -/
def mostLength? : Pattern → Option Nat
  | empty | assertion _ => some 0
  | literal characters => some characters.length
  | set members _ => if members.isEmpty then none else some 1
  | sequence first second => return (← first.mostLength?) + (← second.mostLength?)
  | choice left right => return max (← left.mostLength?) (← right.mostLength?)
  | repeated pattern _ most? _ => return (← pattern.mostLength?) * (← most?)
  | group _ pattern => pattern.mostLength?

/-- Whether occurrences are known to take up no characters. -/
def isWidthless (pattern : Pattern) : Bool :=
  pattern.mostLength? = some 0

/-- Whether occurrences are known to take up characters. -/
def isWide (pattern : Pattern) : Bool :=
  pattern.leastLength?.any (0 < ·)

/-- Whether each occurrence asks for the beginning of the text where it begins. -/
def bindsStart : Pattern → Bool
  | assertion asserted => asserted = .textStart
  | empty | literal _ | set _ _ => false
  | sequence first second => first.bindsStart || (first.isWidthless && second.bindsStart)
  | choice left right => left.bindsStart && right.bindsStart
  | repeated pattern least _ _ => 0 < least && pattern.bindsStart
  | group _ pattern => pattern.bindsStart

/-- Whether each occurrence asks for the end of the text where it ends. -/
def bindsEnd : Pattern → Bool
  | assertion asserted => asserted = .textEnd
  | empty | literal _ | set _ _ => false
  | sequence first second => second.bindsEnd || (second.isWidthless && first.bindsEnd)
  | choice left right => left.bindsEnd && right.bindsEnd
  | repeated pattern least _ _ => 0 < least && pattern.bindsEnd
  | group _ pattern => pattern.bindsEnd

end Pattern

end CanonicalLR
