import CanonicalLR.Pattern.Extent

/-!
Contract: patterns in their form.

Owns:
- the making of patterns from parts, alternatives and repetitions.

Does not own: how patterns are written.

In the form, neighbouring literals are one, a sequence holds no sequences and no empty
patterns, a choice holds no choices, and alternatives of single characters are a set.
What all alternatives begin with stands before the choice. Both are chains to the right.
-/

namespace CanonicalLR

namespace Pattern

/-- A set of no characters. It occurs nowhere. -/
def never : Pattern :=
  set .none true

/-- A set of one character is that character, and all sets of none are the same. -/
def ofSet (members : CharacterSet) (ofBytes : Bool) : Pattern :=
  match members.runs with
  | [] => never
  | [(first, last)] => if first = last then literal [Char.ofNat first] else set members ofBytes
  | _ => set members ofBytes

/-- The patterns that follow each other in a pattern. -/
def parts : Pattern → List Pattern
  | empty => []
  | sequence first second => first.parts ++ second.parts
  | pattern => [pattern]

def joinLiterals : List Pattern → List Pattern
  | [] => []
  | literal characters :: patterns =>
      match joinLiterals patterns with
      | literal more :: others => literal (characters ++ more) :: others
      | joined => literal characters :: joined
  | pattern :: patterns => pattern :: joinLiterals patterns

def chainParts : List Pattern → Pattern
  | [] => empty
  | [pattern] => pattern
  | pattern :: patterns => sequence pattern (chainParts patterns)

/-- The patterns one after the other. -/
def ofParts (patterns : List Pattern) : Pattern :=
  chainParts (joinLiterals (patterns.flatMap parts))

/-- The patterns that a pattern chooses between. -/
def alternatives : Pattern → List Pattern
  | choice left right => left.alternatives ++ right.alternatives
  | pattern => [pattern]

def chainAlternatives : List Pattern → Pattern
  | [] => never
  | [pattern] => pattern
  | pattern :: patterns => choice pattern (chainAlternatives patterns)

/-- The set with just the character that a literal consists of. -/
def characterSet? : Pattern → Option CharacterSet
  | literal [character] => some (.singleton character)
  | _ => none

def set? : Pattern → Option CharacterSet
  | set members _ => some members
  | _ => none

/-- One of the patterns, where the form keeps each as it is unless all are single
characters or all are sets. -/
def eitherOf (patterns : List Pattern) : Pattern :=
  match patterns with
  | [pattern] => pattern
  | _ =>
      match (patterns.mapM characterSet?).orElse fun _ => patterns.mapM set? with
      | some sets => ofSet (sets.foldl .union .none) false
      | none => chainAlternatives patterns

def commonBeginning : List Pattern → List Pattern → List Pattern
  | left :: lefts, right :: rights =>
      if left = right then left :: commonBeginning lefts rights else []
  | _, _ => []

/-- The parts of a sequence. -/
def sequenceParts : Pattern → List Pattern
  | sequence first second => (sequence first second).parts
  | _ => []

/-- What several sequences all begin with. -/
def sharedParts : List Pattern → List Pattern
  | first :: second :: patterns =>
      ((second :: patterns).map sequenceParts).foldl commonBeginning first.sequenceParts
  | _ => []

/-- One of the patterns. -/
def ofAlternatives (patterns : List Pattern) : Pattern :=
  let patterns := patterns.flatMap alternatives
  let shared := sharedParts patterns
  if shared.isEmpty then
    eitherOf patterns
  else
    let remainders := patterns.map fun pattern => ofParts (pattern.parts.drop shared.length)
    ofParts (shared ++ [eitherOf (remainders.flatMap alternatives)])

/-- Between `least` and `most?` occurrences in a row. One that takes up no characters
need not be repeated. -/
def ofRepetition (pattern : Pattern) (least : Nat) (most? : Option Nat) (prefersFewer : Bool) :
    Pattern :=
  let (least, most?) :=
    if pattern.isWidthless then (min least 1, some (min (most?.getD 1) 1)) else (least, most?)
  match least, most? with
  | 0, some 0 => empty
  | 1, some 1 => pattern
  | least, most? => repeated pattern least most? prefersFewer

end Pattern

end CanonicalLR
