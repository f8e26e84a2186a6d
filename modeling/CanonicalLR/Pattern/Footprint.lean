import CanonicalLR.Pattern.Encoding
import CanonicalLR.Pattern.Extent

/-!
Contract: how large a pattern is.

Owns:
- the bytes that the automaton of a pattern takes up, in both directions of reading;
- the limit that they must not exceed.

Does not own: a search by that automaton; occurrences are found without it.

The automaton reads the bytes of a text. Its states are equally large. A state that
reads several ranges of bytes also holds a transition for each, and a fork holds a link
for each state that it leads on to. A repetition holds as many copies as it counts.
-/

namespace CanonicalLR

/-- Whether a text is read from its beginning or from its end. -/
inductive Direction where
  | forward
  | backward
deriving DecidableEq

namespace Footprint

def state : Nat := 32

def transition : Nat := 8

def link : Nat := 4

/-- What it takes to lead on from a part, by whether it ends in a fork. -/
def lead (forks : Bool) : Nat :=
  if forks then link else 0

end Footprint

/-- What a part of an automaton takes up. A part that ends in a fork takes up a further
link when it is led on. A literal has a state for each byte, given as they are read. Of
a choice, `branches` is what the alternatives take up, and `literals?` are their bytes
if all of them are literals. -/
inductive Footprint where
  | part (bytes : Nat) (forks : Bool)
  | literal (bytes : List Nat)
  | choice (branches : Nat) (literals? : Option (List (List Nat)))

namespace Footprint

/-- What remains of the sequences that begin with the given ranges. -/
def remainders (sequences : List (List ByteRange)) (beginning : List ByteRange) :
    List (List ByteRange) :=
  (sequences.filter beginning.isPrefixOf).map (·.drop beginning.length)

/-- The beginnings of a sequence, the empty one and the whole of it included. -/
def beginnings (sequence : List ByteRange) : List (List ByteRange) :=
  (List.range (sequence.length + 1)).map sequence.take

/-- The states of sequences read forward: one for the end, and one for each different
remainder that is left behind a beginning. -/
def sharedEndings (sequences : List (List ByteRange)) : Nat :=
  let shorter := (sequences.flatMap fun sequence => (beginnings sequence).dropLast).eraseDups
  let different := (shorter.map (remainders sequences)).eraseDups
  state + (different.map fun remainder =>
    state + transition * (remainder.filterMap List.head?).eraseDups.length).foldr (· + ·) 0

/-- The states of sequences read backward: a fork, one for the end, and one for each
different beginning. -/
def sharedBeginnings (sequences : List (List ByteRange)) : Nat :=
  let different := (sequences.flatMap fun sequence => (beginnings sequence).tail).eraseDups
  2 * state + state * different.length + link * sequences.length

/-- One state reads all of the bytes of ASCII characters, and one is the end. -/
def ofSet (direction : Direction) (members : CharacterSet) : Footprint :=
  let sequences := members.runs.flatMap fun (first, last) => Encoding.sequences first last
  if members.runs.all fun (_, last) => last < 0x80 then
    part (2 * state + transition * members.runs.length) false
  else
    match direction with
    | .forward => part (sharedEndings sequences) false
    | .backward => part (sharedBeginnings sequences) false

/-- The endings of literals in groups: an ending of no bytes closes a group, unless it
only repeats the one before and no other has come yet. -/
def groups (opened : List (List Nat)) (closed : List (List (List Nat))) :
    List (List Nat) → List (List (List Nat))
  | [] => closed ++ [opened]
  | [] :: endings =>
      if opened.isEmpty && closed.all List.isEmpty && !closed.isEmpty then
        groups opened closed endings
      else
        groups [] (closed ++ [opened]) endings
  | ending :: endings => groups (opened ++ [ending]) closed endings

/-- The endings of literals that begin with a byte, without that byte. -/
def behind (byte : Nat) (endings : List (List Nat)) : List (List Nat) :=
  (endings.filter fun ending => ending.head? = some byte).map List.tail

/-- The states of a tree of literals, below a beginning with the given endings. Each
group has a state for its first bytes, and a fork leads to the groups and, between
them, to the end. -/
def tree : Nat → List (List Nat) → Nat
  | depth + 1, endings =>
      if endings.all List.isEmpty then
        0
      else
        let groups := groups [] [] endings
        let reading := groups.filter fun group => !group.isEmpty
        let inside := reading.map fun group =>
          let first := (group.filterMap List.head?).eraseDups
          let transitions := if first.length = 1 then 0 else transition * first.length
          let trees := first.map fun byte => tree depth (behind byte group)
          state + transitions + trees.foldr (· + ·) 0
        state + link * (reading.length + (groups.length - 1)) + inside.foldr (· + ·) 0
  | 0, _ => 0

/-- The bytes of a part. Literals alone form a tree; other alternatives are led to by
a fork and lead to one state for the end. -/
def bytes : Footprint → Nat
  | part bytes _ => bytes
  | literal bytes => state * bytes.length
  | choice _ (some literals) =>
      state + tree ((literals.map List.length).foldr (· + ·) 0 + 1) literals
  | choice branches none => 2 * state + branches

def forks : Footprint → Bool
  | part _ forks => forks
  | literal _ | choice _ _ => false

/-- What a part adds to a choice that it is an alternative of, or the alternatives of. -/
def branches : Footprint → Nat
  | choice branches _ => branches
  | alternative => alternative.bytes + link + lead alternative.forks

/-- The bytes of the alternatives of a part, if all of them are literals. -/
def literals? : Footprint → Option (List (List Nat))
  | part _ _ => none
  | literal bytes => some [bytes]
  | choice _ literals? => literals?

/-- All alternatives of both parts as one choice. -/
def either (left right : Footprint) : Footprint :=
  choice (left.branches + right.branches) do return (← left.literals?) ++ (← right.literals?)

def ofLiteral (direction : Direction) (characters : List Char) : Footprint :=
  let bytes := characters.flatMap fun character => Encoding.bytes character.toNat
  match direction with
  | .forward => literal bytes
  | .backward => literal bytes.reverse

/-- Two parts in the order of the text. -/
def followedBy (direction : Direction) (first second : Footprint) : Footprint :=
  match direction with
  | .forward => part (first.bytes + lead first.forks + second.bytes) second.forks
  | .backward => part (first.bytes + lead second.forks + second.bytes) first.forks

/-- So many copies in a row. -/
def copies (count : Nat) (copy : Footprint) : Footprint :=
  if count = 0 then part state false
  else part (count * copy.bytes + (count - 1) * lead copy.forks) copy.forks

/-- Any number of copies: the last one leads back to itself by a fork. A copy that may
take up no characters needs a second fork before it. -/
def unbounded (isWide : Bool) (copy : Footprint) : Nat → Footprint
  | 0 =>
      if isWide then part (state + copy.bytes + link + lead copy.forks) true
      else part (3 * state + copy.bytes + 4 * link + lead copy.forks) false
  | 1 => part (copy.bytes + state + lead copy.forks + link) true
  | count + 2 =>
      let before := copies (count + 1) copy
      part (before.bytes + lead before.forks + copy.bytes + state + lead copy.forks + link) true

/-- Copies that may be left out, each behind a fork, and one state for the end. -/
def optional (count : Nat) (copy : Footprint) : Nat :=
  state + count * (state + copy.bytes + 2 * link + lead copy.forks)

/-- A repetition between `least` and `most?` times. -/
def repeated (isWide : Bool) (copy : Footprint) (least : Nat) (most? : Option Nat) : Footprint :=
  match most? with
  | none => unbounded isWide copy least
  | some most =>
      if least = most then
        copies least copy
      else if least = 0 ∧ most = 1 then
        part (optional 1 copy) false
      else
        let needed := copies least copy
        part (needed.bytes + lead needed.forks + optional (most - least) copy) false

/-- A group that is marked where it begins and where it ends. Read backward it is not. -/
def group (direction : Direction) (inside : Footprint) : Footprint :=
  match direction with
  | .forward => part (2 * state + inside.bytes + lead inside.forks) false
  | .backward => part inside.bytes inside.forks

end Footprint

namespace Pattern

def footprint (direction : Direction) : Pattern → Footprint
  | empty | assertion _ => .part Footprint.state false
  | literal characters => .ofLiteral direction characters
  | set members _ => .ofSet direction members
  | sequence first second =>
      (first.footprint direction).followedBy direction (second.footprint direction)
  | choice left right => (left.footprint direction).either (right.footprint direction)
  | repeated pattern least most? _ =>
      (pattern.footprint direction).repeated pattern.isWide least most?
  | group _ pattern => (pattern.footprint direction).group direction

/-- The bytes of the whole automaton. Unless the pattern is bound to where the reading
begins, a loop over all bytes stands before it; forward, the whole is a group. -/
def size (direction : Direction) (pattern : Pattern) : Nat :=
  let isBound :=
    match direction with
    | .forward => pattern.bindsStart
    | .backward => pattern.bindsEnd
  let loop := 3 * Footprint.state + Footprint.transition + 2 * Footprint.link
  let whole := (pattern.footprint direction).group direction
  (if isBound then Footprint.state else loop) + whole.bytes + Footprint.lead whole.forks +
    Footprint.state

/-- The bytes that an automaton may take up: ten mebibytes. -/
def sizeLimit : Nat := 10 * 1024 * 1024

/-- Whether the automaton of a direction is too large to be made. -/
def exceeds (direction : Direction) (pattern : Pattern) : Bool :=
  sizeLimit < pattern.size direction

end Pattern

end CanonicalLR
