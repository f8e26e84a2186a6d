import CanonicalLR.Pattern.Escape
import CanonicalLR.Pattern.Form
import CanonicalLR.Pattern.Nesting

/-!
Contract: classes of characters in patterns.

Owns:
- the reading of a class in square brackets, with the classes inside of it;
- the characters that stand for themselves, in a class and outside.

Does not own: escapes, and what stands around a class.

The members of a class form a union. Two unions can be combined by an operator;
of several operators the first one binds first.
-/

namespace CanonicalLR

inductive SetOperator where
  | intersection
  | difference
  | symmetricDifference
deriving DecidableEq

def SetOperator.apply : SetOperator → CharacterSet → CharacterSet → CharacterSet
  | intersection, left, right => left.intersection right
  | difference, left, right => left.difference right
  | symmetricDifference, left, right => left.symmetricDifference right

/-- The union of the members read so far. The span of no members is the place where
they may begin. -/
structure Members where
  set : CharacterSet
  span : Span
  count : Nat
  nesting : Nesting

namespace Members

def none (offset : Nat) : Members :=
  ⟨.none, ⟨offset, offset⟩, 0, []⟩

def one (set : CharacterSet) (span : Span) (nesting : Nesting) : Members :=
  ⟨set, span, 1, nesting⟩

def isEmpty (members : Members) : Bool :=
  members.count = 0

def add (members : Members) (set : CharacterSet) (span : Span) (nesting : Nesting) : Members :=
  let first := if members.isEmpty then span.first else members.span.first
  ⟨members.set.union set, ⟨first, span.last⟩, members.count + 1, members.nesting.before nesting⟩

/-- The parts of the union. Several members are nested in it, a single one is all of it. -/
def wholeNesting (members : Members) : Nesting :=
  if members.count ≤ 1 then members.nesting else members.nesting.around members.span

end Members

/-- A class that has been opened. `opening` spans its beginning, `outer` are the
members that stand before it in the class around it, and `pending?` is what an
operator combines the next members with. -/
structure ClassFrame where
  opening : Span
  negated : Bool
  outer : Members
  pending? : Option (SetOperator × Members)

namespace Reading

/-- The set with the case of letters taken out, if the mode asks for it. -/
def foldCase (members : Members) (span : Span) : Reading CharacterSet := do
  let mode ← mode
  if !mode.caseless then
    return members.set
  else if mode.ascii then
    return members.set.eitherCase
  else
    if !members.isEmpty then
      refuse .noUnicodeCase span
    return members.set

/-- The set, or all other characters. Among bytes those do not form characters. -/
def negateIf (negated : Bool) (set : CharacterSet) (span : Span) : Reading CharacterSet := do
  if negated && (← mode).ascii then
    refuse .invalidUtf8 span
  return if negated then set.complement else set

/-- Refuse what stands for a single byte and is no ASCII character. -/
def refuseByte (character : Char) (isByte : Bool) (span : Span) : Reading Unit := do
  if (← mode).ascii && isByte && 128 ≤ character.toNat then
    refuse .invalidUtf8 span

/-- The pattern of one character. -/
def literal (character : Char) (isByte : Bool) (span : Span) : Reading Pattern := do
  refuseByte character isByte span
  return .ofSet (← foldCase (.one (.singleton character) span []) span) (← mode).ascii

/-- A member of a class has to be a byte if the class is one of bytes. -/
def checkMember (character : Char) (isByte : Bool) (span : Span) : Reading Unit := do
  refuseByte character isByte span
  if (← mode).ascii && 128 ≤ character.toNat then
    refuse .unicodeNotAllowed span

/-- An escape or a single character as a part of a class. -/
def classPart : Reading (Element × Span) := do
  let start ← offset
  match ← peek? with
  | some '\\' =>
      let element ← escape
      return (element, ← spanFrom start)
  | some character =>
      advance
      return (.literal character false, ← spanFrom start)
  | none => fail .unclosedClass (← emptySpan)

/-- The next two characters. Where space stands for nothing, white space between them
is passed over, and so is one hash sign, but not the comment that it begins. -/
def peekTwo : Reading (Option Char × Option Char) := do
  let reader ← get
  let behind := reader.rest.tail
  if !reader.mode.spaced then
    return (reader.rest.head?, behind.head?)
  let second :=
    match behind.dropWhile Whitespace.contains with
    | '#' :: comment => comment.dropWhile Whitespace.contains
    | characters => characters
  return (reader.rest.head?, second.head?)

def rangeBoundary (element : Element) (span : Span) : Reading (Char × Bool) :=
  match element with
  | .literal character isByte => return (character, isByte)
  | _ => fail .invalidRangeBoundary span

/-- A member or a range of members of the class that `opening` has opened. -/
def classMember (opening : Span) : Reading (CharacterSet × Span) := do
  let (element, span) ← classPart
  skipSpace
  let (first?, second?) ← peekTwo
  if first?.isNone then
    fail .unclosedClass opening
  if first? ≠ some '-' || second? = some ']' || second? = some '-' then
    match element with
    | .literal character isByte =>
        checkMember character isByte span
        return (.singleton character, span)
    | .set set => return (set, span)
    | .textStart | .textEnd | .word _ => fail .invalidClassEscape span
  else
    advanceSpaced
    if (← peek?).isNone then
      fail .unclosedClass opening
    let (lastElement, lastSpan) ← classPart
    let whole : Span := ⟨span.first, lastSpan.last⟩
    let (first, firstIsByte) ← rangeBoundary element span
    let (last, lastIsByte) ← rangeBoundary lastElement lastSpan
    if last < first then
      fail .reversedClassRange whole
    checkMember first firstIsByte span
    checkMember last lastIsByte lastSpan
    return (.range first last, whole)

/-- The hyphens at the beginning of a class stand for themselves. -/
def leadingHyphens (start : Nat) (members : Members) : Nat → Reading Members
  | 0 => return members
  | count + 1 => do
      if (← peek?) = some '-' then
        let span ← nextSpan
        advanceSpaced
        if (← peek?).isNone then
          fail .unclosedClass ⟨start, start⟩
        leadingHyphens start (members.add (.singleton '-') span []) count
      else
        return members

/-- Open a class. A closing bracket that comes first stands for itself, so no class
is empty. -/
def openClass (outer : Members) : Reading (ClassFrame × Members) := do
  let start ← offset
  let demandMore : Reading Unit := do
    if (← peek?).isNone then
      fail .unclosedClass (← spanFrom start)
  advanceSpaced
  demandMore
  let negated := (← peek?) = some '^'
  if negated then
    advanceSpaced
    demandMore
  let hyphens ← leadingHyphens start (.none (← offset)) (← get).rest.length
  if hyphens.isEmpty && (← peek?) = some ']' then
    let span ← nextSpan
    advanceSpaced
    demandMore
    return (⟨← spanFrom start, negated, outer, none⟩, hyphens.add (.singleton ']') span [])
  else
    return (⟨← spanFrom start, negated, outer, none⟩, hyphens)

/-- Pass the name of a set of ASCII characters in brackets and colons. Anything else
is left to be read as a class. -/
def namedClass? : Reading (Option (CharacterSet × Span)) := do
  let before ← get
  let start ← offset
  if !(← take "[:") then
    return none
  let negated ← take "^"
  let name := (← get).rest.takeWhile (· ≠ ':')
  modify fun reader => reader.drop name.length
  match ← take ":]", CharacterSet.named? (String.ofList name) with
  | true, some named =>
      let span ← spanFrom start
      let folded ← foldCase (.one named span []) span
      return some (← negateIf negated folded span, span)
  | _, _ =>
      set before
      return none

/-- The members of a class, combined with those before the last operator. What comes
out is a single member, or none if none has been read. -/
def combine (frame : ClassFrame) (members : Members) : Reading Members := do
  match frame.pending? with
  | none => return { members with count := min 1 members.count, nesting := members.wholeNesting }
  | some (operator, left) =>
      let right ← foldCase members members.span
      let leftSet ← foldCase left left.span
      let span : Span := ⟨left.span.first, members.span.last⟩
      return ⟨operator.apply leftSet right, span, min 1 (left.count + members.count),
        (left.nesting.before members.wholeNesting).around span⟩

def setOperator? : Reading (Option SetOperator) := do
  if ← take "&&" then
    return some .intersection
  else if ← take "--" then
    return some .difference
  else if ← take "~~" then
    return some .symmetricDifference
  else
    return none

/-- The rest of a class: `members` are read, and `frames` are the classes around it.
Every round passes a character, so as many rounds as there are characters left are
enough. -/
def classRest (members : Members) (frame : ClassFrame) (frames : List ClassFrame) :
    Nat → Reading (CharacterSet × Nesting)
  | 0 => fail .unclosedClass frame.opening
  | rounds + 1 => do
      skipSpace
      match ← peek? with
      | none => fail .unclosedClass frame.opening
      | some '[' =>
          match ← namedClass? with
          | some (named, span) => classRest (members.add named span []) frame frames rounds
          | none =>
              let (inner, innerMembers) ← openClass members
              classRest innerMembers inner (frame :: frames) rounds
      | some ']' =>
          let combined ← combine frame members
          advance
          let span ← spanFrom frame.opening.first
          let closed ← negateIf frame.negated (← foldCase combined span) span
          let nesting := combined.nesting.around span
          match frames with
          | [] => return (closed, nesting)
          | outer :: others => classRest (frame.outer.add closed span nesting) outer others rounds
      | some _ =>
          match ← setOperator? with
          | some operator =>
              let combined ← combine frame members
              classRest (.none (← offset)) { frame with pending? := some (operator, combined) }
                frames rounds
          | none =>
              let (member, span) ← classMember frame.opening
              classRest (members.add member span []) frame frames rounds

/-- The class at an opening bracket. -/
def characterClass : Reading (CharacterSet × Nesting) := do
  let (frame, members) ← openClass (.none 0)
  classRest members frame [] (← get).rest.length

end Reading

end CanonicalLR
