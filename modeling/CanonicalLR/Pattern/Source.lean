import CanonicalLR.Letters
import CanonicalLR.Pattern.Class
import CanonicalLR.Pattern.Footprint

/-!
Contract: reading patterns from text.

Owns:
- sequences, choices, groups and repetitions;
- the settings that a pattern makes for parts of itself;
- the order in which a pattern is refused for its writing, nesting, meaning and size.

Does not own: classes of characters, escapes, and the occurrences of patterns.

The name of a group makes no difference to a pattern.
-/

namespace CanonicalLR

/-- An item of a sequence. One without a pattern is a setting; it cannot be repeated. -/
structure PatternItem where
  pattern? : Option Pattern
  span : Span
  nesting : Nesting

/-- The part of a group that has been read, from character number `start` on: the
choices that are complete, and the items of the last one, the last item first. It
begins at character number `choiceStart`. -/
structure Branches where
  start : Nat
  choices : List (Pattern × Nesting)
  choiceStart : Nat
  items : List PatternItem

namespace Branches

def startAt (offset : Nat) : Branches :=
  ⟨offset, [], offset, []⟩

def addItem (branches : Branches) (item : PatternItem) : Branches :=
  { branches with items := item :: branches.items }

/-- The last choice, which ends before character number `stop`. Several items are
nested in it, a single one is all of it. -/
def lastChoice (branches : Branches) (stop : Nat) : Pattern × Nesting :=
  let items := branches.items.reverse
  let nesting := Nesting.inOrder (items.map PatternItem.nesting)
  (.ofParts (items.filterMap PatternItem.pattern?),
    if items.length ≤ 1 then nesting else nesting.around ⟨branches.choiceStart, stop⟩)

/-- The choices with the last one complete; the next one begins behind a bar. -/
def nextChoice (branches : Branches) (bar : Nat) : Branches :=
  { branches with
    choices := branches.lastChoice bar :: branches.choices
    choiceStart := bar + 1
    items := [] }

/-- All that has been read, which ends before character number `stop`. -/
def whole (branches : Branches) (stop : Nat) : Pattern × Nesting :=
  let last := branches.lastChoice stop
  if branches.choices.isEmpty then
    last
  else
    let choices := (last :: branches.choices).reverse
    let nesting := Nesting.inOrder (choices.map Prod.snd)
    (.ofAlternatives (choices.map Prod.fst), nesting.around ⟨branches.start, stop⟩)

end Branches

/-- A group that has been opened, with what stands before it. One without a number is
there for its settings only. -/
structure GroupFrame where
  opening : Span
  number? : Option Nat
  outerMode : PatternMode
  outer : Branches

/-- What an opening parenthesis begins. -/
inductive GroupOpening where
  | group (opening : Span) (number? : Option Nat) (mode : PatternMode)
  | setting (span : Span) (mode : PatternMode)

namespace PatternMode

/-- Turn a setting on or off. -/
def set (mode : PatternMode) (flag : Char) (on : Bool) : PatternMode :=
  match flag with
  | 'i' => { mode with caseless := on }
  | 'm' => { mode with multiLine := on }
  | 's' => { mode with dotMatchesAll := on }
  | 'R' => { mode with anyLineEnds := on }
  | 'u' => { mode with ascii := !on }
  | 'x' => { mode with spaced := on }
  | 'U' => { mode with prefersFewer := on }
  | _ => mode

end PatternMode

namespace Reading

def isFlag (character : Char) : Bool :=
  character ∈ ['i', 'm', 's', 'R', 'u', 'x', 'U']

/-- The settings up to the end of the list, with the flags that have been read. A
hyphen turns off the settings behind it. -/
def flags (mode : PatternMode) (on : Bool) (seen : List (Char × Span)) :
    Nat → Reading (PatternMode × List (Char × Span))
  | 0 => return (mode, seen)
  | rounds + 1 => do
      match ← peek? with
      | none => fail .endInFlags (← emptySpan)
      | some ':' | some ')' =>
          match seen with
          | ('-', span) :: _ => fail .danglingNegation span
          | _ => return (mode, seen)
      | some flag =>
          let span ← nextSpan
          let isNegation := flag = '-'
          if !isNegation && !isFlag flag then
            fail .unknownFlag span
          match seen.lookup flag with
          | some earlier =>
              let fault := if isNegation then .repeatedNegation else .repeatedFlag
              throw (.found fault span (some earlier))
          | none =>
              advance
              flags (if isNegation then mode else mode.set flag on) (on && !isNegation)
                ((flag, span) :: seen) rounds

/-- Whether a character may be the first one of a group's name. -/
def startsName (character : Char) : Bool :=
  character = '_' || Letters.isLetter character

def continuesName (character : Char) : Bool :=
  startsName character || Letters.isNumber character || character ∈ ['.', '[', ']']

/-- The name of a group and the angle bracket behind it. -/
def groupName : Reading Unit := do
  let start ← offset
  let rest := (← get).rest
  let name :=
    match rest with
    | [] => []
    | first :: others => if startsName first then first :: others.takeWhile continuesName else []
  modify fun reader => reader.drop name.length
  let span ← spanFrom start
  match ← peek? with
  | none => fail .endInGroupName (← emptySpan)
  | some '>' =>
      advance
      if name.isEmpty then
        fail .emptyGroupName span
      let text := String.ofList name
      match (← get).groupNames.lookup text with
      | some earlier => throw (.found .repeatedGroupName span (some earlier))
      | none =>
          modify fun reader => { reader with groupNames := (text, span) :: reader.groupNames }
  | some _ => fail .invalidGroupName (← nextSpan)

/-- Pass one of the signs that ask for what stands before or behind a place. -/
def lookAround : Reading Bool := do
  if ← take "?=" then
    return true
  else if ← take "?!" then
    return true
  else if ← take "?<=" then
    return true
  else
    take "?<!"

/-- Pass one of the signs that begin the name of a group. -/
def nameSign : Reading Bool := do
  if ← take "?P<" then
    return true
  else
    take "?<"

/-- What begins at an opening parenthesis. -/
def groupOpening : Reading GroupOpening := do
  let opening ← nextSpan
  let mode ← mode
  advanceSpaced
  if ← lookAround then
    fail .lookAround (← spanFrom opening.first)
  let sign ← emptySpan
  if ← nameSign then
    let number ← nextGroup
    groupName
    return .group opening (some number) mode
  else if ← take "?" then
    if (← peek?).isNone then
      fail .unclosedGroup opening
    let (inner, seen) ← flags mode true [] ((← get).rest.length + 1)
    let isSetting := (← peek?) = some ')'
    advance
    if !isSetting then
      return .group opening none inner
    if seen.isEmpty then
      fail .nothingToRepeat sign
    return .setting (← spanFrom opening.first) inner
  else
    return .group opening (some (← nextGroup)) mode

/-- The last item with its pattern, which the repetition sign that comes next applies to. -/
def repeatable (branches : Branches) : Reading (PatternItem × Pattern × Branches) := do
  match branches.items with
  | item :: items =>
      match item.pattern? with
      | some pattern => return (item, pattern, { branches with items })
      | none => fail .nothingToRepeat (← emptySpan)
  | [] => fail .nothingToRepeat (← emptySpan)

/-- Whether a repetition prefers fewer occurrences, which a question mark asks for. -/
def preference : Reading Bool := do
  return (← take "?") != (← mode).prefersFewer

/-- The repetition of an item, the signs of which have been passed. -/
def repetition (item : PatternItem) (pattern : Pattern) (least : Nat) (most? : Option Nat)
    (prefersFewer : Bool) : Reading PatternItem := do
  let span ← spanFrom item.span.first
  let repeated := .ofRepetition pattern least most? prefersFewer
  return ⟨some repeated, span, item.nesting.around span⟩

/-- A repetition by a sign of one character. -/
def signRepetition (branches : Branches) (least : Nat) (most? : Option Nat) :
    Reading Branches := do
  let (item, pattern, before) ← repeatable branches
  advance
  let prefersFewer ← preference
  return before.addItem (← repetition item pattern least most? prefersFewer)

def largestCount : Nat := 4294967295

/-- A number with white space around it, or why there is none and where. -/
def count : Reading (Except (PatternFault × Span) Nat) := do
  let _ ← takeWhile Whitespace.contains
  let start ← offset
  let digits ← takeWhile Char.isDigit
  let span ← spanFrom start
  let _ ← takeWhile Whitespace.contains
  let value := digits.foldl (fun value digit => 10 * value + (digit.toNat - '0'.toNat)) 0
  if digits.isEmpty then
    return .error (.missingCount, span)
  else if value > largestCount then
    return .error (.invalidNumber, span)
  else
    return .ok value

/-- A repetition by numbers in braces. -/
def countedRepetition (branches : Branches) : Reading Branches := do
  let (item, pattern, before) ← repeatable branches
  let start ← offset
  let demandMore : Reading Unit := do
    if (← peek?).isNone then
      fail .unclosedCount (← spanFrom start)
  let demand : Except (PatternFault × Span) Nat → Reading Nat
    | .ok value => return value
    | .error (fault, span) => fail fault span
  advanceSpaced
  demandMore
  let first ← count
  demandMore
  let (least, most?) ←
    if (← peek?) = some ',' then
      advanceSpaced
      demandMore
      let least ← demand first
      if (← peek?) = some '\x7d' then
        pure (least, none)
      else
        let most ← demand (← count)
        pure (least, some most)
    else
      let exact ← demand first
      pure (exact, some exact)
  if (← peek?) ≠ some '\x7d' then
    fail .unclosedCount (← spanFrom start)
  advanceSpaced
  let prefersFewer ← preference
  if most?.any (· < least) then
    fail .reversedCount (← spanFrom start)
  return before.addItem (← repetition item pattern least most? prefersFewer)

/-- The pattern of a place that words make. -/
def wordAssertion (place : WordPlace) : Reading Pattern := do
  return .assertion (if (← mode).ascii then .asciiWord place else .anyWord place)

/-- The pattern of a dot. -/
def dot : Reading Pattern := do
  let span ← nextSpan
  advance
  let mode ← mode
  if mode.ascii then
    refuse .invalidUtf8 span
  let members :=
    if mode.dotMatchesAll then .all
    else if mode.anyLineEnds then .complement (.ofRanges [('\n', '\n'), ('\r', '\r')])
    else .complement (.singleton '\n')
  return .ofSet members mode.ascii

/-- The pattern of an escape. -/
def escapePattern : Reading Pattern := do
  let start ← offset
  let element ← escape
  let span ← spanFrom start
  match element with
  | .literal character isByte => literal character isByte span
  | .set set => return .ofSet set (← mode).ascii
  | .textStart => return .assertion .textStart
  | .textEnd => return .assertion .textEnd
  | .word place => wordAssertion place

/-- The pattern of an item that is no group, no class and no repetition. -/
def simplePattern (character : Char) : Reading Pattern := do
  match character with
  | '\\' => escapePattern
  | '.' => dot
  | '^' =>
      advance
      let mode ← mode
      if !mode.multiLine then return .assertion .textStart
      else if mode.anyLineEnds then return .assertion .anyLineStart
      else return .assertion .lineStart
  | '$' =>
      advance
      let mode ← mode
      if !mode.multiLine then return .assertion .textEnd
      else if mode.anyLineEnds then return .assertion .anyLineEnd
      else return .assertion .lineEnd
  | _ =>
      let span ← nextSpan
      advance
      literal character false span

/-- An item that is no group and no repetition. -/
def item (character : Char) : Reading PatternItem := do
  let start ← offset
  if character = '\x5b' then
    let (set, nesting) ← characterClass
    return ⟨some (.ofSet set (← mode).ascii), ← spanFrom start, nesting⟩
  else
    let pattern ← simplePattern character
    return ⟨some pattern, ← spanFrom start, []⟩

/-- The item of a group, which has been passed. -/
def groupItem (frame : GroupFrame) (inside : Pattern × Nesting) : Reading PatternItem := do
  let (pattern, nesting) := inside
  let span ← spanFrom frame.opening.first
  let numbered :=
    match frame.number? with
    | some number => .group number pattern
    | none => pattern
  return ⟨some numbered, span, nesting.around span⟩

/-- All that has been read, if no group is open. -/
def finish (branches : Branches) : List GroupFrame → Reading (Pattern × Nesting)
  | [] => return branches.whole (← offset)
  | frame :: _ => fail .unclosedGroup frame.opening

/-- The rest of a pattern: `branches` have been read of the innermost group, and
`frames` are the open groups. Every round passes a character, so as many rounds
as there are characters left are enough. -/
def items (branches : Branches) (frames : List GroupFrame) :
    Nat → Reading (Pattern × Nesting)
  | 0 => finish branches frames
  | rounds + 1 => do
      skipSpace
      match ← peek? with
      | none => finish branches frames
      | some '(' =>
          let outerMode ← mode
          match ← groupOpening with
          | .setting span inner =>
              setMode inner
              items (branches.addItem ⟨none, span, []⟩) frames rounds
          | .group opening number? inner =>
              setMode inner
              items (.startAt (← offset)) (⟨opening, number?, outerMode, branches⟩ :: frames)
                rounds
      | some ')' =>
          match frames with
          | [] => fail .unopenedGroup (← nextSpan)
          | frame :: outer =>
              let inside := branches.whole (← offset)
              setMode frame.outerMode
              advance
              items (frame.outer.addItem (← groupItem frame inside)) outer rounds
      | some '|' =>
          let bar ← offset
          advance
          items (branches.nextChoice bar) frames rounds
      | some '?' => items (← signRepetition branches 0 (some 1)) frames rounds
      | some '*' => items (← signRepetition branches 0 none) frames rounds
      | some '+' => items (← signRepetition branches 1 none) frames rounds
      | some '\x7b' => items (← countedRepetition branches) frames rounds
      | some character => items (branches.addItem (← item character)) frames rounds

end Reading

namespace Pattern

/-- The pattern, unless no automaton can be made of it: it is made to read forward
before words are looked at, and backward after that. -/
def checked (pattern : Pattern) : Except PatternError Pattern :=
  if pattern.exceeds .forward then .error (.tooLarge sizeLimit)
  else if pattern.asksForAnyWord then .error .unicodeWords
  else if pattern.exceeds .backward then .error (.tooLarge sizeLimit)
  else .ok pattern

/-- The pattern that a text describes. -/
def ofText (text : String) : Except PatternError Pattern := do
  let ((pattern, nesting), reader) ← (Reading.items (.startAt 0) [] text.length).run (.ofText text)
  match nesting.excess?, reader.refusal? with
  | some span, _ => throw (.found (.nestedTooDeep Nesting.limit) span none)
  | none, some (fault, span) => throw (.found fault span none)
  | none, none => pattern.checked

end Pattern

end CanonicalLR
