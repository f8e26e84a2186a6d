import CanonicalLR.Pattern.Reader

/-!
Contract: escapes in patterns.

Owns:
- the escapes that stand for characters, for sets and for assertions.

Does not own: where the escapes may stand.

No tables of Unicode properties are at hand, so the sets that are named by a
property are refused, and digits, white space and words are those of ASCII or
refused as well.
-/

namespace CanonicalLR

/-- What an escape stands for. `isByte` tells a character that was written as the
value of one byte. Which words there are is up to the mode of the pattern. -/
inductive Element where
  | literal (character : Char) (isByte : Bool)
  | set (set : CharacterSet)
  | textStart
  | textEnd
  | word (place : WordPlace)
deriving DecidableEq

namespace Reading

def hexDigit? (character : Char) : Option Nat :=
  if character.isDigit then some (character.toNat - '0'.toNat)
  else if 'a' ≤ character ∧ character ≤ 'f' then some (character.toNat - 'a'.toNat + 10)
  else if 'A' ≤ character ∧ character ≤ 'F' then some (character.toNat - 'A'.toNat + 10)
  else none

def hexValue (digits : List Char) : Nat :=
  digits.foldl (fun value digit => 16 * value + (hexDigit? digit).getD 0) 0

/-- The character with a code that `span` has spelt. -/
def scalar (code : Nat) (span : Span) : Reading Char :=
  if code.isValidChar then return Char.ofNat code else fail .invalidScalar span

def hexDigits : Nat → Reading (List Char)
  | 0 => return []
  | count + 1 => do
      match ← peek? with
      | none => fail .incompleteEscape (← emptySpan)
      | some digit =>
          if (hexDigit? digit).isNone then
            fail .invalidHexDigit (← nextSpan)
          advanceSpaced
          return digit :: (← hexDigits count)

/-- The character whose code stands in braces. -/
def bracedScalar : Reading Char := do
  let opening ← offset
  let first := opening + 1
  advanceSpaced
  let digits ← takeWhile fun character => (hexDigit? character).isSome
  match ← peek? with
  | none => fail .incompleteEscape (← spanFrom opening)
  | some '\x7d' =>
      let span ← spanFrom first
      advanceSpaced
      if digits.isEmpty then
        fail .emptyHex (← spanFrom opening)
      scalar (hexValue digits) span
  | some _ => fail .invalidHexDigit (← nextSpan)

/-- The character whose code is written with `count` digits or in braces. -/
def hexEscape (count : Nat) : Reading Element := do
  advanceSpaced
  if (← peek?) = some '\x7b' then
    return .literal (← bracedScalar) false
  else
    let first ← offset
    let digits ← hexDigits count
    return .literal (← scalar (hexValue digits) (← spanFrom first)) (count = 2)

/-- The set of a property, by a name of one letter or in braces. Three short names
can only be values. -/
def propertyEscape (start : Nat) : Reading Element := do
  advanceSpaced
  let name ←
    match ← peek? with
    | none => fail .incompleteEscape (← emptySpan)
    | some '\\' => fail .invalidProperty (← nextSpan)
    | some '\x7b' =>
        advanceSpaced
        let name ← takeWhile (· ≠ '\x7d')
        if (← peek?).isNone then
          fail .incompleteEscape (← emptySpan)
        advance
        pure name
    | some letter =>
        advanceSpaced
        pure [letter]
  let span ← spanFrom start
  let plain := (name.filter (· ∉ [' ', '_', '-'])).map Char.toLower
  let isValue := String.ofList plain ∈ ["cf", "sc", "lc", "iscf", "issc", "islc"]
  if (← mode).ascii then
    refuse .unicodeNotAllowed span
  else
    refuse (if isValue then .unknownPropertyValue else .unknownProperty) span
  return .set .none

/-- The set of ASCII characters, or the one of all others. -/
def classEscape (start : Nat) (set : CharacterSet) (negated : Bool) : Reading Element := do
  advance
  let span ← spanFrom start
  if !(← mode).ascii then
    refuse .noUnicodeClass span
  else if negated then
    refuse .invalidUtf8 span
  return .set set

def wordPlace? : String → Option WordPlace
  | "start" => some .start
  | "end" => some .stop
  | "start-half" => some .startHalf
  | "end-half" => some .stopHalf
  | _ => none

/-- The assertion behind `\b`. A name in braces makes it a special one; braces with
anything else are left to be read as a repetition. -/
def wordEscape (start : Nat) : Reading Element := do
  advance
  if (← peek?) ≠ some '\x7b' then
    return .word .edge
  let before ← get
  let opening ← offset
  let belongs := fun (character : Char) => character.isAlpha || character = '-'
  advanceSpaced
  let first ← offset
  match ← peek? with
  | none => fail .endInWordAssertion (← spanFrom start)
  | some character =>
      if belongs character then
        let name ← takeWhile belongs
        if (← peek?) ≠ some '\x7d' then
          fail .unclosedWordAssertion (← spanFrom opening)
        let span ← spanFrom first
        advance
        match wordPlace? (String.ofList name) with
        | some place => return .word place
        | none => fail .unknownWordAssertion span
      else
        set before
        return .word .edge

/-- The escapes of one letter that stand for characters. -/
def controlCharacter? : Char → Option Char
  | 'a' => some '\x07'
  | 'f' => some '\x0c'
  | 't' => some '\t'
  | 'n' => some '\n'
  | 'r' => some '\r'
  | 'v' => some '\x0b'
  | _ => none

def edge? : Char → Option Element
  | 'A' => some .textStart
  | 'z' => some .textEnd
  | 'B' => some (.word .noEdge)
  | '<' => some (.word .start)
  | '>' => some (.word .stop)
  | _ => none

/-- Any ASCII character but a letter, a digit or an angle bracket stands for itself. -/
def escapesItself (character : Char) : Bool :=
  character.toNat < 128 && !character.isAlphanum && character ≠ '<' && character ≠ '>'

/-- What the escape at a backslash stands for. -/
def escape : Reading Element := do
  let start ← offset
  advance
  match ← peek? with
  | none => fail .incompleteEscape (← spanFrom start)
  | some character =>
      if character.isDigit then
        advance
        fail .backreference (← spanFrom start)
      match character with
      | 'x' => hexEscape 2
      | 'u' => hexEscape 4
      | 'U' => hexEscape 8
      | 'p' | 'P' => propertyEscape start
      | 'd' => classEscape start .digits false
      | 's' => classEscape start .spaces false
      | 'w' => classEscape start .words false
      | 'D' => classEscape start .digits true
      | 'S' => classEscape start .spaces true
      | 'W' => classEscape start .words true
      | 'b' => wordEscape start
      | _ =>
          advance
          if escapesItself character then
            return .literal character false
          match controlCharacter? character, edge? character with
          | some control, _ => return .literal control false
          | none, some edge => return edge
          | none, none => fail .unknownEscape (← spanFrom start)

end Reading

end CanonicalLR
