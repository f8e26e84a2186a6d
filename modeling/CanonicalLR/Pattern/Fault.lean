import CanonicalLR.TextLines

/-!
Contract: what is wrong with a written pattern.

Owns:
- the faults, the parts of the pattern that they are found in, and their messages.

Does not own: when a fault arises.

A message quotes the pattern and underlines the faulty part. A pattern of several
lines is quoted between rulers, with its lines numbered.
-/

namespace CanonicalLR

inductive PatternFault where
  | invalidClassEscape
  | reversedClassRange
  | invalidRangeBoundary
  | unclosedClass
  | invalidNumber
  | emptyHex
  | invalidScalar
  | invalidHexDigit
  | incompleteEscape
  | unknownEscape
  | danglingNegation
  | repeatedFlag
  | repeatedNegation
  | endInFlags
  | unknownFlag
  | repeatedGroupName
  | emptyGroupName
  | invalidGroupName
  | endInGroupName
  | unclosedGroup
  | unopenedGroup
  | reversedCount
  | missingCount
  | unclosedCount
  | nothingToRepeat
  | unclosedWordAssertion
  | unknownWordAssertion
  | endInWordAssertion
  | invalidProperty
  | backreference
  | lookAround
  | unicodeNotAllowed
  | invalidUtf8
  | unknownProperty
  | unknownPropertyValue
  | noUnicodeClass
  | noUnicodeCase
  | nestedTooDeep (limit : Nat)
deriving DecidableEq

namespace PatternFault

def text : PatternFault → String
  | invalidClassEscape => "invalid escape sequence found in character class"
  | reversedClassRange => "invalid character class range, the start must be <= the end"
  | invalidRangeBoundary => "invalid range boundary, must be a literal"
  | unclosedClass => "unclosed character class"
  | invalidNumber => "decimal literal invalid"
  | emptyHex => "hexadecimal literal empty"
  | invalidScalar => "hexadecimal literal is not a Unicode scalar value"
  | invalidHexDigit => "invalid hexadecimal digit"
  | incompleteEscape => "incomplete escape sequence, reached end of pattern prematurely"
  | unknownEscape => "unrecognized escape sequence"
  | danglingNegation => "dangling flag negation operator"
  | repeatedFlag => "duplicate flag"
  | repeatedNegation => "flag negation operator repeated"
  | endInFlags => "expected flag but got end of regex"
  | unknownFlag => "unrecognized flag"
  | repeatedGroupName => "duplicate capture group name"
  | emptyGroupName => "empty capture group name"
  | invalidGroupName => "invalid capture group character"
  | endInGroupName => "unclosed capture group name"
  | unclosedGroup => "unclosed group"
  | unopenedGroup => "unopened group"
  | reversedCount => "invalid repetition count range, the start must be <= the end"
  | missingCount => "repetition quantifier expects a valid decimal"
  | unclosedCount => "unclosed counted repetition"
  | nothingToRepeat => "repetition operator missing expression"
  | unclosedWordAssertion =>
      "special word boundary assertion is either unclosed or contains an invalid character"
  | unknownWordAssertion =>
      "unrecognized special word boundary assertion, valid choices are: " ++
        "start, end, start-half or end-half"
  | endInWordAssertion =>
      "found either the beginning of a special word boundary or a bounded repetition " ++
        "on a \\b with an opening brace, but no closing brace"
  | invalidProperty => "invalid Unicode character class"
  | backreference => "backreferences are not supported"
  | lookAround => "look-around, including look-ahead and look-behind, is not supported"
  | unicodeNotAllowed => "Unicode not allowed here"
  | invalidUtf8 => "pattern can match invalid UTF-8"
  | unknownProperty => "Unicode property not found"
  | unknownPropertyValue => "Unicode property value not found"
  | noUnicodeClass =>
      "Unicode-aware Perl class not found (make sure the unicode-perl feature is enabled)"
  | noUnicodeCase =>
      "Unicode-aware case insensitivity matching is not available " ++
        "(make sure the unicode-case feature is enabled)"
  | nestedTooDeep limit =>
      s!"exceed the maximum number of nested parentheses/brackets ({limit})"

end PatternFault

/-- The characters of a pattern from number `first` on, up to but not including
number `last`. -/
structure Span where
  first : Nat
  last : Nat
deriving DecidableEq

/-- The place of a character in a text of several lines, both counted from one. -/
structure LinePlace where
  line : Nat
  column : Nat
deriving DecidableEq

namespace LinePlace

/-- The place behind the given characters. -/
def after (characters : List Char) : LinePlace :=
  characters.foldl
    (fun place character =>
      if character = '\n' then ⟨place.line + 1, 1⟩ else ⟨place.line, place.column + 1⟩)
    ⟨1, 1⟩

end LinePlace

/-- The places where a span of `pattern` begins and ends. -/
def Span.places (pattern : String) (span : Span) : LinePlace × LinePlace :=
  (.after (pattern.toList.take span.first), .after (pattern.toList.take span.last))

/-- `found` is a fault with its span, and with the span of what it clashes with if
there is such a thing. The others are refused without a place: a pattern about words
that are not only of ASCII characters, and one that would take up too many bytes. -/
inductive PatternError where
  | found (fault : PatternFault) (span : Span) (other? : Option Span)
  | unicodeWords
  | tooLarge (limit : Nat)
deriving DecidableEq

namespace PatternError

def blanks (count : Nat) : String :=
  String.ofList (List.replicate count ' ')

/-- Carets below the columns of each span, at least one for each. The spans stand
in order, `column` is the next one to write to. -/
def underline (column : Nat) : List (LinePlace × LinePlace) → String
  | [] => ""
  | (start, stop) :: rest =>
      let carets := max 1 (stop.column - start.column)
      let gap := start.column - column
      blanks gap ++ String.ofList (List.replicate carets '^') ++
        underline (column + gap + carets) rest

/-- The lines of a pattern with the spans of each underlined. -/
def quote (pattern : String) (spans : List (LinePlace × LinePlace)) : String :=
  let lines := TextLines.split pattern
  let count := if pattern.endsWith "\n" then lines.length + 1 else lines.length
  let digits := if count ≤ 1 then 0 else (toString count).length
  let inset := if count ≤ 1 then 4 else digits + 2
  String.join (lines.zipIdx.map fun (line, index) =>
    let number := toString (index + 1)
    let label :=
      if count ≤ 1 then blanks inset else blanks (digits - number.length) ++ number ++ ": "
    let below := spans.filter fun (start, stop) =>
      start.line = stop.line ∧ start.line = index + 1
    let marks := if below.isEmpty then "" else blanks inset ++ underline 1 below ++ "\n"
    label ++ line ++ "\n" ++ marks)

/-- A span of several lines is described instead of underlined. -/
def describe : LinePlace × LinePlace → Option String
  | (start, stop) =>
      if start.line = stop.line then none
      else
        some (s!"on line {start.line} (column {start.column}) " ++
          s!"through line {stop.line} (column {stop.column - 1})\n")

def message (pattern : String) : PatternError → String
  | unicodeWords => "error building NFA"
  | tooLarge limit => s!"Compiled regex exceeds size limit of {limit} bytes."
  | found fault span other? =>
      let spans :=
        match other? with
        | none => [span]
        | some other => if other.first ≤ span.first then [other, span] else [span, other]
      let places := spans.map (Span.places pattern)
      let quoted := quote pattern places
      if pattern.toList.contains '\n' then
        let ruler := String.ofList (List.replicate 79 '~') ++ "\n"
        "regex parse error:\n" ++ ruler ++ quoted ++ ruler ++
          String.join (places.filterMap describe) ++ "error: " ++ fault.text
      else
        "regex parse error:\n" ++ quoted ++ "error: " ++ fault.text

end PatternError

end CanonicalLR
