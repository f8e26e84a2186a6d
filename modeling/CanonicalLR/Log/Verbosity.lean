import CanonicalLR.Log
import CanonicalLR.Pattern.Occurrence
import CanonicalLR.Pattern.Source

/-!
Contract: the choice of the log records that are shown.

Owns:
- thresholds for the parts of the program, and the filter of messages;
- the text that sets both, and the complaints about it.

Does not own: the records.

The text lists thresholds, separated by commas. The pattern of a filter may stand
behind a slash. What cannot be read is left out and complained about.
-/

namespace CanonicalLR

/-- `least?` is the least important level that is shown of the parts whose names
begin with `scope`; `none` shows nothing of them. -/
structure Threshold where
  scope : String
  least? : Option LogLevel
deriving DecidableEq

/-- What cannot be read of the text that sets the verbosity. -/
inductive Complaint where
  | malformed (part : String)
  | severalFilters (text : String)
  | badPattern (pattern : String) (error : PatternError)
deriving DecidableEq

namespace Complaint

def message : Complaint → String
  | malformed part => s!"invalid logging spec '{part}', ignoring it"
  | severalFilters text => s!"invalid logging spec '{text}', ignoring it (too many '/'s)"
  | badPattern pattern error => s!"invalid regex filter - {error.message pattern}"

def line (complaint : Complaint) : String :=
  "warning: " ++ complaint.message ++ "\n"

end Complaint

namespace Threshold

/-- The least level that a word names, in whichever case it is written. -/
def ofWord? (word : String) : Option (Option LogLevel) :=
  match word.toLower with
  | "off" => some none
  | "error" => some (some .error)
  | "warn" => some (some .warn)
  | "info" => some (some .info)
  | "debug" => some (some .debug)
  | "trace" => some (some .trace)
  | _ => none

/-- A level is for all parts, a name shows all of the parts that begin with it,
and a level behind a name and an equals sign is for those parts. -/
def ofText (text : String) : Except Complaint Threshold :=
  match (text.toList.splitOn '=').map String.ofList with
  | [word] =>
      match ofWord? word with
      | some least? => .ok ⟨"", least?⟩
      | none => .ok ⟨word, some .trace⟩
  | [scope, level] =>
      let word := Whitespace.trim level
      if word.isEmpty then
        .ok ⟨scope, some .trace⟩
      else
        match ofWord? word with
        | some least? => .ok ⟨scope, least?⟩
        | none => .error (.malformed word)
  | _ => .error (.malformed text)

/-- What the parts of a list say, white space around them and empty parts left out. -/
def listOfText (text : String) : List (Except Complaint Threshold) :=
  let parts := (text.toList.splitOn ',').map fun part => Whitespace.trim (String.ofList part)
  (parts.filter fun part => !part.isEmpty).map ofText

def covers (threshold : Threshold) (component : Component) : Bool :=
  threshold.scope.toList.isPrefixOf component.text.toList

def shows (threshold : Threshold) (level : LogLevel) : Bool :=
  threshold.least?.any fun least => level.rank ≤ least.rank

end Threshold

/-- How much of the log is shown. A part goes by the threshold with the longest
scope that covers it, the last one of several, and is hidden without one. If there
is a filter, it has to occur in the message as well. -/
structure Verbosity where
  thresholds : List Threshold
  filter? : Option Pattern
deriving DecidableEq

namespace Verbosity

/-- Without any threshold, errors alone are shown. -/
def ofThresholds (thresholds : List Threshold) (filter? : Option Pattern) : Verbosity :=
  ⟨if thresholds.isEmpty then [⟨"", some .error⟩] else thresholds, filter?⟩

def thresholdFor? (verbosity : Verbosity) (component : Component) : Option Threshold :=
  (verbosity.thresholds.filter fun threshold => threshold.covers component).foldl
    (fun chosen? threshold =>
      match chosen? with
      | some chosen =>
          if threshold.scope.length < chosen.scope.length then some chosen else some threshold
      | none => some threshold)
    none

def shows (verbosity : Verbosity) (record : LogRecord) : Bool :=
  (verbosity.thresholdFor? record.component).any (fun threshold => threshold.shows record.level) &&
    verbosity.filter?.all fun filter => filter.occursIn record.message

/-- Whether no warning, and so nothing less important, is ever shown. -/
def isSilent (verbosity : Verbosity) : Bool :=
  verbosity.thresholds.all fun threshold => !threshold.shows .warn

/-- The records that are shown. They need not be told if none of them can be: no
record is more important than a warning. -/
def select (verbosity : Verbosity) (tell : Unit → List LogRecord) : List LogRecord :=
  if verbosity.isSilent then [] else (tell ()).filter verbosity.shows

end Verbosity

/-- A verbosity, and the complaints about the text that sets it. -/
structure LogSetting where
  verbosity : Verbosity
  complaints : List Complaint
deriving DecidableEq

namespace LogSetting

/-- The setting of a list of thresholds with or without a filter. -/
def ofParts (levels : String) (pattern? : Option String) : LogSetting :=
  let thresholds := Threshold.listOfText levels
  let accepted := thresholds.filterMap Except.toOption
  let refused := thresholds.filterMap fun threshold =>
    match threshold with
    | .error complaint => some complaint
    | .ok _ => none
  match pattern? with
  | none => ⟨.ofThresholds accepted none, refused⟩
  | some pattern =>
      match Pattern.ofText pattern with
      | .ok filter => ⟨.ofThresholds accepted (some filter), refused⟩
      | .error error =>
          ⟨.ofThresholds accepted none, refused ++ [.badPattern pattern error]⟩

/-- The setting that a text describes. -/
def ofText (text : String) : LogSetting :=
  match (text.toList.splitOn '/').map String.ofList with
  | [levels] => ofParts levels none
  | [levels, pattern] => ofParts levels (some pattern)
  | _ => ⟨.ofThresholds [] none, [.severalFilters text]⟩

/-- The lines of the complaints. -/
def notice (setting : LogSetting) : String :=
  String.join (setting.complaints.map Complaint.line)

end LogSetting

end CanonicalLR
