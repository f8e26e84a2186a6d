import CanonicalLR.Action
import CanonicalLR.Grammar.Basic

/-!
Contract: the arguments of the program.

Owns:
- the subcommands with their options, and the request that arguments make;
- the order in which arguments take effect.

Does not own: what a command does.

Arguments are read from left to right. An argument that is not known ends the
reading at once, and so does a request for the version. What the subcommand
lacks, or was given twice, is found at the end.
-/

namespace CanonicalLR

inductive Subcommand where
  | table
  | text
  | graph
  | sets
deriving DecidableEq

/-- A subcommand with its settings. `output?` is the file to write instead of the
standard output. -/
structure Command where
  subcommand : Subcommand
  grammarFile : String
  endMarker : String
  policy : ConflictPolicy
  output? : Option String
deriving DecidableEq

inductive Request where
  | usage
  | version (text : String)
  | run (command : Command)
deriving DecidableEq

namespace Subcommand

def ofName? : String → Option Subcommand
  | "table" => some table
  | "text" => some text
  | "graph" => some graph
  | "sets" => some sets
  | _ => none

def name : Subcommand → String
  | table => "table"
  | text => "text"
  | graph => "graph"
  | sets => "sets"

/-- A subcommand is named after the program file and has no version of its own. -/
def versionText (subcommand : Subcommand) : String :=
  "lrtab_cli-" ++ subcommand.name ++ " \n"

/-- The long name of the option for the output file. -/
def outputOption? : Subcommand → Option String
  | table => some "csv"
  | text => some "output"
  | graph => some "output"
  | sets => none

/-- The short name of the option for the output file. -/
def shortOutputOption? : Subcommand → Option Char
  | table => none
  | text => some 'o'
  | graph => some 'o'
  | sets => none

end Subcommand

/-- An option that takes a value. -/
inductive Setting where
  | endMarker
  | output
deriving DecidableEq

/-- How often an option was given, and its last value. -/
structure Occurrences where
  count : Nat
  value? : Option String
deriving DecidableEq

namespace Occurrences

def never : Occurrences := ⟨0, none⟩

/-- Given at most once, and then with a value. -/
def isProper (occurrences : Occurrences) : Bool :=
  occurrences.count = 0 || (occurrences.count = 1 && occurrences.value?.isSome)

end Occurrences

/-- The arguments of a subcommand that are read so far. -/
structure Arguments where
  file? : Option String
  endMarker : Occurrences
  output : Occurrences
  allowConflicts : Nat
deriving DecidableEq

namespace Arguments

def empty : Arguments := ⟨none, .never, .never, 0⟩

/-- One more occurrence of an option, with its value if that is at hand. -/
def give (arguments : Arguments) (setting : Setting) (value? : Option String) : Arguments :=
  match setting with
  | .endMarker =>
      { arguments with endMarker := ⟨arguments.endMarker.count + 1, value?⟩ }
  | .output => { arguments with output := ⟨arguments.output.count + 1, value?⟩ }

/-- The value of an option that was given before. -/
def fill (arguments : Arguments) (setting : Setting) (value : String) : Arguments :=
  match setting with
  | .endMarker => { arguments with endMarker := { arguments.endMarker with value? := value } }
  | .output => { arguments with output := { arguments.output with value? := value } }

/-- The command, if nothing is missing and nothing was given twice. A graph has
to go to a file. -/
def command? (arguments : Arguments) (subcommand : Subcommand) : Option Command := do
  let file ← arguments.file?
  if !arguments.endMarker.isProper || !arguments.output.isProper ||
      arguments.allowConflicts > 1 || (subcommand = .graph && arguments.output.count = 0) then
    failure
  return {
    subcommand := subcommand
    grammarFile := file
    endMarker := arguments.endMarker.value?.getD defaultEndMarker
    policy := if arguments.allowConflicts = 1 then .report else .fail
    output? := arguments.output.value? }

/-- The request once all arguments are read. -/
def request (arguments : Arguments) (subcommand : Subcommand) : Request :=
  match arguments.command? subcommand with
  | some command => .run command
  | none => .usage

/-- Read arguments that are files, whatever they begin with. -/
def readFiles (subcommand : Subcommand) (arguments : Arguments) : List String → Request
  | [] => arguments.request subcommand
  | file :: rest =>
      match arguments.file? with
      | some _ => .usage
      | none => readFiles subcommand { arguments with file? := file } rest

/-- The name of a long option and the value behind its first equals sign, which
loses further equals signs at its front. -/
def splitLong (body : List Char) : String × Option String :=
  let name := body.takeWhile (· ≠ '=')
  match body.dropWhile (· ≠ '=') with
  | [] => (String.ofList name, none)
  | _ :: value => (String.ofList name, some (String.ofList (value.dropWhile (· = '='))))

/-- Read the arguments of a subcommand. `awaiting?` is the option that the next
argument is the value of, unless it is an option itself. -/
def read (subcommand : Subcommand) (arguments : Arguments) (awaiting? : Option Setting) :
    List String → Request
  | [] => arguments.request subcommand
  | argument :: rest =>
      match argument.toList with
      | ['-', '-'] => readFiles subcommand arguments rest
      | '-' :: '-' :: body =>
          let (name, value?) := splitLong (body.dropWhile (· = '-'))
          if name = "eof" then
            read subcommand (arguments.give .endMarker value?)
              (if value?.isNone then some .endMarker else none) rest
          else if subcommand.outputOption? = some name then
            read subcommand (arguments.give .output value?)
              (if value?.isNone then some .output else none) rest
          else if name = "allow-conflicts" then
            read subcommand { arguments with allowConflicts := arguments.allowConflicts + 1 }
              none rest
          else if name = "version" then
            .version subcommand.versionText
          else
            .usage
      | '-' :: letter :: body =>
          if subcommand.shortOutputOption? = some letter then
            let value? :=
              if body.isEmpty then none else some (String.ofList (body.dropWhile (· = '=')))
            read subcommand (arguments.give .output value?)
              (if value?.isNone then some .output else none) rest
          else if letter = 'V' then
            .version subcommand.versionText
          else
            .usage
      | _ =>
          match awaiting? with
          | some setting => read subcommand (arguments.fill setting argument) none rest
          | none =>
              match arguments.file? with
              | some _ => .usage
              | none => read subcommand { arguments with file? := argument } none rest

end Arguments

/-- The request that the arguments of the program make. -/
def Request.ofArguments : List String → Request
  | [] => .usage
  | first :: rest =>
      match Subcommand.ofName? first with
      | some subcommand => Arguments.empty.read subcommand none rest
      | none =>
          match first.toList with
          | '-' :: '-' :: body =>
              if (Arguments.splitLong (body.dropWhile (· = '-'))).1 = "version" then
                .version "lrtab 0.1.0\n"
              else
                .usage
          | '-' :: 'V' :: _ => .version "lrtab 0.1.0\n"
          | _ => .usage

end CanonicalLR
