import CanonicalLR.CommandLine.Arguments
import CanonicalLR.CommandLine.Files
import CanonicalLR.Log.Verbosity
import CanonicalLR.Narration
import CanonicalLR.Render.Grammar
import CanonicalLR.Render.Graph
import CanonicalLR.Render.Table

/-!
Contract: what commands do.

Owns:
- how far a command comes with a grammar, and the text that it makes of it or the
  reason why it makes none;
- the order of reading, making and writing;
- the report: exit status, standard output and standard error.

Does not own: the arguments, and the file system of the machine.

The output is written only after it has been made, so a failure leaves all files
as they are.
-/

namespace CanonicalLR

/-- What the user gets to see. -/
structure Report where
  exitStatus : Nat
  stdout : String
  stderr : String
deriving DecidableEq

/-- The text that a command puts out, and the conflicts to report after it. -/
structure Product where
  text : String
  conflicts : List Conflict
deriving DecidableEq

namespace Product

/-- The number of conflicts and a line for each, if there are any. -/
def notice (product : Product) : String :=
  if product.conflicts.isEmpty then
    ""
  else
    toString product.conflicts.length ++ " conflicts:\n" ++
      String.join (product.conflicts.map fun conflict => "  " ++ conflict.text ++ "\n")

end Product

/-- The streams that a program can write to from its start. -/
inductive StandardStream where
  | output
  | error
deriving DecidableEq

/-- The streams have paths like files, but are never opened anew. -/
def StandardStream.ofPath? : String → Option StandardStream
  | "/dev/stdout" => some output
  | "/dev/stderr" => some error
  | _ => none

/-- Where a product goes. -/
inductive Target where
  | stream (stream : StandardStream)
  | file (path : String)
deriving DecidableEq

/-- How far a command has come with the text of its grammar file. -/
inductive Progress where
  | unreadable (cause : SyntaxError)
  | read (grammar : Grammar)
  | generated (grammar : Grammar) (result : Except GenerationError ParseTable)

namespace Command

/-- The productions and the sets of a grammar, each grid with a blank line after
it. -/
def describeGrammar (grammar : Grammar) : String :=
  grammar.productionGrid.draw ++ "\n" ++ ((Sets.ofGrammar grammar).grid grammar).draw ++ "\n"

/-- The form of a table that the command asks for. What goes to the standard
output ends with a line feed of its own. -/
def describeTable (command : Command) (table : ParseTable) : String :=
  match command.subcommand, command.output? with
  | .table, some _ => table.entryGrid.csv
  | .table, none => table.closureGrid.draw ++ "\n"
  | .graph, _ => table.graph
  | _, some _ => table.compactText
  | _, none => table.compactText ++ "\n"

/-- Read the text of the grammar file, and unless its sets are asked for make the
table of the grammar. -/
def progress (command : Command) (source : String) : Progress :=
  match Grammar.parse command.endMarker source with
  | .error cause => .unreadable cause
  | .ok grammar =>
      if command.subcommand = .sets then .read grammar
      else .generated grammar (ParseTable.generate command.policy grammar)

/-- What the command puts out, or the message of its failure. -/
def product (command : Command) : Progress → Except String Product
  | .unreadable cause =>
      .error s!"Failed to parse grammar file `{command.grammarFile}`: {cause.message}"
  | .read grammar => .ok ⟨describeGrammar grammar, []⟩
  | .generated _ (.error cause) =>
      .error s!"Failed to generate parse table for `{command.grammarFile}`: {cause.message}"
  | .generated _ (.ok table) => .ok ⟨command.describeTable table, table.conflicts⟩

end Command

namespace Progress

def loaded (grammar : Grammar) : LogRecord :=
  let productions := grammar.productions.length
  let nonterminals := grammar.nonterminals.names.length
  let terminals := grammar.terminals.names.length
  ⟨.info, .command,
    s!"Grammar has {productions} productions, {nonterminals} nonterminals, " ++
      s!"{terminals} terminals"⟩

/-- The log records after those of reading the text. -/
def narrate : Progress → List LogRecord
  | .unreadable _ => []
  | .read grammar => [loaded grammar, Narration.ofSets grammar]
  | .generated grammar result =>
      loaded grammar :: Narration.ofGeneration grammar result ++
        match result with
        | .error _ => []
        | .ok table => [⟨.info, .command, s!"Parse table has {table.states.size} states"⟩]

end Progress

namespace Command

/-- The log lines that are shown. -/
def logText (command : Command) (verbosity : Verbosity) (source : String)
    (progress : Progress) : String :=
  let records := verbosity.select fun _ =>
    Narration.ofSource command.endMarker source ++ progress.narrate
  String.join (records.map LogRecord.line)

/-- The standard output, unless the command names something else. -/
def target (command : Command) : Target :=
  match command.output? with
  | none => .stream .output
  | some path => (StandardStream.ofPath? path).elim (.file path) .stream

/-- Read the grammar file, make the product and put it where it belongs. -/
def execute {m : Type → Type} [Monad m] (access : FileAccess m) (verbosity : Verbosity)
    (command : Command) : m Report := do
  match ← access.readText command.grammarFile with
  | .error cause =>
      return ⟨1, "",
        s!"Error: Failed to read grammar file `{command.grammarFile}`: {cause.message}\n"⟩
  | .ok source =>
      let progress := command.progress source
      let log := command.logText verbosity source progress
      match command.product progress with
      | .error message => return ⟨1, "", log ++ s!"Error: {message}\n"⟩
      | .ok product =>
          match command.target with
          | .stream .output => return ⟨0, product.text, log ++ product.notice⟩
          | .stream .error => return ⟨0, "", log ++ product.text ++ product.notice⟩
          | .file path =>
              match ← access.writeText path product.text with
              | .error cause => return ⟨1, "", log ++ s!"Error: {cause.message}\n"⟩
              | .ok () => return ⟨0, "", log ++ product.notice⟩

end Command

/-- The report on the arguments of the program; `usage` is the text that explains
them. Complaints about the setting of the log come before anything else. -/
def Request.report {m : Type → Type} [Monad m] (access : FileAccess m) (setting : LogSetting)
    (usage : String) (request : Request) : m Report := do
  let report ←
    match request with
    | .usage => pure ⟨1, "", usage⟩
    | .version text => pure ⟨0, text, ""⟩
    | .run command => command.execute access setting.verbosity
  return { report with stderr := setting.notice ++ report.stderr }

end CanonicalLR
