/-!
Contract: log records.

Owns:
- levels, the parts of the program that records come from, and the written forms
  of a record.

Does not own: which records there are, and which of them are shown.
-/

namespace CanonicalLR

/-- From the most to the least important. -/
inductive LogLevel where
  | error
  | warn
  | info
  | debug
  | trace
deriving DecidableEq

namespace LogLevel

def text : LogLevel → String
  | error => "ERROR"
  | warn => "WARN"
  | info => "INFO"
  | debug => "DEBUG"
  | trace => "TRACE"

def rank : LogLevel → Nat
  | error => 1
  | warn => 2
  | info => 3
  | debug => 4
  | trace => 5

end LogLevel

/-- The part of the program that a record comes from. -/
inductive Component where
  | tokens
  | grammar
  | sets
  | closure
  | table
  | command
deriving DecidableEq

/-- The name of a part in the written form of its records. -/
def Component.text : Component → String
  | tokens => "lrtab_core::lr1::token"
  | grammar => "lrtab_core::lr1::grammar_parser"
  | sets => "lrtab_core::lr1::sets"
  | closure => "lrtab_core::lr1::closure"
  | table => "lrtab_core::lr1::parse_table"
  | command => "lrtab_cli::parse"

structure LogRecord where
  level : LogLevel
  component : Component
  message : String
deriving DecidableEq

namespace LogRecord

/-- Level, part and message with a space between them. -/
def text (record : LogRecord) : String :=
  record.level.text ++ " " ++ record.component.text ++ " " ++ record.message

/-- The line of a record on the terminal: the level is padded to five columns
and the lines of the message after the first one are indented by four. -/
def line (record : LogRecord) : String :=
  let padding := String.ofList (List.replicate (5 - record.level.text.length) ' ')
  let message := String.ofList
    (record.message.toList.flatMap fun character =>
      if character = '\n' then ['\n', ' ', ' ', ' ', ' '] else [character])
  "[" ++ record.level.text ++ padding ++ " " ++ record.component.text ++ "] " ++ message ++ "\n"

end LogRecord

end CanonicalLR
