import CanonicalLR.Table.Basic
import CanonicalLR.TerminalStream

/-!
Contract: the shift-reduce run of a table over an input.

Owns:
- the stack of states, the single step and the steps of a whole run;
- the ways in which a run can fail.

Does not own: the number of steps that a caller allows.

A run over a table with conflicts need not end, so running out of steps is an
outcome of its own.
-/

namespace CanonicalLR

inductive Step where
  | shift (terminal : String) (state : Nat)
  | reduce (production goto : Nat)
  | accept
deriving DecidableEq

/-- `unknownProduction` is a reduction by an index that the grammar lacks, which
only a changed table can hold. -/
inductive WalkError where
  | missingAction (state : Nat) (terminal : String)
  | missingGoto (state : Nat) (nonterminal : String)
  | missingStartProduction
  | stackUnderflow
  | unknownProduction (index : Nat)
deriving DecidableEq

namespace Walk

/-- The states passed so far, the last one first, and the rest of the input. -/
structure Configuration where
  stack : List Nat
  stream : TerminalStream
deriving DecidableEq

/-- What one step makes of a configuration. -/
inductive Outcome where
  | next (step : Step) (configuration : Configuration)
  | accepted
  | failed (error : WalkError)
deriving DecidableEq

/-- Reduce by the production at `index`. A reduction by the start production
down to the first state accepts when all input is read. -/
def reduce (table : ParseTable) (startIndex index : Nat) (configuration : Configuration) :
    Outcome :=
  match table.grammar.productions[index]? with
  | none => .failed (.unknownProduction index)
  | some production =>
      match configuration.stack.drop production.rhs.length with
      | [] => .failed .stackUnderflow
      | top :: below =>
          if index = startIndex ∧ below.isEmpty ∧ configuration.stream.isAtEnd then
            .accepted
          else
            match table.goto? top production.lhs with
            | none => .failed (.missingGoto top production.lhs)
            | some target =>
                .next (.reduce index target)
                  { configuration with stack := target :: top :: below }

def step (table : ParseTable) (startIndex : Nat) (configuration : Configuration) : Outcome :=
  match configuration.stack with
  | [] => .failed .stackUnderflow
  | state :: _ =>
      let terminal := configuration.stream.terminal
      match table.action? state terminal with
      | none => .failed (.missingAction state terminal)
      | some (.shift target) =>
          .next (.shift terminal target)
            ⟨target :: configuration.stack, configuration.stream.advance⟩
      | some (.reduce index) => reduce table startIndex index configuration

/-- The steps of a run, `none` if it takes more than `limit` of them. `trace`
holds the steps so far, the last one first. -/
def run (table : ParseTable) (startIndex : Nat) :
    Nat → List Step → Configuration → Option (Except WalkError (List Step))
  | 0, _, _ => none
  | limit + 1, trace, configuration =>
      match step table startIndex configuration with
      | .next step configuration => run table startIndex limit (step :: trace) configuration
      | .accepted => some (.ok (.accept :: trace).reverse)
      | .failed error => some (.error error)

end Walk

/-- The steps of `table` over `input`, `none` if there are more than `limit`. -/
def walk (limit : Nat) (table : ParseTable) (input : List String) :
    Option (Except WalkError (List Step)) :=
  match table.startProduction? with
  | none => some (.error .missingStartProduction)
  | some (startIndex, _) =>
      Walk.run table startIndex limit [] ⟨[0], ⟨input, table.grammar.endMarker⟩⟩

end CanonicalLR
