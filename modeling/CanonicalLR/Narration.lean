import CanonicalLR.Grammar.Source
import CanonicalLR.Log
import CanonicalLR.Table.Construction

/-!
Contract: the log records of reading a grammar and making its table.

Owns:
- the events of the construction of a table, in their order;
- the records of each stage that is reached.

Does not own: the results of the stages.

The records are told from the finished values: a table shows in which order its
states were found, so nothing needs to be noted while it is made. If a conflict
ends the construction, the table up to its state is made once more, with
conflicts reported.
-/

namespace CanonicalLR

/-- What happens in the construction of a table. -/
inductive Event where
  | closed (items : ItemSet)
  | found (state : State)
  | wroteGoto (state : Nat) (nonterminal : String) (target : Nat)
  | met (conflict : Conflict)
deriving DecidableEq

def Event.record : Event → LogRecord
  | closed items => ⟨.trace, .closure, s!"Closed item set with {items.size} items"⟩
  | found state =>
      ⟨.trace, .table,
        s!"State {state.id}: kernel {state.kernel.text}, {state.items.size} items"⟩
  | wroteGoto state nonterminal target =>
      ⟨.trace, .table, s!"GOTO({state}, <{nonterminal}>) = {target}"⟩
  | met conflict => ⟨.warn, .table, conflict.text⟩

def Event.isConflict : Event → Bool
  | met _ => true
  | _ => false

namespace ParseTable

/-- The events of following one transition when `known` states are known and the
state has the given conflicts. -/
def transitionEvents (table : ParseTable) (conflicts : List Conflict) (known state : Nat)
    (symbol : Symbol) : List Event :=
  match table.successor? state symbol with
  | none => []
  | some target =>
      let reached :=
        match table.states[target]? with
        | none => []
        | some next => .closed next.items :: if target = known then [.found next] else []
      let written :=
        match symbol with
        | .nonterminal name => [.wroteGoto state name target]
        | .terminal name =>
            (conflicts.filter fun conflict =>
              conflict.terminal = name ∧ conflict.incoming = .shift target).map .met
      reached ++ written

/-- The number of known states after one transition. Only the state with the next
number can be new. -/
def knownAfter (table : ParseTable) (state known : Nat) (symbol : Symbol) : Nat :=
  if table.successor? state symbol = some known then known + 1 else known

/-- The events of following transitions in turn. -/
def transitionsEvents (table : ParseTable) (conflicts : List Conflict) (state : Nat) :
    Nat → List Symbol → List Event
  | _, [] => []
  | known, symbol :: rest =>
      table.transitionEvents conflicts known state symbol ++
        table.transitionsEvents conflicts state (table.knownAfter state known symbol) rest

/-- The events of completing the states in turn. A state begins with the
conflicts among its reductions. -/
def completionEvents (table : ParseTable) : Nat → List State → List Event
  | _, [] => []
  | known, state :: rest =>
      let symbols := state.items.nextSymbols
      let conflicts := table.conflicts.filter fun conflict => conflict.state = state.id
      let amongReductions := conflicts.filter fun conflict =>
        match conflict.incoming with
        | .reduce _ => true
        | .shift _ => false
      amongReductions.map .met ++
        table.transitionsEvents conflicts state.id known symbols ++
        table.completionEvents (symbols.foldl (table.knownAfter state.id) known) rest

/-- The events of making the table under the policy that reports conflicts. -/
def events (table : ParseTable) : List Event :=
  match table.states.toList with
  | [] => []
  | first :: others =>
      .closed first.items :: .found first :: table.completionEvents 1 (first :: others)

/-- The events of making the table of `grammar` up to `conflict`, the first one
that comes up. They show once its state is complete. -/
def eventsUntil (conflict : Conflict) (grammar : Grammar) : List Event :=
  match draft (.hashed stateHash) .report (conflict.state + 1) grammar with
  | .error _ => []
  | .ok table => table.events.takeWhile fun event => !event.isConflict

end ParseTable

namespace Narration

/-- The records of reading the text of a grammar. -/
def ofSource (endMarker source : String) : List LogRecord :=
  match tokenize source with
  | .error _ => []
  | .ok lexemes =>
      ⟨.debug, .tokens, s!"Tokenized grammar into {lexemes.length} tokens"⟩ ::
        match parseProductions endMarker lexemes with
        | .error _ => []
        | .ok productions => [⟨.debug, .grammar, s!"Parsed {productions.length} productions"⟩]

/-- The record of solving for the FIRST and FOLLOW sets. -/
def ofSets (grammar : Grammar) : LogRecord :=
  let first := grammar.firstSolution
  let follow := grammar.followSolution first.1
  ⟨.debug, .sets,
    s!"FIRST sets stable after {first.2} passes, FOLLOW sets after {follow.2} passes"⟩

/-- The records of making a table, given what came of it. A grammar that fails a
check leaves none, and a conflict that is not reported ends them. -/
def ofGeneration (grammar : Grammar) : Except GenerationError ParseTable → List LogRecord
  | .ok table =>
      let finished : LogRecord :=
        ⟨.debug, .table,
          s!"Generated {table.states.size} states with {table.conflicts.length} conflicts"⟩
      ofSets grammar :: table.events.map Event.record ++ [finished]
  | .error (.ambiguity conflict) =>
      ofSets grammar :: (ParseTable.eventsUntil conflict grammar).map Event.record
  | .error _ => []

end Narration

end CanonicalLR
