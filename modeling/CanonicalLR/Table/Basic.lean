import CanonicalLR.Action
import CanonicalLR.ItemSet
import CanonicalLR.Sets

/-!
Contract: parse tables as values.

Owns:
- the states of the automaton and the rows of the ACTION and GOTO tables;
- look-up in the tables, and changes of a single entry.

Does not own: the construction of a table from a grammar.
-/

namespace CanonicalLR

/-- A state of the automaton. `kernel` is the first of the items that the state
was entered with, its lookahead not yet merged with that of any other item. -/
structure State where
  id : Nat
  kernel : Item
  items : ItemSet
deriving DecidableEq

/-- States are told apart by their kernel together with their items. -/
def State.isSame (state : State) (kernel : Item) (items : ItemSet) : Bool :=
  state.kernel = kernel && state.items = items

/-- The table entries of one state: actions by terminal and target states by
nonterminal. -/
structure Row where
  actions : NameMap Action
  gotos : NameMap Nat

/-- The states and the rows stand in the order of the state numbers. `conflicts`
lists the actions that lost their entry to an earlier one. -/
structure ParseTable where
  grammar : Grammar
  sets : Sets
  states : Array State
  rows : Array Row
  conflicts : List Conflict

namespace ParseTable

def action? (table : ParseTable) (state : Nat) (terminal : String) : Option Action :=
  table.rows[state]?.bind fun row => row.actions.get? terminal

def goto? (table : ParseTable) (state : Nat) (nonterminal : String) : Option Nat :=
  table.rows[state]?.bind fun row => row.gotos.get? nonterminal

/-- The target of the transition over `symbol`. A shift that lost its entry is
found among the conflicts. -/
def successor? (table : ParseTable) (state : Nat) (symbol : Symbol) : Option Nat :=
  match symbol with
  | .nonterminal name => table.goto? state name
  | .terminal name =>
      match table.action? state name with
      | some (.shift target) => some target
      | _ =>
          table.conflicts.findSome? fun conflict =>
            match conflict.incoming with
            | .shift target =>
                if conflict.state = state ∧ conflict.terminal = name then some target else none
            | .reduce _ => none

/-- Whether two states have equal kernels and items, if both exist. -/
def isSame? (table : ParseTable) (left right : Nat) : Option Bool := do
  let leftState ← table.states[left]?
  let rightState ← table.states[right]?
  return leftState.isSame rightState.kernel rightState.items

def startProduction? (table : ParseTable) : Option (Nat × Production) :=
  table.grammar.startProduction?

/-- Write an action, in exchange for the one that was there. -/
def setAction (table : ParseTable) (state : Nat) (terminal : String) (action : Action) :
    ParseTable :=
  { table with
    rows := table.rows.modify state fun row =>
      { row with actions := row.actions.insert terminal action } }

def eraseGoto (table : ParseTable) (state : Nat) (nonterminal : String) : ParseTable :=
  { table with
    rows := table.rows.modify state fun row =>
      { row with gotos := row.gotos.erase nonterminal } }

end ParseTable

end CanonicalLR
