import CanonicalLR.Closure
import CanonicalLR.Grammar.Check
import CanonicalLR.Table.Basic
import CanonicalLR.Table.Transition
import Std.Data.HashMap

/-!
Contract: the canonical LR(1) automaton and its tables.

Owns:
- the search for an equal state, and the numbering of the states;
- the row of a state, with the conflicts that come up in it;
- the construction, which completes the states in the order of their numbers;
- the checks that precede it, and their order.

Does not own: the closure of items, which the construction is given.

The automaton starts from the start production itself, so reducing by it with
nothing else on the stack is what accepts; no table entry does.
-/

namespace CanonicalLR

/-- How an equal state is looked for: among all states in the order of their
numbers, or among those with the same hash. Both find the same state. -/
inductive StateLookup where
  | scan
  | hashed (hash : Item → ItemSet → UInt64)

/-- A way to close seeds. -/
abbrev Closing := List Item → Except GenerationError ItemSet

/-- The automaton as far as it is known. The states with a row are complete; the
states after them wait for theirs. `buckets` lists the states by their hash. -/
structure Construction where
  states : Array State
  rows : Array Row
  conflicts : List Conflict
  buckets : Std.HashMap UInt64 (List Nat)

namespace Construction

def empty : Construction := ⟨#[], #[], [], ∅⟩

/-- The number of the state with the given kernel and items. -/
def find? (lookup : StateLookup) (construction : Construction) (kernel : Item)
    (items : ItemSet) : Option Nat :=
  match lookup with
  | .scan => construction.states.toList.findIdx? fun state => state.isSame kernel items
  | .hashed hash =>
      (construction.buckets.getD (hash kernel items) []).find? fun id =>
        construction.states[id]?.any fun state => state.isSame kernel items

def addState (lookup : StateLookup) (construction : Construction) (kernel : Item)
    (items : ItemSet) : Construction :=
  let id := construction.states.size
  { construction with
    states := construction.states.push ⟨id, kernel, items⟩
    buckets :=
      match lookup with
      | .scan => construction.buckets
      | .hashed hash =>
          let key := hash kernel items
          construction.buckets.insert key (construction.buckets.getD key [] ++ [id]) }

/-- The number of the state with the given kernel and items, which is appended
if there is none. -/
def intern (lookup : StateLookup) (construction : Construction) (kernel : Item)
    (items : ItemSet) : Nat × Construction :=
  match construction.find? lookup kernel items with
  | some id => (id, construction)
  | none => (construction.states.size, construction.addState lookup kernel items)

/-- The targets of the transitions, each new one with the next number. -/
def follow (lookup : StateLookup) (closure : Closing) (construction : Construction) :
    List Transition → Except GenerationError (List (Symbol × Nat) × Construction)
  | [] => .ok ([], construction)
  | transition :: rest => do
      let items ← closure transition.seeds
      let (target, extended) := construction.intern lookup transition.kernel items
      let (targets, final) ← extended.follow lookup closure rest
      return ((transition.symbol, target) :: targets, final)

/-- Write the actions of a state one after the other. The first action for a
terminal keeps its entry; a different one after it is a conflict, on which the
policy decides. -/
def writeActions (policy : ConflictPolicy) (state : Nat) (actions : NameMap Action) :
    List (String × Action) → Except GenerationError (NameMap Action × List Conflict)
  | [] => .ok (actions, [])
  | (terminal, incoming) :: rest =>
      match actions.get? terminal with
      | none => writeActions policy state (actions.insert terminal incoming) rest
      | some existing =>
          if existing = incoming then
            writeActions policy state actions rest
          else
            let conflict : Conflict := ⟨state, terminal, existing, incoming⟩
            match policy with
            | .fail => .error (.ambiguity conflict)
            | .report => do
                let (final, conflicts) ← writeActions policy state actions rest
                return (final, conflict :: conflicts)

def gotosOf (targets : List (Symbol × Nat)) : NameMap Nat :=
  targets.foldl
    (fun gotos (symbol, target) =>
      match symbol with
      | .nonterminal name => gotos.insert name target
      | .terminal _ => gotos)
    ∅

def shiftsOf (targets : List (Symbol × Nat)) : List (String × Action) :=
  targets.filterMap fun (symbol, target) =>
    match symbol with
    | .nonterminal _ => none
    | .terminal name => some (name, .shift target)

/-- Complete the next state: find the targets of its transitions and write its
row, reductions before shifts. -/
def complete (lookup : StateLookup) (policy : ConflictPolicy) (closure : Closing)
    (construction : Construction) (state : State) : Except GenerationError Construction := do
  let (targets, extended) ← construction.follow lookup closure state.items.transitions
  let (actions, conflicts) ←
    writeActions policy state.id ∅ (state.items.reductions ++ shiftsOf targets)
  return { extended with
    rows := extended.rows.push ⟨actions, gotosOf targets⟩
    conflicts := extended.conflicts ++ conflicts }

/-- Complete the waiting states, at most `limit` of them. -/
def run (lookup : StateLookup) (policy : ConflictPolicy) (closure : Closing) :
    Nat → Construction → Except GenerationError Construction
  | 0, construction => .ok construction
  | limit + 1, construction =>
      match construction.states[construction.rows.size]? with
      | none => .ok construction
      | some state => do
          let extended ← construction.complete lookup policy closure state
          run lookup policy closure limit extended

/-- The automaton with the state that `kernel` begins in. -/
def initial (lookup : StateLookup) (closure : Closing) (kernel : Item) :
    Except GenerationError Construction := do
  let items ← closure [kernel]
  return empty.addState lookup kernel items

/-- At least as many as there are pairs of a kernel and a set of items over the
productions and the alphabet of the grammar. -/
def limit (grammar : Grammar) : Nat :=
  let cores := grammar.productions.length + grammar.rhsLengths
  let terminals := grammar.alphabet.size
  cores * Nat.pow 2 terminals * Nat.pow 2 ((terminals + 1) * cores)

end Construction

namespace ParseTable

/-- The parse table of `grammar` with no more than `limit` states completed. The
last states of the table may be without a row. -/
def draft (lookup : StateLookup) (policy : ConflictPolicy) (limit : Nat) (grammar : Grammar) :
    Except GenerationError ParseTable :=
  match grammar.startProduction? with
  | none => .error .missingStartProduction
  | some (index, production) => do
      grammar.checkDefined
      grammar.checkDistinctRightHandSides
      let sets := Sets.ofGrammar grammar
      let closure := closeWithin (Closure.terminalLimit grammar sets) grammar sets
      let kernel := Item.start index production {grammar.endMarker}
      let initial ← Construction.initial lookup closure kernel
      let automaton ← Construction.run lookup policy closure limit initial
      return ⟨grammar, sets, automaton.states, automaton.rows, automaton.conflicts⟩

/-- The parse table of `grammar`, with the given way to look for equal states. -/
def generateWith (lookup : StateLookup) (policy : ConflictPolicy) (grammar : Grammar) :
    Except GenerationError ParseTable :=
  draft lookup policy (Construction.limit grammar) grammar

def stateHash (kernel : Item) (items : ItemSet) : UInt64 :=
  mixHash (hash kernel) (hash items)

/-- The parse table of `grammar`. The grammar needs a start production, a
production for each nonterminal that it uses and distinct right-hand sides, and
under the policy `fail` no conflicts. -/
def generate (policy : ConflictPolicy) (grammar : Grammar) :
    Except GenerationError ParseTable :=
  generateWith (.hashed stateHash) policy grammar

end ParseTable

end CanonicalLR
