import CanonicalLR.Grammar.Edit
import CanonicalLR.Proofs.Table.Identity

/-!
Contract: the range of what stands in a table.

Owns:
- that terminals and nonterminals with an entry are listed by the grammar;
- that actions and GOTO entries are about states and productions that exist;
- that a state is entered over one symbol only;
- that every state but the first is entered from one with a smaller number.

Does not own: which entries there are.
-/

namespace CanonicalLR

/-- The action is about one of the states but the first, or about one of the productions. -/
def Action.InRange (states productions : Nat) : Action → Prop
  | .shift target => 0 < target ∧ target < states
  | .reduce index => index < productions

/-- A terminal of productions, or the end marker, is listed as a terminal. -/
theorem Grammar.Listed.mem_terminals {grammar : Grammar} (listed : grammar.Listed)
    {terminal : String} (member : terminal ∈ grammar.alphabet) :
    terminal ∈ grammar.terminals := by
  rcases Grammar.mem_alphabet.1 member with rfl | ⟨production, inProductions, inRhs⟩
  · exact listed.endMarker
  · exact listed.terminal production inProductions terminal inRhs

namespace ParseTable

/-- An entry of `source` for the symbol leads to the state, or a shift would if it had not
lost its entry to another action. -/
def Enters (table : ParseTable) (source : Nat) : Symbol → Nat → Prop
  | .terminal name, target => table.Shifts source name target
  | .nonterminal name, target => table.goto? source name = some target

/-- The table speaks of names, states and productions that exist, and its states are
numbered in an order in which each is entered from an earlier one. -/
structure WellFormed (grammar : Grammar) (table : ParseTable) : Prop where
  id_eq : ∀ (id : Nat) (state : State), table.states[id]? = some state → state.id = id
  rows_size : table.rows.size = table.states.size
  action_inRange : ∀ id terminal action, table.action? id terminal = some action →
    terminal ∈ grammar.terminals ∧
      action.InRange table.states.size grammar.productions.length
  incoming_inRange : ∀ conflict ∈ table.conflicts, conflict.terminal ∈ grammar.terminals ∧
    conflict.incoming.InRange table.states.size grammar.productions.length
  goto_inRange : ∀ id name target, table.goto? id name = some target →
    name ∈ grammar.nonterminals ∧ 0 < target ∧ target < table.states.size
  symbol_unique : ∀ left right leftSymbol rightSymbol target,
    table.Enters left leftSymbol target → table.Enters right rightSymbol target →
      leftSymbol = rightSymbol
  exists_enters : ∀ target, 0 < target → target < table.states.size →
    ∃ source < target, ∃ symbol, table.Enters source symbol target

variable {policy : ConflictPolicy} {grammar : Grammar} {table : ParseTable} {source target : Nat}
  {symbol : Symbol}

/-- The kernel of a state tells the symbol that the state is entered over: it stands before
the dot. -/
theorem Edge.kernel_rhs (edge : table.Edge source symbol target) {state : State}
    (present : table.states[target]? = some state) :
    state.kernel.rhs[state.kernel.dot - 1]? = some symbol := by
  obtain ⟨origin, transition, items, -, found, -, targetPresent⟩ := edge
  cases present.symm.trans targetPresent
  have seeds := (ItemSet.transition?_eq_some found).2
  have isSeed : transition.kernel ∈ origin.items.advancedOver symbol :=
    seeds ▸ List.mem_cons_self
  obtain ⟨item, -, next, advanced⟩ := ItemSet.mem_advancedOver.1 isSeed
  show transition.kernel.rhs[transition.kernel.dot - 1]? = some symbol
  rw [advanced]
  exact next

/-- All transitions into a state are over the same symbol. -/
theorem Edge.symbol_unique {other : Nat} {otherSymbol : Symbol}
    (edge : table.Edge source symbol target) (otherEdge : table.Edge other otherSymbol target) :
    symbol = otherSymbol := by
  have ⟨_, _, _, _, _, _, present⟩ := edge
  exact Option.some.inj ((edge.kernel_rhs present).symm.trans (otherEdge.kernel_rhs present))

namespace Generated

variable (generated : table.Generated policy)

include generated

theorem enters_iff : table.Enters source symbol target ↔ table.Edge source symbol target := by
  cases symbol with
  | terminal name =>
      exact ⟨generated.edge_of_shifts, fun edge => Candidate.shifts generated (.shift edge)⟩
  | nonterminal name => exact generated.goto?_eq_some source name target

theorem target_inRange (edge : table.Edge source symbol target) :
    0 < target ∧ target < table.states.size :=
  ⟨Nat.pos_of_ne_zero (generated.target_ne_zero edge), edge.target_lt⟩

/-- Whatever the items call for is in range, whether or not it gets the entry. -/
theorem candidate_inRange (listed : table.grammar.Listed) {id : Nat} {terminal : String}
    {action : Action} (candidate : table.Candidate id terminal action) :
    terminal ∈ table.grammar.terminals ∧
      action.InRange table.states.size table.grammar.productions.length := by
  cases action with
  | shift target =>
      obtain ⟨production, member, inRhs⟩ := generated.exists_mem_rhs candidate.edge
      exact ⟨listed.terminal production member terminal inRhs,
        generated.target_inRange candidate.edge⟩
  | reduce index =>
      obtain ⟨core, records, -, rfl⟩ := candidate_reduce_iff.1 candidate
      obtain ⟨⟨production, found, -⟩, inAlphabet⟩ := generated.fits_of_records records
      exact ⟨listed.mem_terminals (inAlphabet terminal rfl), (List.getElem?_eq_some_iff.1 found).1⟩

end Generated

/-- Tables of grammars whose parts agree are well formed. -/
theorem wellFormed_of_generate (made : grammar.Made)
    (generation : generate policy grammar = .ok table) : table.WellFormed grammar := by
  have complete := rows_size_of_generateWith generation
  obtain ⟨rfl, generated⟩ := generated_of_generateWith generation
  have listed := made.listed
  exact {
    id_eq := fun _ _ => generated.id_eq
    rows_size := complete
    action_inRange := fun id terminal action entry =>
      generated.candidate_inRange listed (generated.candidate_of_action? id terminal action entry)
    incoming_inRange := fun conflict member =>
      generated.candidate_inRange listed ((generated.mem_conflicts conflict).1 member).1
    goto_inRange := by
      intro id name target entry
      have edge := (generated.goto?_eq_some id name target).1 entry
      obtain ⟨production, member, inRhs⟩ := generated.exists_mem_rhs edge
      exact ⟨listed.nonterminal production member name inRhs, generated.target_inRange edge⟩
    symbol_unique := by
      intro left right leftSymbol rightSymbol target entered enteredToo
      exact (generated.enters_iff.1 entered).symbol_unique (generated.enters_iff.1 enteredToo)
    exists_enters := by
      intro target positive below
      obtain ⟨source, before, symbol, edge⟩ := generated.reached target positive below
      exact ⟨source, before, symbol, generated.enters_iff.2 edge⟩ }

/-- In the table of the sample made by hand, with its names listed, one of the states is
entered by a lost shift only. -/
theorem wellFormed_of_generate_samples :
    (∃ table, generate .fail Grammar.sums = .ok table ∧ table.WellFormed Grammar.sums) ∧
      ∃ table, generate .report Grammar.optional.rebuild = .ok table ∧
        table.WellFormed Grammar.optional.rebuild ∧ table.Enters 0 (.terminal "a") 2 := by
  constructor
  · obtain ⟨table, generation⟩ := exists_generate_sums
    exact ⟨table, generation, wellFormed_of_generate (.parsed Grammar.parse_sums) generation⟩
  · have computed : (generateWith .scan .report Grammar.optional.rebuild).toOption.bind
        (fun table => some table.conflicts) = some [⟨0, "a", .reduce 1, .shift 2⟩] := by
      decide +kernel
    obtain ⟨table, generation, conflicts⟩ := exists_generate_of_scan computed
    have lost : ⟨0, "a", .reduce 1, .shift 2⟩ ∈ table.conflicts := by
      rw [Option.some.inj conflicts]
      exact List.mem_singleton_self _
    exact ⟨table, generation, wellFormed_of_generate (.built "eof" _) generation,
      .inr ⟨_, lost, rfl, rfl, rfl⟩⟩

end ParseTable

end CanonicalLR
