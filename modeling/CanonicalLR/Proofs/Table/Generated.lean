import CanonicalLR.Proofs.Grammar.Check
import CanonicalLR.Proofs.Table.Finite

/-!
Contract: the table of a grammar, entry by entry.

Owns:
- the transitions between states and the actions that items call for;
- that the entries of a generated table are these, and what its conflicts are;
- that the limit of the construction is never reached, so that every state has its row;
- the success of generation under the policy `report`.

Does not own: the meaning of items for derivations.
-/

namespace CanonicalLR

namespace ParseTable

/-- The state `source` has a transition over `symbol`, and it leads to `target`. -/
def Edge (table : ParseTable) (source : Nat) (symbol : Symbol) (target : Nat) : Prop :=
  ∃ state transition items, table.states[source]? = some state ∧
    state.items.transition? symbol = some transition ∧
    close table.grammar table.sets transition.seeds = .ok items ∧
    table.states[target]? = some ⟨target, transition.kernel, items⟩

/-- The actions that the items of a state call for. -/
inductive Candidate (table : ParseTable) (id : Nat) (terminal : String) : Action → Prop where
  | shift {target : Nat} (edge : table.Edge id (.terminal terminal) target) :
      Candidate table id terminal (.shift target)
  | reduce {state : State} {item : Item} (present : table.states[id]? = some state)
      (member : item ∈ state.items) (complete : item.next? = none)
      (inLookahead : terminal ∈ item.lookahead) :
      Candidate table id terminal (.reduce item.production)

theorem Candidate.present {table : ParseTable} {id : Nat} {terminal : String}
    {action : Action} (candidate : table.Candidate id terminal action) :
    ∃ state, table.states[id]? = some state := by
  cases candidate with
  | shift edge =>
      obtain ⟨state, _, _, present, -⟩ := edge
      exact ⟨state, present⟩
  | reduce present => exact ⟨_, present⟩

/-- The table is the automaton of its grammar, with every state completed. -/
structure Generated (policy : ConflictPolicy) (table : ParseTable) : Prop where
  sets_eq : table.sets = Sets.ofGrammar table.grammar
  initial : ∃ index production items,
    table.grammar.startProduction? = some (index, production) ∧
    close table.grammar table.sets
      [Item.start index production {table.grammar.endMarker}] = .ok items ∧
    table.states[0]? = some ⟨0, Item.start index production {table.grammar.endMarker}, items⟩
  fits : ∀ (id : Nat) (state : State), table.states[id]? = some state →
    state.items.Fits table.grammar
  distinct : ∀ (left right : Nat) (leftState rightState : State),
    table.states[left]? = some leftState → table.states[right]? = some rightState →
    leftState.kernel = rightState.kernel → leftState.items = rightState.items → left = right
  reached : ∀ target, 0 < target → target < table.states.size →
    ∃ source < target, ∃ symbol, table.Edge source symbol target
  exists_edge : ∀ (id : Nat) (state : State) (item : Item) (symbol : Symbol),
    table.states[id]? = some state → item ∈ state.items → item.next? = some symbol →
    ∃ target, table.Edge id symbol target
  goto?_eq_some : ∀ id name target,
    table.goto? id name = some target ↔ table.Edge id (.nonterminal name) target
  candidate_of_action? : ∀ id terminal action, table.action? id terminal = some action →
    table.Candidate id terminal action
  exists_action? : ∀ id terminal action, table.Candidate id terminal action →
    ∃ first, table.action? id terminal = some first
  mem_conflicts : ∀ conflict, conflict ∈ table.conflicts ↔
    table.Candidate conflict.state conflict.terminal conflict.incoming ∧
      table.action? conflict.state conflict.terminal = some conflict.existing ∧
      conflict.existing ≠ conflict.incoming
  conflicts_eq_nil : policy = .fail → table.conflicts = []

end ParseTable

/-! ### The parts of generation -/

namespace Construction

/-- The table with the states and rows of a construction. -/
def tableOf (grammar : Grammar) (construction : Construction) : ParseTable :=
  ⟨grammar, Sets.ofGrammar grammar, construction.states, construction.rows,
    construction.conflicts⟩

/-- A table is drafted by the checks, by the first state, and by a run from there. -/
theorem draft_eq (lookup : StateLookup) (policy : ConflictPolicy) (limit : Nat)
    (grammar : Grammar) :
    ParseTable.draft lookup policy limit grammar =
      grammar.checkedStart >>= fun (index, production) => do
        let first ← initial lookup (close grammar (Sets.ofGrammar grammar))
          (.start index production {grammar.endMarker})
        let final ← run lookup policy (close grammar (Sets.ofGrammar grammar)) limit first
        return tableOf grammar final := by
  unfold ParseTable.draft Grammar.checkedStart
  cases grammar.startProduction? with
  | none => rfl
  | some start =>
      cases grammar.checkDefined with
      | error cause => rfl
      | ok =>
          cases grammar.checkDistinctRightHandSides with
          | error cause => rfl
          | ok => rfl

theorem draft_eq_ok {lookup : StateLookup} {policy : ConflictPolicy} {limit : Nat}
    {grammar : Grammar} {table : ParseTable} :
    ParseTable.draft lookup policy limit grammar = .ok table ↔
      ∃ index production first final,
        grammar.startProduction? = some (index, production) ∧
        grammar.checkDefined = .ok () ∧ grammar.checkDistinctRightHandSides = .ok () ∧
        initial lookup (close grammar (Sets.ofGrammar grammar))
          (.start index production {grammar.endMarker}) = .ok first ∧
        run lookup policy (close grammar (Sets.ofGrammar grammar)) limit first = .ok final ∧
        table = tableOf grammar final := by
  rw [draft_eq, bind_eq_ok]
  constructor
  · rintro ⟨⟨index, production⟩, checked, drafted⟩
    obtain ⟨started, defined, distinct⟩ := Grammar.checkedStart_eq_ok.1 checked
    obtain ⟨first, begun, drafted⟩ := bind_eq_ok.1 drafted
    obtain ⟨final, ran, drafted⟩ := bind_eq_ok.1 drafted
    cases drafted
    exact ⟨index, production, first, final, started, defined, distinct, begun, ran, rfl⟩
  · rintro ⟨index, production, first, final, started, defined, distinct, begun, ran, rfl⟩
    exact ⟨(index, production), Grammar.checkedStart_eq_ok.2 ⟨started, defined, distinct⟩,
      bind_eq_ok.2 ⟨first, begun, bind_eq_ok.2 ⟨final, ran, rfl⟩⟩⟩

/-! ### The entries of a completed construction -/

section Entries

variable {lookup : StateLookup} {policy : ConflictPolicy} {grammar : Grammar} {kernel : Item}
  {items : ItemSet} {construction : Construction} {completions : List Completion}
  (coherent : Coherent lookup policy (close grammar (Sets.ofGrammar grammar)) kernel items
    construction completions)

include coherent

theorem exists_completion
    (finished : construction.rows.size = construction.states.size) {id : Nat} {state : State}
    (present : construction.states[id]? = some state) :
    ∃ completion, completions[id]? = some completion ∧
      Completes policy (close grammar (Sets.ofGrammar grammar)) construction.states state
        completion := by
  have inRange : id < completions.length := by
    rw [← coherent.rows_size, finished]
    exact (Array.getElem?_eq_some_iff.1 present).1
  have found := List.getElem?_eq_getElem inRange
  obtain ⟨other, otherPresent, completes⟩ := coherent.completed id _ found
  rw [present] at otherPresent
  cases otherPresent
  exact ⟨_, found, completes⟩

private theorem exists_completion_of_row {id : Nat} {row : Row}
    (inRows : construction.rows[id]? = some row) :
    ∃ state completion, construction.states[id]? = some state ∧
      completions[id]? = some completion ∧
      Completes policy (close grammar (Sets.ofGrammar grammar)) construction.states state
        completion := by
  rw [← Array.getElem?_toList, coherent.rows_eq, List.getElem?_map,
    Option.map_eq_some_iff] at inRows
  obtain ⟨completion, found, -⟩ := inRows
  obtain ⟨state, present, completes⟩ := coherent.completed id completion found
  exact ⟨state, completion, present, found, completes⟩

private theorem getElem?_rows {id : Nat} {completion : Completion}
    (found : completions[id]? = some completion) :
    construction.rows[id]? = some completion.row := by
  rw [← Array.getElem?_toList, coherent.rows_eq, List.getElem?_map, found, Option.map_some]

variable {id : Nat} {state : State} {completion : Completion}

private theorem mem_targets (present : construction.states[id]? = some state)
    (completes : Completes policy (close grammar (Sets.ofGrammar grammar)) construction.states
      state completion) {symbol : Symbol} {target : Nat} :
    (symbol, target) ∈ completion.targets ↔
      (tableOf grammar construction).Edge id symbol target := by
  constructor
  · intro member
    obtain ⟨transition, inTransitions, sameSymbol, items, closed, targetPresent⟩ :=
      exists_transition_of_target completes.leads member
    have found := ItemSet.mem_transitions.1 inTransitions
    rw [← sameSymbol] at found
    exact ⟨state, transition, items, present, found, closed, targetPresent⟩
  · rintro ⟨other, transition, items, otherPresent, found, closed, targetPresent⟩
    have same : state = other := Option.some.inj (present.symm.trans otherPresent)
    subst same
    have sameSymbol := (ItemSet.transition?_eq_some found).1
    have inTransitions : transition ∈ state.items.transitions :=
      ItemSet.mem_transitions.2 (sameSymbol.symm ▸ found)
    obtain ⟨⟨name, number⟩, member, named, others, closedToo, entryPresent⟩ :=
      exists_target_of_transition completes.leads inTransitions
    simp only at named entryPresent
    have sameItems : items = others := Except.ok.inj (closed.symm.trans closedToo)
    have sameTarget := coherent.distinct _ _ _ _ targetPresent entryPresent rfl sameItems
    rw [sameTarget, ← sameSymbol, ← named]
    exact member

theorem mem_candidates (present : construction.states[id]? = some state)
    (completes : Completes policy (close grammar (Sets.ofGrammar grammar)) construction.states
      state completion) {terminal : String} {action : Action} :
    (terminal, action) ∈ state.items.reductions ++ shiftsOf completion.targets ↔
      (tableOf grammar construction).Candidate id terminal action := by
  rw [List.mem_append, ItemSet.mem_reductions, mem_shiftsOf]
  constructor
  · rintro (⟨item, member, complete, inLookahead, rfl⟩ | ⟨target, member, rfl⟩)
    · exact .reduce present member complete inLookahead
    · exact .shift ((mem_targets coherent present completes).1 member)
  · intro candidate
    cases candidate with
    | shift edge => exact .inr ⟨_, (mem_targets coherent present completes).2 edge, rfl⟩
    | @reduce other item otherPresent member complete inLookahead =>
        have same : state = other := Option.some.inj (present.symm.trans otherPresent)
        subst same
        exact .inl ⟨item, member, complete, inLookahead, rfl⟩

theorem action?_eq (found : completions[id]? = some completion) (terminal : String) :
    (tableOf grammar construction).action? id terminal = completion.actions.get? terminal := by
  show (construction.rows[id]?).bind _ = _
  rw [getElem?_rows coherent found]
  rfl

private theorem goto?_eq (found : completions[id]? = some completion)
    (completes : Completes policy (close grammar (Sets.ofGrammar grammar)) construction.states
      state completion) (name : String) (target : Nat) :
    (tableOf grammar construction).goto? id name = some target ↔
      (.nonterminal name, target) ∈ completion.targets := by
  have distinct : (completion.targets.map Prod.fst).Nodup := by
    rw [symbols_of_targets completes.leads]
    exact state.items.transitions_symbols_nodup
  rw [← get?_gotosOf distinct]
  show (construction.rows[id]?).bind _ = _ ↔ _
  rw [getElem?_rows coherent found]
  rfl

private theorem goto?_iff (finished : construction.rows.size = construction.states.size)
    (name : String) (target : Nat) :
    (tableOf grammar construction).goto? id name = some target ↔
      (tableOf grammar construction).Edge id (.nonterminal name) target := by
  constructor
  · intro entry
    obtain ⟨row, inRows, -⟩ := Option.bind_eq_some_iff.1 entry
    obtain ⟨state, completion, present, found, completes⟩ :=
      exists_completion_of_row coherent inRows
    rw [goto?_eq coherent found completes] at entry
    exact (mem_targets coherent present completes).1 entry
  · intro edge
    have ⟨state, _, _, present, _⟩ := edge
    obtain ⟨completion, found, completes⟩ := exists_completion coherent finished present
    rw [goto?_eq coherent found completes]
    exact (mem_targets coherent present completes).2 edge

private theorem exists_edge_of_next (finished : construction.rows.size = construction.states.size)
    {item : Item} {symbol : Symbol} (present : construction.states[id]? = some state)
    (member : item ∈ state.items) (next : item.next? = some symbol) :
    ∃ target, (tableOf grammar construction).Edge id symbol target := by
  obtain ⟨completion, -, completes⟩ := exists_completion coherent finished present
  obtain ⟨transition, found⟩ := ItemSet.exists_transition member next
  have sameSymbol := (ItemSet.transition?_eq_some found).1
  obtain ⟨⟨name, target⟩, inTargets, named, -⟩ :=
    exists_target_of_transition completes.leads
      (ItemSet.mem_transitions.2 (sameSymbol.symm ▸ found))
  simp only at named
  rw [named, sameSymbol] at inTargets
  exact ⟨target, (mem_targets coherent present completes).1 inTargets⟩

private theorem mem_conflicts (finished : construction.rows.size = construction.states.size)
    (conflict : Conflict) :
    conflict ∈ construction.conflicts ↔
      (tableOf grammar construction).Candidate conflict.state conflict.terminal
          conflict.incoming ∧
        (tableOf grammar construction).action? conflict.state conflict.terminal =
          some conflict.existing ∧ conflict.existing ≠ conflict.incoming := by
  rw [coherent.conflicts_eq, List.mem_flatMap]
  constructor
  · rintro ⟨completion, inCompletions, member⟩
    obtain ⟨id, found⟩ := List.getElem?_of_mem inCompletions
    obtain ⟨state, present, completes⟩ := coherent.completed id completion found
    rw [(writeActions_spec completes.written).2.1, mem_lostActions] at member
    obtain ⟨sameState, isCandidate, entry, different⟩ := member
    rw [coherent.id_eq id state present] at sameState
    subst sameState
    rw [action?_eq coherent found]
    exact ⟨(mem_candidates coherent present completes).1 isCandidate, entry, different⟩
  · rintro ⟨candidate, entry, different⟩
    obtain ⟨state, present⟩ := candidate.present
    obtain ⟨completion, found, completes⟩ := exists_completion coherent finished present
    refine ⟨completion, List.mem_of_getElem? found, ?_⟩
    rw [action?_eq coherent found] at entry
    rw [(writeActions_spec completes.written).2.1, mem_lostActions]
    exact ⟨(coherent.id_eq _ state present).symm,
      (mem_candidates coherent present completes).2 candidate, entry, different⟩

/-- A construction with a row for each state makes a table whose entries are what
the items call for. -/
theorem tableOf_generated (finished : construction.rows.size = construction.states.size)
    {index : Nat} {production : Production}
    (started : grammar.startProduction? = some (index, production))
    (isStart : kernel = .start index production {grammar.endMarker})
    (closed : close grammar (Sets.ofGrammar grammar) [kernel] = .ok items)
    (fits : ∀ (id : Nat) (state : State), construction.states[id]? = some state →
      state.items.Fits grammar) :
    (tableOf grammar construction).Generated policy where
  sets_eq := rfl
  initial := by
    subst isStart
    exact ⟨index, production, items, started, closed, coherent.initial⟩
  fits := fits
  distinct := coherent.distinct
  reached := by
    intro target positive below
    obtain ⟨source, before, completion, found, ⟨symbol, number⟩, member, rfl⟩ :=
      coherent.reached target positive below
    obtain ⟨state, present, completes⟩ := coherent.completed source completion found
    exact ⟨source, before, symbol, (mem_targets coherent present completes).1 member⟩
  exists_edge _ _ _ _ present member next :=
    exists_edge_of_next coherent finished present member next
  goto?_eq_some _ := goto?_iff coherent finished
  candidate_of_action? := by
    intro id terminal action entry
    obtain ⟨row, inRows, -⟩ := Option.bind_eq_some_iff.1 entry
    obtain ⟨state, completion, present, found, completes⟩ :=
      exists_completion_of_row coherent inRows
    rw [action?_eq coherent found, completes.get?_actions] at entry
    exact (mem_candidates coherent present completes).1 (mem_of_firstAction? entry)
  exists_action? := by
    intro id terminal action candidate
    obtain ⟨state, present⟩ := candidate.present
    obtain ⟨completion, found, completes⟩ := exists_completion coherent finished present
    rw [action?_eq coherent found, completes.get?_actions]
    exact exists_firstAction? ((mem_candidates coherent present completes).2 candidate)
  mem_conflicts := mem_conflicts coherent finished
  conflicts_eq_nil := by
    rintro rfl
    show construction.conflicts = []
    rw [coherent.conflicts_eq, List.flatMap_eq_nil_iff]
    intro completion member
    obtain ⟨id, found⟩ := List.getElem?_of_mem member
    obtain ⟨state, -, completes⟩ := coherent.completed id completion found
    exact (writeActions_spec completes.written).2.2 rfl

end Entries

end Construction

/-! ### Generated tables -/

namespace ParseTable

open Construction

variable {lookup : StateLookup} {policy : ConflictPolicy} {grammar : Grammar} {table : ParseTable}

private theorem start_fits {index : Nat} {production : Production}
    (started : grammar.startProduction? = some (index, production)) :
    (Item.start index production {grammar.endMarker}).Fits grammar := by
  refine ⟨.of_start (Grammar.getElem?_of_startProduction? started), fun terminal member => ?_⟩
  exact Grammar.mem_alphabet.2 (.inl (NameSet.mem_singleton.1 member))

theorem startSeeds_fit {index : Nat} {production : Production}
    (started : grammar.startProduction? = some (index, production)) :
    ∀ seed ∈ [Item.start index production {grammar.endMarker}], seed.Fits grammar := by
  intro seed member
  rw [List.mem_singleton.1 member]
  exact start_fits started

private theorem fits_passes (sourceKernel : Item) (source target : ItemSet)
    (transition : Transition) (fits : sourceKernel.Fits grammar ∧ source.Fits grammar)
    (member : transition ∈ source.transitions)
    (closed : close grammar (Sets.ofGrammar grammar) transition.seeds = .ok target) :
    transition.kernel.Fits grammar ∧ target.Fits grammar := by
  have seedsFit := fits.2.seeds member
  exact ⟨seedsFit _ List.mem_cons_self, fits_of_close closed seedsFit⟩

/-- All items of a construction from the first state are over the grammar. -/
private theorem fits_of_coherent {index : Nat} {production : Production} {items : ItemSet}
    {construction : Construction} {completions : List Completion}
    (started : grammar.startProduction? = some (index, production))
    (closed : close grammar (Sets.ofGrammar grammar)
      [.start index production {grammar.endMarker}] = .ok items)
    (coherent : Coherent lookup policy (close grammar (Sets.ofGrammar grammar))
      (.start index production {grammar.endMarker}) items construction completions)
    {id : Nat} {state : State} (present : construction.states[id]? = some state) :
    state.kernel.Fits grammar ∧ state.items.Fits grammar := by
  have initialFits := fits_of_close closed (startSeeds_fit started)
  exact coherent.states_induction ⟨start_fits started, initialFits⟩ fits_passes present

/-- What is known of a construction that has run under its limit: every state is
completed, and all items are over the grammar. -/
theorem coherent_of_run {index : Nat} {production : Production} {first final : Construction}
    (started : grammar.startProduction? = some (index, production))
    (begun : Construction.initial lookup (close grammar (Sets.ofGrammar grammar))
      (.start index production {grammar.endMarker}) = .ok first)
    (ran : Construction.run lookup policy (close grammar (Sets.ofGrammar grammar))
      (limit grammar) first = .ok final) :
    ∃ items completions,
      close grammar (Sets.ofGrammar grammar) [.start index production {grammar.endMarker}] =
        .ok items ∧
      Coherent lookup policy (close grammar (Sets.ofGrammar grammar))
        (.start index production {grammar.endMarker}) items final completions ∧
      final.rows.size = final.states.size ∧
      ∀ (id : Nat) (state : State), final.states[id]? = some state →
        state.items.Fits grammar := by
  obtain ⟨items, closed, firstCoherent⟩ := Coherent.of_initial policy begun
  obtain ⟨completions, coherent, ends⟩ := firstCoherent.run ran
  have fits : ∀ (id : Nat) (state : State), final.states[id]? = some state →
      state.kernel.Fits grammar ∧ state.items.Fits grammar := fun _ _ present =>
    fits_of_coherent started closed coherent present
  have finished : final.rows.size = final.states.size := by
    rcases ends with finished | exhausted
    · exact finished
    · have bound := states_size_le coherent.toIndexed fits
      have rows := coherent.rows_size_le
      omega
  exact ⟨items, completions, closed, coherent, finished, fun id state present =>
    (fits id state present).2⟩

theorem generated_of_generateWith (generated : generateWith lookup policy grammar = .ok table) :
    table.grammar = grammar ∧ table.Generated policy := by
  obtain ⟨index, production, first, final, started, -, -, begun, ran, rfl⟩ :=
    draft_eq_ok.1 generated
  obtain ⟨items, completions, closed, coherent, finished, fits⟩ :=
    coherent_of_run started begun ran
  exact ⟨rfl, tableOf_generated coherent finished started rfl closed fits⟩

/-- Every state of a generated table has its row. -/
theorem rows_size_of_generateWith (generated : generateWith lookup policy grammar = .ok table) :
    table.rows.size = table.states.size := by
  obtain ⟨_, _, _, _, started, -, -, begun, ran, rfl⟩ := draft_eq_ok.1 generated
  obtain ⟨_, _, -, -, finished, -⟩ := coherent_of_run started begun ran
  exact finished

/-- Seeds over a grammar without undefined nonterminals have a closure. -/
theorem closes_of_fits (defined : grammar.checkDefined = .ok ()) {seeds : List Item}
    (fits : ∀ seed ∈ seeds, seed.Fits grammar) :
    ∃ set, close grammar (Sets.ofGrammar grammar) seeds = .ok set := by
  apply exists_close
  intro core name reaches
  rintro ⟨next, nothing⟩
  have used : ∃ production ∈ grammar.productions, core.rhs = production.rhs := by
    rcases reaches.known.1 with ⟨seed, member, rfl⟩ | ⟨index, production, found, rfl⟩
    · obtain ⟨production, found, -, sameRhs, -⟩ := (fits seed member).1
      exact ⟨production, List.mem_of_getElem? found, sameRhs⟩
    · exact ⟨production, List.mem_of_getElem? found, rfl⟩
  obtain ⟨production, member, sameRhs⟩ := used
  have inRhs : .nonterminal name ∈ production.rhs := sameRhs ▸ List.mem_of_getElem? next
  exact Grammar.productionsFor_ne_nil_of_checkDefined defined member inRhs nothing

theorem exists_initial (lookup : StateLookup) {index : Nat} {production : Production}
    (started : grammar.startProduction? = some (index, production))
    (defined : grammar.checkDefined = .ok ()) :
    ∃ first, Construction.initial lookup (close grammar (Sets.ofGrammar grammar))
      (.start index production {grammar.endMarker}) = .ok first := by
  obtain ⟨items, closed⟩ := closes_of_fits defined (startSeeds_fit started)
  exact ⟨_, bind_eq_ok.2 ⟨items, closed, rfl⟩⟩

/-- Wherever a run has come to, the seeds of each transition close: a nonterminal behind a
dot stands on a right-hand side of the grammar. -/
theorem exists_close_of_run {limit index : Nat} {production : Production}
    {first construction : Construction}
    (started : grammar.startProduction? = some (index, production))
    (defined : grammar.checkDefined = .ok ())
    (begun : Construction.initial lookup (close grammar (Sets.ofGrammar grammar))
      (.start index production {grammar.endMarker}) = .ok first)
    (ran : Construction.run lookup policy (close grammar (Sets.ofGrammar grammar)) limit first =
      .ok construction)
    {id : Nat} {state : State} (present : construction.states[id]? = some state)
    {transition : Transition} (member : transition ∈ state.items.transitions) :
    ∃ items, close grammar (Sets.ofGrammar grammar) transition.seeds = .ok items := by
  obtain ⟨items, closed, firstCoherent⟩ := Coherent.of_initial policy begun
  obtain ⟨_, coherent, -⟩ := firstCoherent.run ran
  have fits := (fits_of_coherent started closed coherent present).2
  exact closes_of_fits defined (fits.seeds member)

/-- Only the checks can keep a grammar with a start production from having a
table under the policy `report`. -/
theorem exists_generateWith_report (lookup : StateLookup) {index : Nat} {production : Production}
    (started : grammar.startProduction? = some (index, production))
    (defined : grammar.checkDefined = .ok ())
    (distinct : grammar.checkDistinctRightHandSides = .ok ()) :
    ∃ table, generateWith lookup .report grammar = .ok table := by
  obtain ⟨first, begun⟩ := exists_initial lookup started defined
  obtain ⟨items, closed, coherent⟩ := Coherent.of_initial .report begun
  have initialFits := fits_of_close closed (startSeeds_fit started)
  obtain ⟨final, ran⟩ := coherent.exists_run_report (limit grammar)
    ⟨start_fits started, initialFits⟩ fits_passes fun sourceKernel source fits transition member =>
      closes_of_fits defined (fits.2.seeds member)
  exact ⟨_, draft_eq_ok.2 ⟨index, production, first, final, started, defined, distinct, begun, ran,
    rfl⟩⟩

end ParseTable

end CanonicalLR
