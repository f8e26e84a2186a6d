import CanonicalLR.Proofs.Table.Kernel
import CanonicalLR.Proofs.Table.Lookup
import CanonicalLR.Proofs.Table.Path

/-!
Contract: the states of a table as closures of moved items.

Owns:
- the state that the items of another one lead to over a symbol, said of items alone;
- that the items of such a state are found in no other state;
- that the GOTO entries and the shifts of a generated table lead to these states, one
  for each symbol behind a dot, and that there are no others.

Does not own: reductions, and which action has the entry when several want it.
-/

namespace CanonicalLR

namespace ParseTable

/-- Some item of the state has `symbol` behind its dot. -/
def Awaits (table : ParseTable) (id : Nat) (symbol : Symbol) : Prop :=
  ∃ state, table.states[id]? = some state ∧ ∃ item ∈ state.items, item.next? = some symbol

/-- Of the items of `source`, those with `symbol` behind the dot make `target`: with their
dots moved over it all of them close to its items, and the first of them is its kernel. -/
def Successor (table : ParseTable) (grammar : Grammar) (source : Nat) (symbol : Symbol)
    (target : Nat) : Prop :=
  ∃ state next, table.states[source]? = some state ∧ table.states[target]? = some next ∧
    close grammar (Sets.ofGrammar grammar) (state.items.advancedOver symbol) = .ok next.items ∧
    (state.items.advancedOver symbol).head? = some next.kernel

/-- A shift to `target` has the entry, or it has lost the entry to another action. -/
def Shifts (table : ParseTable) (id : Nat) (terminal : String) (target : Nat) : Prop :=
  table.action? id terminal = some (.shift target) ∨
    ∃ conflict ∈ table.conflicts, conflict.state = id ∧ conflict.terminal = terminal ∧
      conflict.incoming = .shift target

/-- The states of the table are closures of moved items, and its entries lead from each
state to what its own items make, with nothing missing and nothing else. -/
structure Exact (grammar : Grammar) (table : ParseTable) : Prop where
  initial : ∃ index production state, grammar.startProduction? = some (index, production) ∧
    table.states[0]? = some state ∧
    state.kernel = .start index production {grammar.endMarker} ∧
    close grammar (Sets.ofGrammar grammar) [state.kernel] = .ok state.items
  exists_goto?_iff : ∀ id name,
    (∃ target, table.goto? id name = some target) ↔ table.Awaits id (.nonterminal name)
  goto?_successor : ∀ id name target, table.goto? id name = some target →
    table.Successor grammar id (.nonterminal name) target
  exists_shift_iff : ∀ id name,
    (∃ target, table.Shifts id name target) ↔ table.Awaits id (.terminal name)
  shift_successor : ∀ id name target, table.Shifts id name target →
    table.Successor grammar id (.terminal name) target
  successor_unique : ∀ source symbol target, table.Successor grammar source symbol target →
    ∀ other state next, table.states[source]? = some state → table.states[other]? = some next →
      close grammar (Sets.ofGrammar grammar) (state.items.advancedOver symbol) = .ok next.items →
      other = target

variable {policy : ConflictPolicy} {grammar : Grammar} {table : ParseTable} {source target : Nat}
  {symbol : Symbol}

theorem Edge.successor (generated : table.Generated policy)
    (edge : table.Edge source symbol target) :
    table.Successor table.grammar source symbol target := by
  obtain ⟨state, transition, items, present, found, closed, targetPresent⟩ := edge
  have seeds := (ItemSet.transition?_eq_some found).2
  refine ⟨state, _, present, targetPresent, ?_, ?_⟩
  · rw [← seeds, ← generated.sets_eq]
    exact closed
  · rw [← seeds, Transition.seeds, List.head?_cons]

theorem Edge.awaits (edge : table.Edge source symbol target) : table.Awaits source symbol := by
  obtain ⟨core, ⟨state, present, item, member, same, -⟩, next⟩ := edge.exists_core
  simp only at same
  subst same
  exact ⟨state, present, item, member, next⟩

theorem Candidate.shifts (generated : table.Generated policy) {terminal : String}
    (candidate : table.Candidate source terminal (.shift target)) :
    table.Shifts source terminal target := by
  obtain ⟨first, entry⟩ := generated.exists_action? _ _ _ candidate
  by_cases same : first = .shift target
  · exact .inl (same ▸ entry)
  · exact .inr ⟨⟨source, terminal, first, .shift target⟩,
      (generated.mem_conflicts _).2 ⟨candidate, entry, same⟩, rfl, rfl, rfl⟩

namespace Generated

variable (generated : table.Generated policy)

include generated

theorem exists_edge_of_awaits (awaits : table.Awaits source symbol) :
    ∃ target, table.Edge source symbol target := by
  obtain ⟨state, present, item, member, next⟩ := awaits
  exact generated.exists_edge source state item symbol present member next

theorem edge_of_shifts {terminal : String} (shifts : table.Shifts source terminal target) :
    table.Edge source (.terminal terminal) target := by
  rcases shifts with entry | ⟨conflict, member, rfl, rfl, incoming⟩
  · exact (generated.candidate_of_action? _ _ _ entry).edge
  · have candidate := ((generated.mem_conflicts conflict).1 member).1
    rw [incoming] at candidate
    exact candidate.edge

/-- The items that an edge is about close to those of its target. -/
theorem edge_of_successor (successor : table.Successor table.grammar source symbol target) :
    table.Edge source symbol target := by
  obtain ⟨state, next, present, targetPresent, closed, first⟩ := successor
  obtain ⟨item, member, behindDot, -⟩ :=
    ItemSet.mem_advancedOver.1 (List.mem_of_head? first)
  obtain ⟨other, edge⟩ := generated.exists_edge source state item symbol present member behindDot
  obtain ⟨_, otherNext, presentToo, otherPresent, closedToo, -⟩ := edge.successor generated
  cases present.symm.trans presentToo
  have sameItems : next.items = otherNext.items := Except.ok.inj (closed.symm.trans closedToo)
  rwa [generated.eq_of_items_eq targetPresent otherPresent sameItems]

theorem exists_goto?_iff_awaits {name : String} :
    (∃ target, table.goto? source name = some target) ↔
      table.Awaits source (.nonterminal name) := by
  constructor
  · rintro ⟨target, entry⟩
    exact ((generated.goto?_eq_some source name target).1 entry).awaits
  · intro awaits
    obtain ⟨target, edge⟩ := generated.exists_edge_of_awaits awaits
    exact ⟨target, (generated.goto?_eq_some source name target).2 edge⟩

theorem exists_shifts_iff_awaits {terminal : String} :
    (∃ target, table.Shifts source terminal target) ↔
      table.Awaits source (.terminal terminal) := by
  constructor
  · rintro ⟨target, shifts⟩
    exact (generated.edge_of_shifts shifts).awaits
  · intro awaits
    obtain ⟨target, edge⟩ := generated.exists_edge_of_awaits awaits
    exact ⟨target, Candidate.shifts generated (.shift edge)⟩

end Generated

/-- Every generated table is exact: whatever the grammar is, which right-hand sides are
empty, and how conflicts are treated. -/
theorem exact_of_generate (generation : generate policy grammar = .ok table) :
    table.Exact grammar := by
  obtain ⟨rfl, generated⟩ := generated_of_generateWith generation
  refine ⟨?_, fun _ _ => generated.exists_goto?_iff_awaits, ?_,
    fun _ _ => generated.exists_shifts_iff_awaits, ?_, ?_⟩
  · obtain ⟨index, production, items, started, closed, present⟩ := generated.initial
    rw [generated.sets_eq] at closed
    exact ⟨index, production, _, started, present, rfl, closed⟩
  · intro id name target entry
    exact ((generated.goto?_eq_some id name target).1 entry).successor generated
  · intro id name target shifts
    exact (generated.edge_of_shifts shifts).successor generated
  · intro source symbol target successor other state next present otherPresent closed
    have edge := generated.edge_of_successor successor
    obtain ⟨_, targetNext, presentToo, targetPresent, closedToo, -⟩ := successor
    cases present.symm.trans presentToo
    have sameItems : next.items = targetNext.items := Except.ok.inj (closed.symm.trans closedToo)
    exact generated.eq_of_items_eq otherPresent targetPresent sameItems

/-- The table of the sample made by hand is exact, its lost shift included. -/
theorem exact_of_generate_optional :
    ∃ table, generate .report Grammar.optional = .ok table ∧
      table.Exact Grammar.optional ∧ table.Shifts 0 "a" 2 := by
  obtain ⟨table, generation, conflicts⟩ := exists_generate_optional
  refine ⟨table, generation, exact_of_generate generation, .inr ?_⟩
  rw [conflicts]
  exact ⟨_, List.mem_singleton_self _, rfl, rfl, rfl⟩

end ParseTable

end CanonicalLR
