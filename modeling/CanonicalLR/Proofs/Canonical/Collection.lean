import CanonicalLR.Proofs.Canonical.View
import CanonicalLR.Proofs.Table.Lookup
import Mathlib.Data.Set.Function

/-!
Contract: the states of a table are the canonical LR(1) collection.

Owns:
- that different states stand for different sets, which are those of the
  collection;
- that a state has a conflict exactly when its set has one;
- the canonicity of the table that is generated under the policy `report`.

Does not own: what the items of a set mean for derivations.
-/

namespace CanonicalLR

namespace ParseTable.Generated

variable {policy : ConflictPolicy} {table : ParseTable} (generated : table.Generated policy)
  (readable : table.grammar.Readable) (startable : table.grammar.Startable)

include generated

theorem zero_lt_size : 0 < table.states.size := by
  obtain ⟨_, _, _, -, -, present⟩ := generated.initial
  exact (Array.getElem?_eq_some_iff.1 present).1

include readable startable

/-! ### States and sets -/

theorem view_mem_collection {id : Nat} (below : id < table.states.size) :
    table.view id ∈ table.grammar.collection := by
  induction id using Nat.strongRecOn with
  | ind id inductionHypothesis =>
      rcases Nat.eq_zero_or_pos id with rfl | positive
      · rw [(generated.view_initial readable startable).1]
        exact .initial
      · obtain ⟨source, before, symbol, edge⟩ := generated.reached id positive below
        have lively := generated.lively readable startable source
        have sameView := (generated.view_edge readable startable edge lively).1
        have nonempty : (table.grammar.gotoOf (table.view source) symbol).Nonempty := by
          obtain ⟨core, terminal, moved⟩ := generated.exists_moved readable startable edge
          rw [← sameView]
          exact ⟨_, mem_view_of_records moved⟩
        rw [sameView]
        exact .goto symbol (inductionHypothesis source before edge.source_lt) nonempty

/-- Two states that stand for the same set have equal items. -/
theorem items_eq_of_view_eq {left right : Nat} {leftState rightState : State}
    (leftPresent : table.states[left]? = some leftState)
    (rightPresent : table.states[right]? = some rightState)
    (same : table.view left = table.view right) : leftState.items = rightState.items := by
  have half : ∀ {first second : Nat}, table.view first = table.view second →
      ∀ fact, table.Records first fact → table.Records second fact := by
    intro first second sameView fact records
    have withTerminal : ∀ {core : Core} {terminal : String},
        table.Records first (core, some terminal) → table.Records second (core, some terminal) := by
      intro core terminal inFirst
      have fits := (generated.fits_of_records inFirst).1
      rw [← generated.triple_mem_view fits] at inFirst ⊢
      exact sameView ▸ inFirst
    obtain ⟨core, terminal?⟩ := fact
    cases terminal? with
    | none =>
        obtain ⟨terminal, inFirst⟩ := generated.lively readable startable first core records
        exact (withTerminal inFirst).core
    | some terminal => exact withTerminal records
  apply ItemSet.ext_records
  intro fact
  rw [← records_iff leftPresent, ← records_iff rightPresent]
  exact ⟨half same fact, half same.symm fact⟩

theorem view_injOn : Set.InjOn table.view {id | id < table.states.size} := by
  intro left leftBelow right rightBelow same
  have present : ∀ {id : Nat}, id < table.states.size → ∃ state, table.states[id]? = some state :=
    fun below => ⟨_, Array.getElem?_eq_getElem below⟩
  obtain ⟨leftState, leftPresent⟩ := present leftBelow
  obtain ⟨rightState, rightPresent⟩ := present rightBelow
  have sameItems : leftState.items = rightState.items :=
    generated.items_eq_of_view_eq readable startable leftPresent rightPresent same
  exact generated.eq_of_items_eq leftPresent rightPresent sameItems

theorem view_surjOn :
    Set.SurjOn table.view {id | id < table.states.size} table.grammar.collection := by
  intro set member
  induction member with
  | initial =>
      exact ⟨0, generated.zero_lt_size, (generated.view_initial readable startable).1⟩
  | @goto set symbol _ nonempty inductionHypothesis =>
      obtain ⟨source, -, rfl⟩ := inductionHypothesis
      have someEdge : ∃ target, table.Edge source symbol target := by
        by_contra none
        push Not at none
        rw [generated.gotoOf_eq_empty none] at nonempty
        exact Set.not_nonempty_empty nonempty
      obtain ⟨target, edge⟩ := someEdge
      have lively := generated.lively readable startable source
      exact ⟨target, edge.target_lt, (generated.view_edge readable startable edge lively).1⟩

/-! ### Conflicts -/

omit readable startable in
/-- Two different actions that the items of a state call for are a conflict. -/
theorem exists_conflict {id : Nat} {terminal : String} {left right : Action}
    (leftCandidate : table.Candidate id terminal left)
    (rightCandidate : table.Candidate id terminal right) (different : left ≠ right) :
    table.conflicts ≠ [] := by
  obtain ⟨first, entry⟩ := generated.exists_action? id terminal left leftCandidate
  have lost : ∃ incoming, table.Candidate id terminal incoming ∧ first ≠ incoming := by
    by_cases same : first = left
    · exact ⟨right, rightCandidate, same ▸ different⟩
    · exact ⟨left, leftCandidate, same⟩
  obtain ⟨incoming, candidate, other⟩ := lost
  have member : (⟨id, terminal, first, incoming⟩ : Conflict) ∈ table.conflicts :=
    (generated.mem_conflicts _).2 ⟨candidate, entry, other⟩
  exact List.ne_nil_of_mem member

omit readable startable in
private theorem exists_reduced {id : Nat} {terminal : String} {index : Nat}
    (candidate : table.Candidate id terminal (.reduce index)) :
    ∃ reduced ∈ table.view id, table.grammar.behind? reduced = some [] ∧
      reduced.terminal = terminal ∧ reduced.production = index := by
  obtain ⟨core, records, complete, rfl⟩ := candidate_reduce_iff.1 candidate
  refine ⟨core.triple terminal, mem_view_of_records records, ?_, rfl, rfl⟩
  rw [(generated.fits_of_records records).1.behind?,
    List.drop_eq_nil_of_le (List.getElem?_eq_none_iff.1 complete)]

private theorem hasConflict_of_shift {id target index : Nat} {terminal : String}
    (edge : table.Edge id (.terminal terminal) target)
    (candidate : table.Candidate id terminal (.reduce index)) :
    table.grammar.HasConflict (table.view id) := by
  obtain ⟨reduced, member, complete, rfl, -⟩ := exists_reduced generated candidate
  obtain ⟨core, records, next⟩ := edge.exists_core
  obtain ⟨other, withTerminal⟩ := generated.lively readable startable id core records
  obtain ⟨behind, drop⟩ := Core.exists_drop_of_next? next
  refine ⟨reduced, member, complete, .inl ⟨core.triple other,
    mem_view_of_records withTerminal, behind, ?_⟩⟩
  rw [(generated.fits_of_records records).1.behind?, drop]

/-- Two different actions for one terminal are a conflict of the set. -/
theorem hasConflict_of_candidates {id : Nat} {terminal : String} {left right : Action}
    (leftCandidate : table.Candidate id terminal left)
    (rightCandidate : table.Candidate id terminal right) (different : left ≠ right) :
    table.grammar.HasConflict (table.view id) := by
  cases left with
  | shift target =>
      cases right with
      | shift other =>
          have same := generated.edge_unique leftCandidate.edge rightCandidate.edge
          exact absurd (congrArg Action.shift same) different
      | reduce index =>
          exact hasConflict_of_shift generated readable startable leftCandidate.edge rightCandidate
  | reduce index =>
      cases right with
      | shift target =>
          exact hasConflict_of_shift generated readable startable rightCandidate.edge leftCandidate
      | reduce other =>
          obtain ⟨reduced, member, complete, sameLeft, rfl⟩ :=
            exists_reduced generated leftCandidate
          obtain ⟨second, secondMember, secondComplete, sameRight, rfl⟩ :=
            exists_reduced generated rightCandidate
          exact ⟨reduced, member, complete, .inr ⟨second, secondMember, secondComplete,
            sameRight.trans sameLeft.symm, fun same => different (congrArg _ same.symm)⟩⟩

omit readable startable in
private theorem candidate_of_complete {id : Nat} {triple : Triple}
    (member : triple ∈ table.view id) (complete : table.grammar.behind? triple = some []) :
    table.Candidate id triple.terminal (.reduce triple.production) := by
  obtain ⟨core, records, same⟩ := mem_view.1 member
  have drop := (generated.fits_of_records records).1.drop_eq same complete
  have next : core.next? = none :=
    List.getElem?_eq_none_iff.2 (List.drop_eq_nil_iff.1 drop)
  exact candidate_reduce_iff.2 ⟨core, records, next, congrArg Triple.production same⟩

omit readable startable in
theorem conflicts_ne_nil_of_hasConflict {id : Nat}
    (conflict : table.grammar.HasConflict (table.view id)) : table.conflicts ≠ [] := by
  obtain ⟨reduced, member, complete, others⟩ := conflict
  have candidate := candidate_of_complete generated member complete
  rcases others with ⟨shifted, inView, behind, behindDot⟩ |
    ⟨other, inView, otherComplete, sameTerminal, different⟩
  · obtain ⟨core, records, same⟩ := mem_view.1 inView
    have drop := (generated.fits_of_records records).1.drop_eq same behindDot
    obtain ⟨target, edge⟩ := generated.edge_of_records records (Core.next?_of_drop drop)
    exact generated.exists_conflict candidate (.shift edge) (by simp)
  · have otherCandidate := candidate_of_complete generated inView otherComplete
    rw [sameTerminal] at otherCandidate
    exact generated.exists_conflict candidate otherCandidate
      fun same => different (Action.reduce.inj same).symm

/-- There are conflicts exactly when a set of the collection has one. -/
theorem conflicts_ne_nil_iff :
    table.conflicts ≠ [] ↔ ∃ set ∈ table.grammar.collection, table.grammar.HasConflict set := by
  constructor
  · intro someConflict
    obtain ⟨conflict, member⟩ := List.exists_mem_of_ne_nil _ someConflict
    obtain ⟨incoming, entry, different⟩ := (generated.mem_conflicts conflict).1 member
    have existing := generated.candidate_of_action? _ _ _ entry
    obtain ⟨state, present⟩ := incoming.present
    exact ⟨_, generated.view_mem_collection readable startable
      (Array.getElem?_eq_some_iff.1 present).1,
      generated.hasConflict_of_candidates readable startable existing incoming different⟩
  · rintro ⟨set, member, conflict⟩
    obtain ⟨id, -, rfl⟩ := generated.view_surjOn readable startable member
    exact generated.conflicts_ne_nil_of_hasConflict conflict

/-! ### Moves -/

/-- A transition is found exactly when the move leads to some items. -/
theorem view_successor? (id : Nat) (symbol : Symbol) :
    match table.successor? id symbol with
    | some target => target < table.states.size ∧
        table.view target = table.grammar.gotoOf (table.view id) symbol
    | none => table.grammar.gotoOf (table.view id) symbol = ∅ := by
  cases found : table.successor? id symbol with
  | none =>
      apply generated.gotoOf_eq_empty
      intro target edge
      rw [generated.successor?_eq_some.2 edge] at found
      contradiction
  | some target =>
      have edge := generated.successor?_eq_some.1 found
      have lively := generated.lively readable startable id
      exact ⟨edge.target_lt, (generated.view_edge readable startable edge lively).1⟩

end ParseTable.Generated

/-- Under the policy `report`, the states of the table are the canonical LR(1)
collection: each stands for one of its sets, transitions are its moves, and there
are conflicts exactly when one of its sets has one. -/
theorem canonical_of_report {endMarker source : String} {grammar : Grammar}
    (parsed : Grammar.parse endMarker source = .ok grammar)
    (defined : grammar.checkDefined = .ok ())
    (distinct : grammar.checkDistinctRightHandSides = .ok ())
    (someFirst : ∀ name ∈ grammar.nonterminals,
      ∃ terminal, terminal ∈ (Sets.ofGrammar grammar).firstOf (.nonterminal name)) :
    ∃ table, ParseTable.generate .report grammar = .ok table ∧
      Set.BijOn table.view {id | id < table.states.size} grammar.collection ∧
      table.view 0 = grammar.initialSet ∧
      (∀ id symbol, match table.successor? id symbol with
        | some target => target < table.states.size ∧
            table.view target = grammar.gotoOf (table.view id) symbol
        | none => grammar.gotoOf (table.view id) symbol = ∅) ∧
      (table.conflicts ≠ [] ↔ ∃ set ∈ grammar.collection, grammar.HasConflict set) := by
  have readable := Grammar.parse_readable parsed
  have startable := readable.startable someFirst
  obtain ⟨start, -, started⟩ := readable.startProduction?_eq
  obtain ⟨table, generation⟩ :=
    ParseTable.exists_generateWith_report (.hashed ParseTable.stateHash) started defined distinct
  obtain ⟨rfl, generated⟩ := ParseTable.generated_of_generateWith generation
  have bijective : Set.BijOn table.view {id | id < table.states.size} table.grammar.collection :=
    ⟨fun id below => generated.view_mem_collection readable startable below,
      generated.view_injOn readable startable, generated.view_surjOn readable startable⟩
  exact ⟨table, generation, bijective, (generated.view_initial readable startable).1,
    generated.view_successor? readable startable,
    generated.conflicts_ne_nil_iff readable startable⟩

/-- The states for sums are their canonical collection. -/
theorem canonical_of_report_sums :
    ∃ table, ParseTable.generate .report Grammar.sums = .ok table ∧
      table.view 0 = Grammar.sums.initialSet ∧
      Set.BijOn table.view {id | id < table.states.size} Grammar.sums.collection := by
  have startsWithSummand : ∀ name ∈ Grammar.sums.nonterminals.names,
      "n" ∈ (Sets.ofGrammar Grammar.sums).firstOf (.nonterminal name) := by
    decide +kernel
  obtain ⟨table, generation, bijective, initial, -⟩ :=
    canonical_of_report Grammar.parse_sums (by decide) (by decide)
      fun name member => ⟨"n", startsWithSummand name member⟩
  exact ⟨table, generation, initial, bijective⟩

end CanonicalLR
