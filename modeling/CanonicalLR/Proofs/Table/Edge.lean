import CanonicalLR.Proofs.Table.Generated

/-!
Contract: the transitions of a generated table, fact by fact.

Owns:
- the facts that a state records, and that they are closed under the productions;
- that a transition has one target, and when there is one;
- what the target of a transition records of its source;
- the look-ups that find a transition.

Does not own: runs of a table over an input.
-/

namespace CanonicalLR

/-- Move the dot over the next symbol. -/
def Core.advance (core : Core) : Core :=
  { core with dot := core.dot + 1 }

namespace ParseTable

open Closure

variable {policy : ConflictPolicy} {table : ParseTable} {source target : Nat} {symbol : Symbol}

/-- The state with the number `id` records the fact. -/
def Records (table : ParseTable) (id : Nat) (fact : Fact) : Prop :=
  ∃ state, table.states[id]? = some state ∧ state.items.Records fact

theorem records_iff {id : Nat} {state : State} (present : table.states[id]? = some state)
    {fact : Fact} : table.Records id fact ↔ state.items.Records fact := by
  constructor
  · rintro ⟨other, otherPresent, records⟩
    rw [present] at otherPresent
    cases otherPresent
    exact records
  · exact fun records => ⟨state, present, records⟩

theorem Records.core {id : Nat} {core : Core} {terminal? : Option String}
    (records : table.Records id (core, terminal?)) : table.Records id (core, none) := by
  obtain ⟨state, present, ofItems⟩ := records
  exact ⟨state, present, ofItems.core⟩

theorem Records.lt_size {id : Nat} {fact : Fact} (records : table.Records id fact) :
    id < table.states.size := by
  obtain ⟨state, present, -⟩ := records
  exact (Array.getElem?_eq_some_iff.1 present).1

theorem candidate_reduce_iff {id : Nat} {terminal : String} {index : Nat} :
    table.Candidate id terminal (.reduce index) ↔
      ∃ core, table.Records id (core, some terminal) ∧ core.next? = none ∧
        core.production = index := by
  constructor
  · intro candidate
    cases candidate with
    | reduce present member complete inLookahead =>
        exact ⟨_, ⟨_, present, _, member, Item.records_terminal inLookahead⟩, complete, rfl⟩
  · rintro ⟨core, ⟨state, present, item, member, records⟩, complete, rfl⟩
    obtain ⟨rfl, inLookahead⟩ := Item.records_some.1 records
    exact .reduce present member complete inLookahead

theorem Candidate.edge {id : Nat} {terminal : String}
    (candidate : table.Candidate id terminal (.shift target)) :
    table.Edge id (.terminal terminal) target := by
  cases candidate with
  | shift edge => exact edge

theorem Edge.source_lt (edge : table.Edge source symbol target) :
    source < table.states.size := by
  obtain ⟨state, _, _, present, -⟩ := edge
  exact (Array.getElem?_eq_some_iff.1 present).1

theorem Edge.target_lt (edge : table.Edge source symbol target) :
    target < table.states.size := by
  obtain ⟨_, _, _, -, -, -, present⟩ := edge
  exact (Array.getElem?_eq_some_iff.1 present).1

/-- Only a symbol behind a dot has a transition. -/
theorem Edge.exists_core (edge : table.Edge source symbol target) :
    ∃ core, table.Records source (core, none) ∧ core.next? = some symbol := by
  obtain ⟨state, transition, _, present, found, -⟩ := edge
  by_contra none
  push Not at none
  have noTransition : state.items.transition? symbol = Option.none :=
    ItemSet.transition?_eq_none.2 fun item member =>
      none item.toCore ⟨state, present, item, member, item.records_core⟩
  rw [noTransition] at found
  contradiction

/-- The target records what the facts of the source with the symbol behind the
dot lead to, once the dot has moved. -/
theorem Edge.records_iff (edge : table.Edge source symbol target) {fact : Fact} :
    table.Records target fact ↔
      ∃ core terminal?, table.Records source (core, terminal?) ∧ core.next? = some symbol ∧
        Relation.ReflTransGen (Calls table.grammar table.sets) (core.advance, terminal?) fact := by
  obtain ⟨state, transition, items, present, found, closed, targetPresent⟩ := edge
  rw [ParseTable.records_iff targetPresent, records_close closed,
    (ItemSet.transition?_eq_some found).2]
  constructor
  · rintro ⟨seed, member, ⟨core, terminal?⟩, ⟨same, terminals⟩, path⟩
    obtain ⟨item, inItems, next, rfl⟩ := ItemSet.mem_advancedOver.1 member
    cases same
    exact ⟨item.toCore, terminal?, ⟨state, present, item, inItems, rfl, terminals⟩, next, path⟩
  · rintro ⟨core, terminal?, records, next, path⟩
    obtain ⟨item, inItems, rfl, terminals⟩ := (ParseTable.records_iff present).1 records
    exact ⟨item.advance, ItemSet.mem_advancedOver.2 ⟨item, inItems, next, rfl⟩,
      (item.toCore.advance, terminal?), ⟨rfl, terminals⟩, path⟩

theorem Edge.records_advance (edge : table.Edge source symbol target) {core : Core}
    {terminal? : Option String} (records : table.Records source (core, terminal?))
    (next : core.next? = some symbol) : table.Records target (core.advance, terminal?) :=
  edge.records_iff.2 ⟨core, terminal?, records, next, .refl⟩

/-- A fact of the target has the dot in front, or it is one of the source with
the dot moved. -/
theorem Edge.records_cases (edge : table.Edge source symbol target) {core : Core}
    {terminal? : Option String} (records : table.Records target (core, terminal?)) :
    core.dot = 0 ∨ ∃ origin, table.Records source (origin, terminal?) ∧
      origin.next? = some symbol ∧ core = origin.advance := by
  obtain ⟨origin, _, originRecords, next, path⟩ := edge.records_iff.1 records
  rcases eq_or_dot_eq_zero path with same | atStart
  · cases same
    exact .inr ⟨origin, originRecords, next, rfl⟩
  · exact .inl atStart

namespace Generated

variable (generated : table.Generated policy)

include generated

theorem edge_unique {other : Nat} (edge : table.Edge source symbol target)
    (otherEdge : table.Edge source symbol other) : target = other := by
  obtain ⟨state, transition, items, present, found, closed, targetPresent⟩ := edge
  obtain ⟨state', transition', items', present', found', closed', otherPresent⟩ := otherEdge
  have sameState : state = state' := Option.some.inj (present.symm.trans present')
  subst sameState
  have sameTransition : transition = transition' := Option.some.inj (found.symm.trans found')
  subst sameTransition
  have sameItems : items = items' := Except.ok.inj (closed.symm.trans closed')
  exact generated.distinct _ _ _ _ targetPresent otherPresent rfl sameItems

theorem edge_of_records {core : Core} {terminal? : Option String}
    (records : table.Records source (core, terminal?)) (next : core.next? = some symbol) :
    ∃ target, table.Edge source symbol target := by
  obtain ⟨state, present, item, member, rfl, -⟩ := records
  exact generated.exists_edge source state item symbol present member next

theorem fits_of_records {id : Nat} {fact : Fact} (records : table.Records id fact) :
    fact.Fits table.grammar := by
  obtain ⟨state, present, ofItems⟩ := records
  exact (generated.fits id state present).records ofItems

/-- A symbol with a transition stands on a right-hand side. -/
theorem exists_mem_rhs (edge : table.Edge source symbol target) :
    ∃ production ∈ table.grammar.productions, symbol ∈ production.rhs := by
  obtain ⟨core, records, next⟩ := edge.exists_core
  obtain ⟨production, found, -, sameRhs, -⟩ := (generated.fits_of_records records).1
  exact ⟨production, List.mem_of_getElem? found, sameRhs ▸ List.mem_of_getElem? next⟩

/-- The first state records what the start production leads to with the end of
input behind it. -/
theorem initial_records_iff {index : Nat} {production : Production}
    (started : table.grammar.startProduction? = some (index, production)) {fact : Fact} :
    table.Records 0 fact ↔
      ∃ terminal?, (∀ terminal ∈ terminal?, terminal = table.grammar.endMarker) ∧
        Relation.ReflTransGen (Calls table.grammar table.sets)
          (.start index production, terminal?) fact := by
  obtain ⟨_, _, items, startedToo, closed, present⟩ := generated.initial
  cases startedToo.symm.trans started
  rw [records_iff present, records_close closed]
  constructor
  · rintro ⟨seed, member, ⟨core, terminal?⟩, ⟨same, terminals⟩, path⟩
    cases List.mem_singleton.1 member
    cases same
    exact ⟨terminal?, fun terminal inFact => NameSet.mem_singleton.1 (terminals terminal inFact),
      path⟩
  · rintro ⟨terminal?, terminals, path⟩
    exact ⟨_, List.mem_singleton_self _, _, ⟨rfl, fun terminal inFact =>
      NameSet.mem_singleton.2 (terminals terminal inFact)⟩, path⟩

/-- In the first state every dot is in front. -/
theorem initial_dot {core : Core} {terminal? : Option String}
    (records : table.Records 0 (core, terminal?)) : core.dot = 0 := by
  obtain ⟨_, _, _, started, -⟩ := generated.initial
  obtain ⟨_, -, path⟩ := (generated.initial_records_iff started).1 records
  rcases eq_or_dot_eq_zero path with same | atStart
  · cases same
    rfl
  · exact atStart

/-- A state records whatever its facts call for. -/
theorem records_calls {id : Nat} {fact next : Fact} (records : table.Records id fact)
    (calls : Calls table.grammar table.sets fact next) : table.Records id next := by
  rcases Nat.eq_zero_or_pos id with rfl | positive
  · obtain ⟨_, _, _, started, -⟩ := generated.initial
    obtain ⟨terminal?, terminals, path⟩ := (generated.initial_records_iff started).1 records
    exact (generated.initial_records_iff started).2 ⟨terminal?, terminals, path.tail calls⟩
  · obtain ⟨source, -, symbol, edge⟩ := generated.reached id positive records.lt_size
    obtain ⟨core, terminal?, origin, behindDot, path⟩ := edge.records_iff.1 records
    exact edge.records_iff.2 ⟨core, terminal?, origin, behindDot, path.tail calls⟩

/-- Without conflicts every action that the items call for has its entry. -/
theorem action?_of_candidate (none : table.conflicts = []) {id : Nat} {terminal : String}
    {action : Action} (candidate : table.Candidate id terminal action) :
    table.action? id terminal = some action := by
  obtain ⟨first, entry⟩ := generated.exists_action? id terminal action candidate
  by_contra other
  have different : first ≠ action := fun same => other (same ▸ entry)
  have lost : (⟨id, terminal, first, action⟩ : Conflict) ∈ table.conflicts :=
    (generated.mem_conflicts _).2 ⟨candidate, entry, different⟩
  rw [none] at lost
  exact List.not_mem_nil lost

private theorem edge_of_successor? {name : String}
    (found : table.successor? source (.terminal name) = some target) :
    table.Edge source (.terminal name) target := by
  unfold successor? at found
  simp only at found
  split at found
  case h_1 number entry =>
    cases found
    exact (generated.candidate_of_action? _ _ _ entry).edge
  case h_2 =>
    obtain ⟨conflict, member, shift⟩ := List.exists_of_findSome?_eq_some found
    have candidate := ((generated.mem_conflicts conflict).1 member).1
    split at shift
    case h_1 number incoming =>
      split at shift
      case isTrue here =>
        cases shift
        rw [incoming, here.1, here.2] at candidate
        exact candidate.edge
      · contradiction
    · contradiction

private theorem exists_successor? {name : String}
    (edge : table.Edge source (.terminal name) target) :
    ∃ other, table.successor? source (.terminal name) = some other := by
  have candidate : table.Candidate source name (.shift target) := .shift edge
  obtain ⟨first, entry⟩ := generated.exists_action? _ _ _ candidate
  unfold successor?
  simp only [entry]
  cases first with
  | shift number => exact ⟨number, rfl⟩
  | reduce index =>
      have lost : (⟨source, name, .reduce index, .shift target⟩ : Conflict) ∈ table.conflicts :=
        (generated.mem_conflicts _).2 ⟨candidate, entry, by simp⟩
      simp only
      rw [← Option.isSome_iff_exists, List.findSome?_isSome_iff]
      exact ⟨_, lost, by simp⟩

/-- A transition is found by its entry or, if a shift has lost the entry to
another action, by the conflict. -/
theorem successor?_eq_some :
    table.successor? source symbol = some target ↔ table.Edge source symbol target := by
  cases symbol with
  | nonterminal name => exact generated.goto?_eq_some source name target
  | terminal name =>
      refine ⟨edge_of_successor? generated, fun edge => ?_⟩
      obtain ⟨other, successor⟩ := exists_successor? generated edge
      rw [successor, generated.edge_unique (edge_of_successor? generated successor) edge]

end Generated

end ParseTable

end CanonicalLR
