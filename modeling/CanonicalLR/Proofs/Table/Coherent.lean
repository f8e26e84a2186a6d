import CanonicalLR.Proofs.Table.Row
import CanonicalLR.Proofs.Table.Search
import Mathlib.Data.List.Forall2

/-!
Contract: the construction of the automaton, state by state.

Owns:
- what completing a state records of it;
- a run as one completion after the other;
- the invariant that one completion keeps and a whole run keeps with it;
- induction over the states in the order of their discovery.

Does not own: that the limit of a run suffices.
-/

namespace CanonicalLR.Construction

/-- The entry holds the symbol of the transition and the number of the state that
it leads to. -/
def Leads (closure : Closing) (states : Array State) (transition : Transition)
    (entry : Symbol × Nat) : Prop :=
  entry.1 = transition.symbol ∧ ∃ items, closure transition.seeds = .ok items ∧
    states[entry.2]? = some ⟨entry.2, transition.kernel, items⟩

variable {lookup : StateLookup} {policy : ConflictPolicy} {closure : Closing} {kernel : Item}
  {items : ItemSet} {construction final : Construction}

theorem Leads.extends {transition : Transition} {entry : Symbol × Nat}
    (leads : Leads closure construction.states transition entry)
    (later : Extends construction final) : Leads closure final.states transition entry := by
  obtain ⟨sameSymbol, items, closed, present⟩ := leads
  exact ⟨sameSymbol, items, closed, later.keeps _ _ present⟩

/-! ### The transitions of a state -/

section Targets

variable {states : Array State} {transitions : List Transition} {targets : List (Symbol × Nat)}

theorem symbols_of_targets (leads : List.Forall₂ (Leads closure states) transitions targets) :
    targets.map Prod.fst = transitions.map Transition.symbol := by
  induction leads with
  | nil => rfl
  | cons first _ inductionHypothesis =>
      rw [List.map_cons, List.map_cons, inductionHypothesis, first.1]

theorem exists_transition_of_target {entry : Symbol × Nat}
    (leads : List.Forall₂ (Leads closure states) transitions targets) (member : entry ∈ targets) :
    ∃ transition ∈ transitions, Leads closure states transition entry := by
  induction leads with
  | nil => exact absurd member List.not_mem_nil
  | cons first _ inductionHypothesis =>
      rcases List.mem_cons.1 member with rfl | inRest
      · exact ⟨_, List.mem_cons_self, first⟩
      · obtain ⟨transition, inTransitions, found⟩ := inductionHypothesis inRest
        exact ⟨transition, List.mem_cons_of_mem _ inTransitions, found⟩

theorem exists_target_of_transition {transition : Transition}
    (leads : List.Forall₂ (Leads closure states) transitions targets)
    (member : transition ∈ transitions) :
    ∃ entry ∈ targets, Leads closure states transition entry := by
  induction leads with
  | nil => exact absurd member List.not_mem_nil
  | cons first _ inductionHypothesis =>
      rcases List.mem_cons.1 member with rfl | inRest
      · exact ⟨_, List.mem_cons_self, first⟩
      · obtain ⟨entry, inTargets, found⟩ := inductionHypothesis inRest
        exact ⟨entry, List.mem_cons_of_mem _ inTargets, found⟩

end Targets

theorem follow_spec {transitions : List Transition} {targets : List (Symbol × Nat)}
    (indexed : Indexed lookup construction)
    (followed : construction.follow lookup closure transitions = .ok (targets, final)) :
    Indexed lookup final ∧ Extends construction final ∧
      List.Forall₂ (Leads closure final.states) transitions targets ∧
      ∀ id, construction.states.size ≤ id → id < final.states.size →
        ∃ entry ∈ targets, entry.2 = id := by
  induction transitions generalizing construction targets with
  | nil =>
      cases followed
      exact ⟨indexed, .refl _, .nil, fun id atLeast below => by omega⟩
  | cons transition rest inductionHypothesis =>
      obtain ⟨items, closed, followedRest⟩ := bind_eq_ok.1 followed
      cases interned : construction.intern lookup transition.kernel items with
      | mk target extended =>
      rw [interned] at followedRest
      obtain ⟨⟨restTargets, restFinal⟩, followedOthers, same⟩ := bind_eq_ok.1 followedRest
      cases same
      obtain ⟨extendedIndexed, grows, present, onlyTarget⟩ := intern_spec indexed interned
      obtain ⟨finalIndexed, growsFurther, leads, onlyTargets⟩ :=
        inductionHypothesis extendedIndexed followedOthers
      refine ⟨finalIndexed, grows.trans growsFurther, .cons ?_ leads, ?_⟩
      · exact ⟨rfl, items, closed, growsFurther.keeps _ _ present⟩
      · intro id atLeast below
        by_cases early : id < extended.states.size
        · exact ⟨_, List.mem_cons_self, (onlyTarget id atLeast early).symm⟩
        · obtain ⟨entry, member, same⟩ := onlyTargets id (by omega) below
          exact ⟨entry, List.mem_cons_of_mem _ member, same⟩

theorem exists_follow (lookup : StateLookup) {transitions : List Transition}
    (closes : ∀ transition ∈ transitions, ∃ items, closure transition.seeds = .ok items)
    (construction : Construction) :
    ∃ result, construction.follow lookup closure transitions = .ok result := by
  induction transitions generalizing construction with
  | nil => exact ⟨_, rfl⟩
  | cons transition rest inductionHypothesis =>
      obtain ⟨items, closed⟩ := closes transition List.mem_cons_self
      cases interned : construction.intern lookup transition.kernel items with
      | mk target extended =>
      obtain ⟨⟨targets, final⟩, followed⟩ := inductionHypothesis
        (fun other inRest => closes other (List.mem_cons_of_mem transition inRest)) extended
      refine ⟨((transition.symbol, target) :: targets, final), ?_⟩
      simp only [follow, closed, interned, followed, bind, Except.bind, pure, Except.pure]

/-! ### Runs -/

theorem run_succ_of_waits {state : State}
    (waits : construction.states[construction.rows.size]? = some state) (limit : Nat) :
    run lookup policy closure (limit + 1) construction =
      construction.complete lookup policy closure state >>= run lookup policy closure limit := by
  rw [run, waits]

theorem run_of_noneWaits (noneWaits : construction.states[construction.rows.size]? = none)
    (limit : Nat) : run lookup policy closure limit construction = .ok construction := by
  cases limit with
  | zero => rfl
  | succ limit => rw [run, noneWaits]

/-- What completing a state keeps, a run keeps. -/
theorem run_keeps {holds : Construction → Prop} {limit : Nat}
    (keeps : ∀ construction extended state, holds construction →
      construction.states[construction.rows.size]? = some state →
      construction.complete lookup policy closure state = .ok extended → holds extended)
    (initially : holds construction)
    (ran : Construction.run lookup policy closure limit construction = .ok final) :
    holds final := by
  induction limit generalizing construction with
  | zero =>
      cases ran
      exact initially
  | succ limit inductionHypothesis =>
      cases waits : construction.states[construction.rows.size]? with
      | none =>
          rw [run_of_noneWaits waits] at ran
          cases ran
          exact initially
      | some state =>
          rw [run_succ_of_waits waits] at ran
          obtain ⟨extended, completed, ranRest⟩ := bind_eq_ok.1 ran
          exact inductionHypothesis (keeps _ _ state initially waits completed) ranRest

/-! ### The completion of a state -/

/-- What the row of a state is made of, with the conflicts that come up in it. -/
structure Completion where
  targets : List (Symbol × Nat)
  actions : NameMap Action
  conflicts : List Conflict

def Completion.row (completion : Completion) : Row :=
  ⟨completion.actions, gotosOf completion.targets⟩

structure Completes (policy : ConflictPolicy) (closure : Closing) (states : Array State)
    (state : State) (completion : Completion) : Prop where
  leads : List.Forall₂ (Leads closure states) state.items.transitions completion.targets
  written : writeActions policy state.id ∅
    (state.items.reductions ++ shiftsOf completion.targets) =
      .ok (completion.actions, completion.conflicts)

theorem Completes.get?_actions {states : Array State} {state : State} {completion : Completion}
    (completes : Completes policy closure states state completion) (terminal : String) :
    completion.actions.get? terminal =
      firstAction? (state.items.reductions ++ shiftsOf completion.targets) terminal := by
  rw [(writeActions_spec completes.written).1, NameMap.get?_empty, Option.none_or]

theorem Completes.extends {state : State} {completion : Completion}
    (completes : Completes policy closure construction.states state completion)
    (later : Extends construction final) :
    Completes policy closure final.states state completion :=
  ⟨completes.leads.imp fun _ _ leads => leads.extends later, completes.written⟩

/-- The first states are completed in their order, and each state but the first
one is a target of an earlier state. -/
structure Coherent (lookup : StateLookup) (policy : ConflictPolicy) (closure : Closing)
    (kernel : Item) (items : ItemSet) (construction : Construction)
    (completions : List Completion) : Prop extends Indexed lookup construction where
  initial : construction.states[0]? = some ⟨0, kernel, items⟩
  rows_eq : construction.rows.toList = completions.map Completion.row
  conflicts_eq : construction.conflicts = completions.flatMap Completion.conflicts
  completed : ∀ (id : Nat) (completion : Completion), completions[id]? = some completion →
    ∃ state, construction.states[id]? = some state ∧
      Completes policy closure construction.states state completion
  reached : ∀ id, 0 < id → id < construction.states.size →
    ∃ source < id, ∃ completion, completions[source]? = some completion ∧
      ∃ entry ∈ completion.targets, entry.2 = id

namespace Coherent

variable {completions : List Completion}

theorem rows_size
    (coherent : Coherent lookup policy closure kernel items construction completions) :
    construction.rows.size = completions.length := by
  rw [← Array.length_toList, coherent.rows_eq, List.length_map]

theorem rows_size_le
    (coherent : Coherent lookup policy closure kernel items construction completions) :
    construction.rows.size ≤ construction.states.size := by
  rw [coherent.rows_size]
  by_contra beyond
  obtain ⟨completion, found⟩ : ∃ completion,
      completions[construction.states.size]? = some completion :=
    ⟨_, List.getElem?_eq_getElem (by omega)⟩
  obtain ⟨state, present, -⟩ := coherent.completed _ completion found
  have := (Array.getElem?_eq_some_iff.1 present).1
  omega

theorem of_initial (policy : ConflictPolicy)
    (started : Construction.initial lookup closure kernel = .ok construction) :
    ∃ items, closure [kernel] = .ok items ∧
      Coherent lookup policy closure kernel items construction [] := by
  obtain ⟨items, closed, same⟩ := bind_eq_ok.1 started
  cases same
  have interned : empty.intern lookup kernel items = (0, empty.addState lookup kernel items) := by
    have absent : empty.find? lookup kernel items = none := by
      cases lookup <;> simp [find?, empty]
    rw [intern, absent]
    rfl
  obtain ⟨indexed, -, present, onlyFirst⟩ := intern_spec (empty_indexed lookup) interned
  refine ⟨items, closed, indexed, present, rfl, rfl, by simp, fun id positive below => ?_⟩
  have := onlyFirst id (Nat.zero_le id) below
  omega

/-- The completions so far remain, and the next one is that of the waiting state. -/
private theorem completed_concat {state : State} {completion : Completion}
    (coherent : Coherent lookup policy closure kernel items construction completions)
    (waiting : construction.states[construction.rows.size]? = some state)
    (grows : Extends construction final)
    (completes : Completes policy closure final.states state completion) {id : Nat}
    {other : Completion} (found : (completions ++ [completion])[id]? = some other) :
    ∃ source, final.states[id]? = some source ∧
      Completes policy closure final.states source other := by
  by_cases early : id < completions.length
  · rw [List.getElem?_append_left early] at found
    obtain ⟨source, present, earlier⟩ := coherent.completed id other found
    exact ⟨source, grows.keeps _ _ present, earlier.extends grows⟩
  · rw [List.getElem?_append_right (by omega), List.getElem?_singleton] at found
    split at found
    · cases found
      have isNext : id = construction.rows.size := by
        rw [coherent.rows_size]
        omega
      rw [isNext]
      exact ⟨state, grows.keeps _ _ waiting, completes⟩
    · contradiction

/-- New states are targets of the waiting state. -/
private theorem reached_concat {state : State} {completion : Completion}
    (coherent : Coherent lookup policy closure kernel items construction completions)
    (waiting : construction.states[construction.rows.size]? = some state)
    (onlyTargets : ∀ id, construction.states.size ≤ id → id < final.states.size →
      ∃ entry ∈ completion.targets, entry.2 = id)
    {id : Nat} (positive : 0 < id) (below : id < final.states.size) :
    ∃ source < id, ∃ other, (completions ++ [completion])[source]? = some other ∧
      ∃ entry ∈ other.targets, entry.2 = id := by
  by_cases early : id < construction.states.size
  · obtain ⟨source, before, other, found, entry⟩ := coherent.reached id positive early
    have inRange := (List.getElem?_eq_some_iff.1 found).1
    refine ⟨source, before, other, ?_, entry⟩
    rw [List.getElem?_append_left inRange, found]
  · have before : completions.length < id := by
      have := (Array.getElem?_eq_some_iff.1 waiting).1
      rw [← coherent.rows_size]
      omega
    exact ⟨completions.length, before, completion, List.getElem?_concat_length,
      onlyTargets id (by omega) below⟩

/-- Completing the first waiting state adds its completion. -/
theorem complete {state : State}
    (coherent : Coherent lookup policy closure kernel items construction completions)
    (waiting : construction.states[construction.rows.size]? = some state)
    (completed : construction.complete lookup policy closure state = .ok final) :
    ∃ completion, Coherent lookup policy closure kernel items final
        (completions ++ [completion]) ∧
      final.rows.size = construction.rows.size + 1 := by
  obtain ⟨⟨targets, extended⟩, followed, writing⟩ := bind_eq_ok.1 completed
  obtain ⟨⟨actions, conflicts⟩, written, same⟩ := bind_eq_ok.1 writing
  cases same
  obtain ⟨indexed, grows, leads, onlyTargets⟩ := follow_spec coherent.toIndexed followed
  refine ⟨⟨targets, actions, conflicts⟩, ⟨⟨indexed.id_eq, indexed.distinct, indexed.listed⟩,
    grows.keeps _ _ coherent.initial, ?_, ?_, ?_, ?_⟩, ?_⟩
  · show (extended.rows.push _).toList = _
    rw [Array.toList_push, grows.rows_eq, coherent.rows_eq, List.map_append]
    rfl
  · show extended.conflicts ++ conflicts = _
    rw [grows.conflicts_eq, coherent.conflicts_eq, List.flatMap_append, List.flatMap_singleton]
  · intro id completion found
    exact coherent.completed_concat waiting grows ⟨leads, written⟩ found
  · intro id positive below
    exact coherent.reached_concat waiting onlyTargets positive below
  · show (extended.rows.push _).size = _
    rw [Array.size_push, grows.rows_eq]

/-- A run ends when every state is completed, unless the limit ends it before. -/
theorem run {limit : Nat}
    (coherent : Coherent lookup policy closure kernel items construction completions)
    (ran : Construction.run lookup policy closure limit construction = .ok final) :
    ∃ completions, Coherent lookup policy closure kernel items final completions ∧
      (final.rows.size = final.states.size ∨
        final.rows.size = construction.rows.size + limit) := by
  induction limit generalizing construction completions with
  | zero =>
      cases ran
      exact ⟨completions, coherent, .inr rfl⟩
  | succ limit inductionHypothesis =>
      cases waiting : construction.states[construction.rows.size]? with
      | none =>
          rw [run_of_noneWaits waiting] at ran
          cases ran
          have atLeast := Array.getElem?_eq_none_iff.1 waiting
          have atMost := coherent.rows_size_le
          exact ⟨completions, coherent, .inl (by omega)⟩
      | some state =>
          rw [run_succ_of_waits waiting] at ran
          obtain ⟨extended, completed, ranRest⟩ := bind_eq_ok.1 ran
          obtain ⟨completion, extendedCoherent, oneMore⟩ := coherent.complete waiting completed
          obtain ⟨others, finalCoherent, ends⟩ := inductionHypothesis extendedCoherent ranRest
          exact ⟨others, finalCoherent, ends.imp_right fun same => by omega⟩

/-- What holds of the first state and passes over transitions holds of every
state. -/
theorem states_induction {holds : Item → ItemSet → Prop}
    (coherent : Coherent lookup policy closure kernel items construction completions)
    (initially : holds kernel items)
    (passes : ∀ (sourceKernel : Item) (source target : ItemSet) (transition : Transition),
      holds sourceKernel source → transition ∈ source.transitions →
        closure transition.seeds = .ok target → holds transition.kernel target)
    {id : Nat} {state : State} (present : construction.states[id]? = some state) :
    holds state.kernel state.items := by
  induction id using Nat.strongRecOn generalizing state with
  | ind id inductionHypothesis =>
      rcases Nat.eq_zero_or_pos id with first | positive
      · rw [first, coherent.initial] at present
        cases present
        exact initially
      · have below := (Array.getElem?_eq_some_iff.1 present).1
        obtain ⟨source, before, completion, found, entry, member, rfl⟩ :=
          coherent.reached id positive below
        obtain ⟨sourceState, sourcePresent, completes⟩ := coherent.completed _ _ found
        obtain ⟨transition, inTransitions, -, target, closed, targetPresent⟩ :=
          exists_transition_of_target completes.leads member
        rw [present] at targetPresent
        cases targetPresent
        exact passes _ _ _ transition (inductionHypothesis source before sourcePresent)
          inTransitions closed

/-- Under the policy `report` a run succeeds if all seeds that come up have a
closure. -/
theorem exists_run_report {holds : Item → ItemSet → Prop} (limit : Nat)
    (coherent : Coherent lookup .report closure kernel items construction completions)
    (initially : holds kernel items)
    (passes : ∀ (sourceKernel : Item) (source target : ItemSet) (transition : Transition),
      holds sourceKernel source → transition ∈ source.transitions →
        closure transition.seeds = .ok target → holds transition.kernel target)
    (closes : ∀ (sourceKernel : Item) (source : ItemSet), holds sourceKernel source →
      ∀ transition ∈ source.transitions, ∃ target, closure transition.seeds = .ok target) :
    ∃ final, Construction.run lookup .report closure limit construction = .ok final := by
  induction limit generalizing construction completions with
  | zero => exact ⟨construction, rfl⟩
  | succ limit inductionHypothesis =>
      cases waiting : construction.states[construction.rows.size]? with
      | none => exact ⟨construction, run_of_noneWaits waiting _⟩
      | some state =>
          rw [run_succ_of_waits waiting]
          have holdsHere := coherent.states_induction initially passes waiting
          obtain ⟨⟨targets, extended⟩, followed⟩ := exists_follow lookup
            (closes _ _ holdsHere) construction
          obtain ⟨⟨actions, conflicts⟩, written⟩ := exists_writeActions_report state.id ∅
            (state.items.reductions ++ shiftsOf targets)
          have completed : ∃ next,
              construction.complete lookup .report closure state = .ok next :=
            ⟨_, bind_eq_ok.2 ⟨_, followed, bind_eq_ok.2 ⟨_, written, rfl⟩⟩⟩
          obtain ⟨next, completed⟩ := completed
          obtain ⟨completion, nextCoherent, -⟩ := coherent.complete waiting completed
          obtain ⟨final, ran⟩ := inductionHypothesis nextCoherent
          exact ⟨final, bind_eq_ok.2 ⟨next, completed, ran⟩⟩

end Coherent

end CanonicalLR.Construction
