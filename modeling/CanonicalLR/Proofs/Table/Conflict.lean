import CanonicalLR.Proofs.Table.Successor

/-!
Contract: which candidate gets an ACTION entry, and what becomes of the others.

Owns:
- the order in which the candidates of a state are written;
- that an entry holds the candidate that comes first in this order;
- that each other candidate is listed as a conflict, once, and that the conflicts stand
  in the order of the states.

Does not own: what the policy `fail` makes of a conflict.
-/

namespace CanonicalLR

/-- What comes first of two actions for one terminal: a reduction by an earlier production
before one by a later production, and a reduction before a shift. -/
inductive Action.Precedes : Action → Action → Prop where
  | reduction {earlier later : Nat} (before : earlier < later) :
      Precedes (.reduce earlier) (.reduce later)
  | shift {production state : Nat} : Precedes (.reduce production) (.shift state)

theorem Action.Precedes.ne {earlier later : Action} (precedes : earlier.Precedes later) :
    earlier ≠ later := by
  rintro rfl
  cases precedes with
  | reduction before => exact Nat.lt_irrefl _ before

/-! ### The order of complete items -/

theorem Core.production_le_of_lt {left right : Core} (before : compare left right = .lt) :
    left.production ≤ right.production := by
  by_contra beyond
  have above : compare left.production right.production = .gt :=
    Nat.compare_eq_gt.2 (Nat.lt_of_not_le beyond)
  change ((compare left.production right.production).then _).then _ = .lt at before
  rw [above] at before
  contradiction

variable {grammar : Grammar}

/-- A dot with nothing behind it stands at the end, not beyond it. -/
theorem Core.Fits.next?_eq_none_iff {core : Core} (fits : core.Fits grammar) :
    core.next? = none ↔ core.isComplete = true := by
  obtain ⟨production, -, -, sameRhs, inRange⟩ := fits
  rw [next?, List.getElem?_eq_none_iff, isComplete, decide_eq_true_iff, sameRhs]
  omega

/-- Complete items in ascending order are by ascending productions: a production has one
core with nothing behind the dot. -/
theorem Core.Fits.production_lt {left right : Core} (leftFits : left.Fits grammar)
    (rightFits : right.Fits grammar) (leftComplete : left.next? = none)
    (rightComplete : right.next? = none) (before : compare left right = .lt) :
    left.production < right.production := by
  apply Nat.lt_of_le_of_ne (production_le_of_lt before)
  intro sameProduction
  have leftEnd : left.dot = left.rhs.length :=
    of_decide_eq_true (leftFits.next?_eq_none_iff.1 leftComplete)
  have rightEnd : right.dot = right.rhs.length :=
    of_decide_eq_true (rightFits.next?_eq_none_iff.1 rightComplete)
  have sameRhs : left.rhs = right.rhs := by
    obtain ⟨production, found, -, rightRhs, -⟩ := rightFits
    rw [rightRhs, (leftFits.agrees (sameProduction ▸ found)).2.1]
  have sameDot : left.dot = right.dot := by rw [leftEnd, rightEnd, sameRhs]
  rw [leftFits.ext rightFits sameProduction sameDot, Std.compare_self] at before
  contradiction

/-! ### The order of the candidates -/

namespace Construction

/-- Of two candidates for one terminal the earlier one comes first. -/
def Ranked (candidates : List (String × Action)) : Prop :=
  candidates.Pairwise fun earlier later => earlier.1 = later.1 → earlier.2.Precedes later.2

theorem reductions_ranked {set : ItemSet} (fits : set.Fits grammar) : Ranked set.reductions := by
  unfold Ranked ItemSet.reductions
  rw [List.pairwise_flatMap]
  constructor
  · intro item _
    rw [List.pairwise_map]
    refine item.lookahead.ascending.imp fun {earlier later} before same => ?_
    change compare earlier later = .lt at before
    change earlier = later at same
    rw [same, Std.compare_self] at before
    contradiction
  · refine List.Pairwise.imp_of_mem ?_ (set.ascending.filter _)
    intro earlier later earlierMember laterMember before left inLeft right inRight _
    obtain ⟨earlierInSet, earlierComplete⟩ := List.mem_filter.1 earlierMember
    obtain ⟨laterInSet, laterComplete⟩ := List.mem_filter.1 laterMember
    obtain ⟨_, -, rfl⟩ := List.mem_map.1 inLeft
    obtain ⟨_, -, rfl⟩ := List.mem_map.1 inRight
    exact .reduction ((fits earlier earlierInSet).1.production_lt (fits later laterInSet).1
      (Option.isNone_iff_eq_none.1 earlierComplete) (Option.isNone_iff_eq_none.1 laterComplete)
      before)

theorem shiftsOf_ranked {targets : List (Symbol × Nat)} (distinct : (targets.map Prod.fst).Nodup) :
    Ranked (shiftsOf targets) := by
  rw [List.nodup_iff_pairwise_ne, List.pairwise_map] at distinct
  refine List.pairwise_filterMap.2 (distinct.imp ?_)
  rintro ⟨earlier, _⟩ ⟨later, _⟩ different left isLeft right isRight same
  cases earlier with
  | nonterminal name => contradiction
  | terminal name =>
      cases later with
      | nonterminal other => contradiction
      | terminal other =>
          cases isLeft
          cases isRight
          exact absurd (congrArg Symbol.terminal same) different

theorem candidates_ranked {set : ItemSet} {targets : List (Symbol × Nat)}
    (fits : set.Fits grammar) (distinct : (targets.map Prod.fst).Nodup) :
    Ranked (set.reductions ++ shiftsOf targets) := by
  apply List.pairwise_append.2
  refine ⟨reductions_ranked fits, shiftsOf_ranked distinct, ?_⟩
  rintro ⟨terminal, left⟩ isReduction ⟨other, right⟩ isShift -
  obtain ⟨item, -, -, -, rfl⟩ := ItemSet.mem_reductions.1 isReduction
  obtain ⟨target, -, rfl⟩ := mem_shiftsOf.1 isShift
  exact .shift

theorem Ranked.nodup {candidates : List (String × Action)} (ranked : Ranked candidates) :
    candidates.Nodup := by
  refine List.nodup_iff_pairwise_ne.2 (ranked.imp fun {earlier later} precedes same => ?_)
  exact (precedes (congrArg Prod.fst same)).ne (congrArg Prod.snd same)

/-- The first candidate for a terminal comes before all other ones. -/
theorem Ranked.firstAction?_precedes {candidates : List (String × Action)}
    (ranked : Ranked candidates) {terminal : String} {first other : Action}
    (isFirst : firstAction? candidates terminal = some first)
    (member : (terminal, other) ∈ candidates) : other = first ∨ first.Precedes other := by
  induction candidates with
  | nil => exact absurd member List.not_mem_nil
  | cons candidate rest inductionHypothesis =>
      obtain ⟨name, action⟩ := candidate
      obtain ⟨headRanked, restRanked⟩ := List.pairwise_cons.1 ranked
      rw [firstAction?_cons] at isFirst
      rcases List.mem_cons.1 member with isHead | inRest
      · cases isHead
        rw [if_pos rfl] at isFirst
        exact .inl (Option.some.inj isFirst)
      · by_cases same : name = terminal
        · rw [if_pos same] at isFirst
          cases isFirst
          exact .inr (headRanked _ inRest same)
        · rw [if_neg same] at isFirst
          exact inductionHypothesis restRanked isFirst inRest

/-! ### The list of conflicts -/

theorem lostActions_nodup {state : Nat} {actions : NameMap Action}
    {candidates : List (String × Action)} (distinct : candidates.Nodup) :
    (lostActions state actions candidates).Nodup := by
  refine List.Nodup.filterMap ?_ distinct
  rintro ⟨left, leftAction⟩ ⟨right, rightAction⟩ conflict ofLeft ofRight
  obtain ⟨_, -, lostLeft⟩ := Option.bind_eq_some_iff.1 ofLeft
  obtain ⟨_, -, lostRight⟩ := Option.bind_eq_some_iff.1 ofRight
  split at lostLeft
  · contradiction
  · split at lostRight
    · contradiction
    · cases lostLeft
      cases lostRight
      rfl

section Entries

variable {lookup : StateLookup} {policy : ConflictPolicy} {kernel : Item} {items : ItemSet}
  {construction : Construction} {completions : List Completion}
  (coherent : Coherent lookup policy (close grammar (Sets.ofGrammar grammar)) kernel items
    construction completions)
  (fits : ∀ (id : Nat) (state : State), construction.states[id]? = some state →
    state.items.Fits grammar)

include fits

private theorem ranked_of_completion {id : Nat} {state : State} {completion : Completion}
    (present : construction.states[id]? = some state)
    (completes : Completes policy (close grammar (Sets.ofGrammar grammar)) construction.states
      state completion) :
    Ranked (state.items.reductions ++ shiftsOf completion.targets) := by
  apply candidates_ranked (fits id state present)
  rw [symbols_of_targets completes.leads]
  exact state.items.transitions_symbols_nodup

include coherent

/-- The conflicts stand in the order of the states, and none stands there twice. -/
theorem conflicts_pairwise :
    construction.conflicts.Pairwise fun earlier later =>
      earlier.state ≤ later.state ∧ earlier ≠ later := by
  have ofCompletion : ∀ (id : Nat) (completion : Completion),
      completions[id]? = some completion →
        completion.conflicts.Nodup ∧ ∀ conflict ∈ completion.conflicts, conflict.state = id := by
    intro id completion found
    obtain ⟨state, present, completes⟩ := coherent.completed id completion found
    rw [(writeActions_spec completes.written).2.1, coherent.id_eq id state present]
    refine ⟨lostActions_nodup (ranked_of_completion fits present completes).nodup, ?_⟩
    exact fun conflict member => (mem_lostActions.1 member).1
  rw [coherent.conflicts_eq, List.pairwise_flatMap]
  constructor
  · intro completion member
    obtain ⟨id, found⟩ := List.getElem?_of_mem member
    obtain ⟨distinct, ofState⟩ := ofCompletion id completion found
    refine List.Pairwise.imp_of_mem ?_ (List.nodup_iff_pairwise_ne.1 distinct)
    intro earlier later earlierMember laterMember different
    rw [ofState earlier earlierMember, ofState later laterMember]
    exact ⟨Nat.le_refl id, different⟩
  · rw [List.pairwise_iff_getElem]
    intro left right leftInRange rightInRange before earlier earlierMember later laterMember
    have earlierState :=
      (ofCompletion left _ (List.getElem?_eq_getElem leftInRange)).2 earlier earlierMember
    have laterState :=
      (ofCompletion right _ (List.getElem?_eq_getElem rightInRange)).2 later laterMember
    refine ⟨by omega, ?_⟩
    rintro rfl
    omega

/-- An entry holds the candidate that comes first. -/
theorem precedes_of_candidate (finished : construction.rows.size = construction.states.size)
    {id : Nat} {terminal : String} {first other : Action}
    (entry : (tableOf grammar construction).action? id terminal = some first)
    (candidate : (tableOf grammar construction).Candidate id terminal other) :
    other = first ∨ first.Precedes other := by
  obtain ⟨state, present⟩ := candidate.present
  obtain ⟨completion, found, completes⟩ := exists_completion coherent finished present
  rw [action?_eq coherent found, completes.get?_actions] at entry
  exact (ranked_of_completion fits present completes).firstAction?_precedes entry
    ((mem_candidates coherent present completes).2 candidate)

end Entries

end Construction

namespace ParseTable

open Construction

variable {lookup : StateLookup} {policy : ConflictPolicy} {table : ParseTable}

/-- Every action that the items of a state call for is accounted for: the first of them has
the entry, each other one is listed as a conflict with it, once, and nothing else is. -/
structure Accounted (grammar : Grammar) (table : ParseTable) : Prop where
  candidate_reduce_iff : ∀ id terminal index, table.Candidate id terminal (.reduce index) ↔
    ∃ state, table.states[id]? = some state ∧ ∃ item ∈ state.items,
      item.isComplete = true ∧ terminal ∈ item.lookahead ∧ item.production = index
  candidate_shift_iff : ∀ id terminal target, table.Candidate id terminal (.shift target) ↔
    table.Successor grammar id (.terminal terminal) target
  existsUnique_candidate_shift_iff : ∀ id terminal,
    (∃! target, table.Candidate id terminal (.shift target)) ↔ table.Awaits id (.terminal terminal)
  action?_eq_none_iff : ∀ id terminal,
    table.action? id terminal = none ↔ ∀ action, ¬ table.Candidate id terminal action
  action?_eq_reduce_iff : ∀ id terminal index,
    table.action? id terminal = some (.reduce index) ↔
      table.Candidate id terminal (.reduce index) ∧
        ∀ other, table.Candidate id terminal (.reduce other) → index ≤ other
  action?_eq_shift_iff : ∀ id terminal target,
    table.action? id terminal = some (.shift target) ↔
      table.Candidate id terminal (.shift target) ∧
        ∀ index, ¬ table.Candidate id terminal (.reduce index)
  mem_conflicts_iff : ∀ conflict, conflict ∈ table.conflicts ↔
    table.Candidate conflict.state conflict.terminal conflict.incoming ∧
      table.action? conflict.state conflict.terminal = some conflict.existing ∧
      conflict.existing ≠ conflict.incoming
  conflicts_nodup : table.conflicts.Nodup
  existing_reduces : ∀ conflict ∈ table.conflicts, ∃ index, conflict.existing = .reduce index ∧
    ∀ other, conflict.incoming = .reduce other → index < other
  conflicts_grouped : table.conflicts.Pairwise fun earlier later => earlier.state ≤ later.state

theorem conflicts_ordered (generation : generateWith lookup policy grammar = .ok table) :
    table.conflicts.Pairwise fun earlier later =>
      earlier.state ≤ later.state ∧ earlier ≠ later := by
  obtain ⟨_, _, _, final, started, -, -, begun, ran, rfl⟩ := draft_eq_ok.1 generation
  obtain ⟨_, _, -, coherent, -, fits⟩ := coherent_of_run started begun ran
  exact conflicts_pairwise coherent fits

theorem action?_precedes (generation : generateWith lookup policy grammar = .ok table)
    {id : Nat} {terminal : String} {first other : Action}
    (entry : table.action? id terminal = some first)
    (candidate : table.Candidate id terminal other) : other = first ∨ first.Precedes other := by
  obtain ⟨_, _, _, final, started, -, -, begun, ran, rfl⟩ := draft_eq_ok.1 generation
  obtain ⟨_, _, -, coherent, finished, fits⟩ := coherent_of_run started begun ran
  exact precedes_of_candidate coherent fits finished entry candidate

namespace Generated

variable (generated : table.Generated policy)

include generated

theorem candidate_reduce_iff_isComplete {id : Nat} {terminal : String} {index : Nat} :
    table.Candidate id terminal (.reduce index) ↔
      ∃ state, table.states[id]? = some state ∧ ∃ item ∈ state.items,
        item.isComplete = true ∧ terminal ∈ item.lookahead ∧ item.production = index := by
  have atEnd : ∀ {state : State} {item : Item}, table.states[id]? = some state →
      item ∈ state.items → (item.next? = none ↔ item.isComplete = true) :=
    fun {state item} present member =>
      (generated.fits id state present item member).1.next?_eq_none_iff
  constructor
  · intro candidate
    cases candidate with
    | reduce present member complete inLookahead =>
        exact ⟨_, present, _, member, (atEnd present member).1 complete, inLookahead, rfl⟩
  · rintro ⟨state, present, item, member, complete, inLookahead, rfl⟩
    exact .reduce present member ((atEnd present member).2 complete) inLookahead

theorem candidate_shift_iff_successor {id : Nat} {terminal : String} {target : Nat} :
    table.Candidate id terminal (.shift target) ↔
      table.Successor table.grammar id (.terminal terminal) target := by
  constructor
  · exact fun candidate => candidate.edge.successor generated
  · exact fun successor => .shift (generated.edge_of_successor successor)

theorem existsUnique_candidate_shift_iff {id : Nat} {terminal : String} :
    (∃! target, table.Candidate id terminal (.shift target)) ↔
      table.Awaits id (.terminal terminal) := by
  constructor
  · rintro ⟨target, candidate, -⟩
    exact candidate.edge.awaits
  · intro awaits
    obtain ⟨target, edge⟩ := generated.exists_edge_of_awaits awaits
    exact ⟨target, .shift edge, fun other candidate => generated.edge_unique candidate.edge edge⟩

theorem action?_eq_none_iff {id : Nat} {terminal : String} :
    table.action? id terminal = none ↔ ∀ action, ¬ table.Candidate id terminal action := by
  constructor
  · intro absent action candidate
    obtain ⟨first, entry⟩ := generated.exists_action? id terminal action candidate
    rw [absent] at entry
    contradiction
  · intro noCandidate
    cases entry : table.action? id terminal with
    | none => rfl
    | some action => exact absurd (generated.candidate_of_action? _ _ _ entry) (noCandidate action)

end Generated

section Entries

variable (generation : generateWith lookup policy grammar = .ok table) {id : Nat}
  {terminal : String}

include generation

/-- Of the reductions the one by the first production has the entry. -/
theorem action?_eq_reduce_iff {index : Nat} :
    table.action? id terminal = some (.reduce index) ↔
      table.Candidate id terminal (.reduce index) ∧
        ∀ other, table.Candidate id terminal (.reduce other) → index ≤ other := by
  have generated := (generated_of_generateWith generation).2
  constructor
  · intro entry
    refine ⟨generated.candidate_of_action? _ _ _ entry, fun other candidate => ?_⟩
    rcases action?_precedes generation entry candidate with same | precedes
    · exact Nat.le_of_eq (Action.reduce.inj same).symm
    · cases precedes with
      | reduction before => exact Nat.le_of_lt before
  · rintro ⟨candidate, least⟩
    obtain ⟨first, entry⟩ := generated.exists_action? _ _ _ candidate
    rcases action?_precedes generation entry candidate with same | precedes
    · rw [entry, same]
    · cases precedes with
      | @reduction earlier _ before =>
          have := least earlier (generated.candidate_of_action? _ _ _ entry)
          omega

/-- A shift has the entry when there is no reduction. -/
theorem action?_eq_shift_iff {target : Nat} :
    table.action? id terminal = some (.shift target) ↔
      table.Candidate id terminal (.shift target) ∧
        ∀ index, ¬ table.Candidate id terminal (.reduce index) := by
  have generated := (generated_of_generateWith generation).2
  constructor
  · intro entry
    refine ⟨generated.candidate_of_action? _ _ _ entry, fun index candidate => ?_⟩
    rcases action?_precedes generation entry candidate with same | precedes
    · contradiction
    · cases precedes
  · rintro ⟨candidate, noReduction⟩
    obtain ⟨first, entry⟩ := generated.exists_action? _ _ _ candidate
    rcases action?_precedes generation entry candidate with same | precedes
    · rw [entry, same]
    · cases precedes with
      | shift => exact absurd (generated.candidate_of_action? _ _ _ entry) (noReduction _)

/-- What has the entry of a conflict is a reduction, by an earlier production than a
reduction that has lost it. -/
theorem existing_of_conflict {conflict : Conflict} (member : conflict ∈ table.conflicts) :
    ∃ index, conflict.existing = .reduce index ∧
      ∀ other, conflict.incoming = .reduce other → index < other := by
  have generated := (generated_of_generateWith generation).2
  obtain ⟨candidate, entry, different⟩ := (generated.mem_conflicts conflict).1 member
  have precedes := (action?_precedes generation entry candidate).resolve_left different.symm
  generalize conflict.existing = existing, conflict.incoming = incoming at precedes
  cases precedes with
  | @reduction earlier later before =>
      exact ⟨earlier, rfl, fun other same => Action.reduce.inj same ▸ before⟩
  | @shift index target => exact ⟨index, rfl, fun other same => Action.noConfusion same⟩

end Entries

/-- In every table the entries and the conflicts account for all that the items call for. -/
theorem accounted_of_generate (generation : generate policy grammar = .ok table) :
    table.Accounted grammar := by
  obtain ⟨rfl, generated⟩ := generated_of_generateWith generation
  have ordered := conflicts_ordered generation
  exact {
    candidate_reduce_iff := fun _ _ _ => generated.candidate_reduce_iff_isComplete
    candidate_shift_iff := fun _ _ _ => generated.candidate_shift_iff_successor
    existsUnique_candidate_shift_iff := fun _ _ => generated.existsUnique_candidate_shift_iff
    action?_eq_none_iff := fun _ _ => generated.action?_eq_none_iff
    action?_eq_reduce_iff := fun _ _ _ => action?_eq_reduce_iff generation
    action?_eq_shift_iff := fun _ _ _ => action?_eq_shift_iff generation
    mem_conflicts_iff := generated.mem_conflicts
    conflicts_nodup := List.nodup_iff_pairwise_ne.2 (ordered.imp And.right)
    existing_reduces := fun _ member => existing_of_conflict generation member
    conflicts_grouped := ordered.imp And.left }

/-- In the sample made by hand a reduction of nothing has the entry that a shift wants. -/
theorem accounted_of_generate_optional :
    ∃ table, generate .report Grammar.optional = .ok table ∧
      table.Accounted Grammar.optional ∧
      table.conflicts = [⟨0, "a", .reduce 1, .shift 2⟩] ∧
      table.action? 0 "a" = some (.reduce 1) := by
  obtain ⟨table, generation, conflicts⟩ := exists_generate_optional
  have accounted := accounted_of_generate generation
  refine ⟨table, generation, accounted, conflicts, ?_⟩
  exact ((accounted.mem_conflicts_iff ⟨0, "a", .reduce 1, .shift 2⟩).1 (by simp [conflicts])).2.1

end ParseTable

end CanonicalLR
