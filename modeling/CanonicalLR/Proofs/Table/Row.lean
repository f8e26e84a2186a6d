import CanonicalLR.Proofs.Closure.Fact
import CanonicalLR.Proofs.Outcome
import CanonicalLR.Table.Construction
import Mathlib.Data.List.Nodup

/-!
Contract: the row of one state.

Owns:
- the reductions and transitions that the items of a state call for;
- the ACTION entries and the conflicts that a list of candidate actions leads to;
- the GOTO entries and the shifts of a list of targets;
- that the rows of a table are told by its entries.

Does not own: the states that transitions lead to.
-/

namespace CanonicalLR

/-! ### What items call for -/

namespace ItemSet

variable {set : ItemSet} {symbol : Symbol}

theorem mem_reductions {terminal : String} {action : Action} :
    (terminal, action) ∈ set.reductions ↔
      ∃ item ∈ set, item.next? = none ∧ terminal ∈ item.lookahead ∧
        action = .reduce item.production := by
  unfold reductions
  constructor
  · intro member
    obtain ⟨item, inFilter, inMap⟩ := List.mem_flatMap.1 member
    obtain ⟨inItems, complete⟩ := List.mem_filter.1 inFilter
    obtain ⟨name, inLookahead, same⟩ := List.mem_map.1 inMap
    cases same
    exact ⟨item, inItems, Option.isNone_iff_eq_none.1 complete, inLookahead, rfl⟩
  · rintro ⟨item, inItems, complete, inLookahead, rfl⟩
    exact List.mem_flatMap.2 ⟨item,
      List.mem_filter.2 ⟨inItems, Option.isNone_iff_eq_none.2 complete⟩,
      List.mem_map.2 ⟨terminal, inLookahead, rfl⟩⟩

theorem mem_advancedOver {seed : Item} :
    seed ∈ set.advancedOver symbol ↔
      ∃ item ∈ set, item.next? = some symbol ∧ seed = item.advance := by
  unfold advancedOver
  constructor
  · intro member
    obtain ⟨item, inFilter, rfl⟩ := List.mem_map.1 member
    obtain ⟨inItems, next⟩ := List.mem_filter.1 inFilter
    exact ⟨item, inItems, of_decide_eq_true next, rfl⟩
  · rintro ⟨item, inItems, next, rfl⟩
    exact List.mem_map.2 ⟨item, List.mem_filter.2 ⟨inItems, decide_eq_true next⟩, rfl⟩

theorem transition?_eq_some {transition : Transition}
    (found : set.transition? symbol = some transition) :
    transition.symbol = symbol ∧ transition.seeds = set.advancedOver symbol := by
  unfold transition? at found
  split at found
  · contradiction
  case h_2 kernel others advanced =>
    cases found
    exact ⟨rfl, advanced.symm⟩

theorem transition?_eq_none :
    set.transition? symbol = none ↔ ∀ item ∈ set, item.next? ≠ some symbol := by
  have empty : set.transition? symbol = none ↔ set.advancedOver symbol = [] := by
    unfold transition?
    split <;> simp [*]
  rw [empty, List.eq_nil_iff_forall_not_mem]
  constructor
  · intro none item member next
    exact none _ (mem_advancedOver.2 ⟨item, member, next, rfl⟩)
  · intro none seed member
    obtain ⟨item, inItems, next, -⟩ := mem_advancedOver.1 member
    exact none item inItems next

theorem exists_transition {item : Item} (member : item ∈ set) (next : item.next? = some symbol) :
    ∃ transition, set.transition? symbol = some transition := by
  rw [← Option.isSome_iff_exists, Option.isSome_iff_ne_none]
  exact fun none => transition?_eq_none.1 none item member next

private theorem nodup_eraseDups {Value : Type} [DecidableEq Value] (values : List Value) :
    values.eraseDups.Nodup := by
  match values with
  | [] => exact List.nodup_nil
  | head :: tail =>
      rw [List.eraseDups_cons, List.nodup_cons]
      refine ⟨?_, nodup_eraseDups _⟩
      rw [List.mem_eraseDups, List.mem_filter]
      simp
termination_by values.length
decreasing_by exact Nat.lt_succ_of_le (List.length_filter_le _ _)

theorem mem_nextSymbols :
    symbol ∈ set.nextSymbols ↔ ∃ item ∈ set, item.next? = some symbol := by
  have either : symbol.nonterminal?.isSome = true ∨ symbol.terminal?.isSome = true := by
    cases symbol
    · exact .inr rfl
    · exact .inl rfl
  unfold nextSymbols
  simp only [List.mem_append, List.mem_filter, List.mem_eraseDups, ← and_or_left, either, and_true]
  exact List.mem_filterMap

theorem nextSymbols_nodup (set : ItemSet) : set.nextSymbols.Nodup := by
  unfold nextSymbols
  have distinct := nodup_eraseDups (set.items.filterMap fun item => item.next?)
  apply List.Nodup.append (distinct.filter _) (distinct.filter _)
  intro symbol isNonterminal isTerminal
  have first := (List.mem_filter.1 isNonterminal).2
  have second := (List.mem_filter.1 isTerminal).2
  cases symbol <;> contradiction

theorem mem_transitions {transition : Transition} :
    transition ∈ set.transitions ↔ set.transition? transition.symbol = some transition := by
  unfold transitions
  rw [List.mem_filterMap]
  constructor
  · rintro ⟨symbol, -, found⟩
    rwa [(transition?_eq_some found).1]
  · intro found
    refine ⟨transition.symbol, ?_, found⟩
    by_contra absent
    have : set.transition? transition.symbol = none :=
      transition?_eq_none.2 fun item member next => absent (mem_nextSymbols.2 ⟨item, member, next⟩)
    rw [found] at this
    contradiction

theorem transitions_symbols_nodup (set : ItemSet) :
    (set.transitions.map Transition.symbol).Nodup := by
  have sublist : (set.transitions.map Transition.symbol).Sublist set.nextSymbols := by
    unfold transitions
    generalize set.nextSymbols = symbols
    induction symbols with
    | nil => exact .slnil
    | cons symbol rest inductionHypothesis =>
        cases found : set.transition? symbol with
        | none =>
            rw [List.filterMap_cons_none found]
            exact inductionHypothesis.cons symbol
        | some transition =>
            rw [List.filterMap_cons_some found, List.map_cons, (transition?_eq_some found).1]
            exact inductionHypothesis.cons_cons symbol
  exact set.nextSymbols_nodup.sublist sublist

end ItemSet

namespace Construction

/-! ### Actions -/

/-- The action that is listed first for a terminal. -/
def firstAction? (candidates : List (String × Action)) (terminal : String) : Option Action :=
  (candidates.find? fun candidate => candidate.1 = terminal).map Prod.snd

theorem firstAction?_cons (terminal name : String) (action : Action)
    (rest : List (String × Action)) :
    firstAction? ((name, action) :: rest) terminal =
      if name = terminal then some action else firstAction? rest terminal := by
  unfold firstAction?
  rw [List.find?_cons]
  by_cases same : name = terminal <;> simp [same]

theorem mem_of_firstAction? {candidates : List (String × Action)} {terminal : String}
    {action : Action} (first : firstAction? candidates terminal = some action) :
    (terminal, action) ∈ candidates := by
  obtain ⟨⟨name, found⟩, isFirst, same⟩ := Option.map_eq_some_iff.1 first
  have named := List.find?_some isFirst
  simp only [decide_eq_true_eq] at named
  subst named
  subst same
  exact List.mem_of_find?_eq_some isFirst

theorem exists_firstAction? {candidates : List (String × Action)} {terminal : String}
    {action : Action} (member : (terminal, action) ∈ candidates) :
    ∃ first, firstAction? candidates terminal = some first := by
  unfold firstAction?
  rw [← Option.isSome_iff_exists, Option.isSome_map, List.find?_isSome]
  exact ⟨_, member, decide_eq_true rfl⟩

/-- The conflicts of the candidates with the actions that have the entries, in
the order of the candidates. -/
def lostActions (state : Nat) (actions : NameMap Action) (candidates : List (String × Action)) :
    List Conflict :=
  candidates.filterMap fun (terminal, incoming) =>
    (actions.get? terminal).bind fun existing =>
      if existing = incoming then none else some ⟨state, terminal, existing, incoming⟩

theorem mem_lostActions {state : Nat} {actions : NameMap Action}
    {candidates : List (String × Action)} {conflict : Conflict} :
    conflict ∈ lostActions state actions candidates ↔
      conflict.state = state ∧ (conflict.terminal, conflict.incoming) ∈ candidates ∧
        actions.get? conflict.terminal = some conflict.existing ∧
        conflict.existing ≠ conflict.incoming := by
  unfold lostActions
  rw [List.mem_filterMap]
  constructor
  · rintro ⟨⟨terminal, incoming⟩, member, lost⟩
    obtain ⟨existing, found, differs⟩ := Option.bind_eq_some_iff.1 lost
    split at differs
    · contradiction
    case isFalse different =>
      cases differs
      exact ⟨rfl, member, found, different⟩
  · rintro ⟨rfl, member, found, different⟩
    refine ⟨_, member, Option.bind_eq_some_iff.2 ⟨_, found, ?_⟩⟩
    rw [if_neg different]

theorem lostActions_cons {state : Nat} {actions : NameMap Action} {name : String}
    {existing incoming : Action} {rest : List (String × Action)}
    (entry : actions.get? name = some existing) :
    lostActions state actions ((name, incoming) :: rest) =
      if existing = incoming then lostActions state actions rest
      else ⟨state, name, existing, incoming⟩ :: lostActions state actions rest := by
  unfold lostActions
  by_cases same : existing = incoming
  · rw [if_pos same, List.filterMap_cons_none]
    simp [entry, same]
  · rw [if_neg same, List.filterMap_cons_some]
    simp [entry, same]

/-- A candidate for a terminal that has an entry does not count. -/
private theorem or_firstAction?_cons {actions : NameMap Action} {name : String}
    {existing incoming : Action} {rest : List (String × Action)}
    (entry : actions.get? name = some existing) (terminal : String) :
    (actions.get? terminal).or (firstAction? ((name, incoming) :: rest) terminal) =
      (actions.get? terminal).or (firstAction? rest terminal) := by
  rw [firstAction?_cons]
  by_cases same : name = terminal
  · subst same
    rw [entry, Option.some_or, Option.some_or]
  · rw [if_neg same]

/-- The entries hold what was there and then the first candidates, the conflicts
are the other candidates, and there are none under the policy `fail`. -/
theorem writeActions_spec {policy : ConflictPolicy} {state : Nat}
    {actions final : NameMap Action} {candidates : List (String × Action)}
    {conflicts : List Conflict}
    (written : writeActions policy state actions candidates = .ok (final, conflicts)) :
    (∀ terminal, final.get? terminal =
        (actions.get? terminal).or (firstAction? candidates terminal)) ∧
      conflicts = lostActions state final candidates ∧
      (policy = .fail → conflicts = []) := by
  induction candidates generalizing actions conflicts with
  | nil =>
      cases written
      refine ⟨fun terminal => ?_, rfl, fun _ => rfl⟩
      rw [firstAction?, List.find?_nil, Option.map_none, Option.or_none]
  | cons candidate rest inductionHypothesis =>
      obtain ⟨name, incoming⟩ := candidate
      unfold writeActions at written
      cases entry : actions.get? name with
      | none =>
          rw [entry] at written
          have ⟨entries, lost, unlost⟩ := inductionHypothesis written
          have own : final.get? name = some incoming := by
            rw [entries, NameMap.get?_insert, if_pos rfl, Option.some_or]
          refine ⟨fun terminal => ?_, ?_, unlost⟩
          · rw [entries, NameMap.get?_insert, firstAction?_cons]
            by_cases same : terminal = name
            · subst same
              simp [entry]
            · simp [same, Ne.symm same]
          · rw [lost, lostActions_cons own, if_pos rfl]
      | some existing =>
          rw [entry] at written
          simp only at written
          split at written
          case isTrue same =>
            have ⟨entries, lost, unlost⟩ := inductionHypothesis written
            have own : final.get? name = some existing := by
              rw [entries, entry, Option.some_or]
            refine ⟨fun terminal => ?_, ?_, unlost⟩
            · rw [or_firstAction?_cons entry, entries]
            · rw [lost, lostActions_cons own, if_pos same]
          case isFalse different =>
            cases policy with
            | fail => contradiction
            | report =>
                obtain ⟨⟨restFinal, restConflicts⟩, writtenRest, same⟩ := bind_eq_ok.1 written
                cases same
                have ⟨entries, lost, _⟩ := inductionHypothesis writtenRest
                simp only at entries lost ⊢
                have own : restFinal.get? name = some existing := by
                  rw [entries, entry, Option.some_or]
                refine ⟨fun terminal => ?_, ?_, by simp⟩
                · rw [or_firstAction?_cons entry, entries]
                · rw [lost, lostActions_cons own, if_neg different]

/-- Under the policy `report`, writing never fails. -/
theorem exists_writeActions_report (state : Nat) (actions : NameMap Action)
    (candidates : List (String × Action)) :
    ∃ result, writeActions .report state actions candidates = .ok result := by
  induction candidates generalizing actions with
  | nil => exact ⟨_, rfl⟩
  | cons candidate rest inductionHypothesis =>
      obtain ⟨name, incoming⟩ := candidate
      unfold writeActions
      cases actions.get? name with
      | none => exact inductionHypothesis _
      | some existing =>
          simp only
          split
          · exact inductionHypothesis _
          · obtain ⟨⟨final, conflicts⟩, written⟩ := inductionHypothesis actions
            rw [written]
            exact ⟨_, rfl⟩

/-! ### Targets -/

/-- The fold of `gotosOf`, from any map: an entry of the targets, or one of the map that
no target covers. -/
private theorem get?_foldl {step : NameMap Nat → Symbol × Nat → NameMap Nat}
    (onTerminal : ∀ gotos name target, step gotos (.terminal name, target) = gotos)
    (onNonterminal : ∀ gotos name target,
      step gotos (.nonterminal name, target) = gotos.insert name target)
    {targets : List (Symbol × Nat)} (distinct : (targets.map Prod.fst).Nodup)
    {name : String} {target : Nat} (gotos : NameMap Nat) :
    (targets.foldl step gotos).get? name = some target ↔
      (.nonterminal name, target) ∈ targets ∨
        .nonterminal name ∉ targets.map Prod.fst ∧ gotos.get? name = some target := by
  induction targets generalizing gotos with
  | nil => simp
  | cons entry rest inductionHypothesis =>
      obtain ⟨symbol, number⟩ := entry
      rw [List.map_cons, List.nodup_cons] at distinct
      rw [List.foldl_cons, inductionHypothesis distinct.2, List.mem_cons, List.map_cons,
        List.mem_cons]
      cases symbol with
      | terminal other => simp [onTerminal]
      | nonterminal other =>
          rw [onNonterminal, NameMap.get?_insert]
          by_cases same : name = other
          · subst same
            have lacks : (Symbol.nonterminal name, target) ∉ rest := fun member =>
              distinct.1 (List.mem_map.2 ⟨_, member, rfl⟩)
            simp only [if_true, Option.some.injEq, Prod.mk.injEq, true_and, lacks, or_false,
              not_true_eq_false, false_and, false_or, distinct.1, not_false_eq_true]
            exact eq_comm
          · simp [same]

theorem get?_gotosOf {targets : List (Symbol × Nat)}
    (distinct : (targets.map Prod.fst).Nodup) {name : String} {target : Nat} :
    (gotosOf targets).get? name = some target ↔ (.nonterminal name, target) ∈ targets := by
  refine (get?_foldl (fun _ _ _ => rfl) (fun _ _ _ => rfl) distinct ∅).trans ?_
  rw [NameMap.get?_empty]
  simp

theorem mem_shiftsOf {targets : List (Symbol × Nat)} {name : String} {action : Action} :
    (name, action) ∈ shiftsOf targets ↔
      ∃ target, (.terminal name, target) ∈ targets ∧ action = .shift target := by
  unfold shiftsOf
  rw [List.mem_filterMap]
  constructor
  · rintro ⟨⟨symbol, target⟩, member, found⟩
    cases symbol with
    | terminal other =>
        cases found
        exact ⟨target, member, rfl⟩
    | nonterminal other => contradiction
  · rintro ⟨target, member, rfl⟩
    exact ⟨_, member, rfl⟩

end Construction

/-! ### Rows with the same entries -/

namespace ParseTable

variable {left right : ParseTable} (sameSize : left.rows.size = right.rows.size)

include sameSize

/-- One map of the rows, such as their GOTO maps, is told by its entries. -/
theorem rows_map_ext {Value : Type} {part : Row → NameMap Value}
    (same : ∀ id < left.rows.size, ∀ name value,
      (left.rows[id]?.bind fun row => (part row).get? name) = some value ↔
        (right.rows[id]?.bind fun row => (part row).get? name) = some value) :
    left.rows.map part = right.rows.map part := by
  refine Array.ext (by simpa using sameSize) fun id leftInRange rightInRange => ?_
  rw [Array.size_map] at leftInRange rightInRange
  rw [Array.getElem_map, Array.getElem_map]
  ext name value
  have sameEntry := same id leftInRange name value
  rw [Array.getElem?_eq_getElem leftInRange, Array.getElem?_eq_getElem rightInRange] at sameEntry
  exact sameEntry

theorem rows_ext
    (sameActions : ∀ id < left.rows.size, ∀ terminal value,
      left.action? id terminal = some value ↔ right.action? id terminal = some value)
    (sameGotos : ∀ id < left.rows.size, ∀ nonterminal target,
      left.goto? id nonterminal = some target ↔ right.goto? id nonterminal = some target) :
    left.rows = right.rows := by
  have actions := rows_map_ext sameSize sameActions
  have gotos := rows_map_ext sameSize sameGotos
  refine Array.ext sameSize fun id leftInRange rightInRange => ?_
  have sameRowActions : left.rows[id].actions = right.rows[id].actions := by
    simpa [leftInRange, rightInRange] using congrArg (fun maps => maps[id]?) actions
  have sameRowGotos : left.rows[id].gotos = right.rows[id].gotos := by
    simpa [leftInRange, rightInRange] using congrArg (fun maps => maps[id]?) gotos
  generalize left.rows[id] = leftRow, right.rows[id] = rightRow at sameRowActions sameRowGotos
  cases leftRow
  cases rightRow
  cases sameRowActions
  cases sameRowGotos
  rfl

end ParseTable

end CanonicalLR
