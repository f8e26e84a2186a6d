import CanonicalLR.Proofs.Table.Edge

/-!
Contract: paths of the automaton from its first state.

Owns:
- the symbols that the states of a stack spell;
- what stands before the dots of the items in the last state of a path;
- the state of a path in which the dot of such an item was in front;
- that no transition leads back to the first state.

Does not own: runs, which also pop states.
-/

namespace CanonicalLR

/-- The core with the dot before the first symbol again. -/
def Core.restart (core : Core) : Core :=
  { core with dot := 0 }

theorem Core.Fits.restart_eq {grammar : Grammar} {core : Core} {production : Production}
    (fits : core.Fits grammar)
    (found : grammar.productions[core.production]? = some production) :
    core.restart = .start core.production production := by
  obtain ⟨sameLhs, sameRhs, -⟩ := fits.agrees found
  rw [Core.restart, sameLhs, sameRhs]
  rfl

namespace ParseTable

/-- The states of a stack, the last one first, follow one another over the
symbols, the first one first. -/
inductive Path (table : ParseTable) : List Nat → List Symbol → Prop where
  | initial : Path table [0] []
  | edge {source target : Nat} {below : List Nat} {symbols : List Symbol} {symbol : Symbol}
      (path : Path table (source :: below) symbols) (edge : table.Edge source symbol target) :
      Path table (target :: source :: below) (symbols ++ [symbol])

variable {policy : ConflictPolicy} {table : ParseTable} {stack : List Nat}
  {symbols : List Symbol}

namespace Path

theorem length_eq (path : table.Path stack symbols) : stack.length = symbols.length + 1 := by
  induction path with
  | initial => rfl
  | edge _ _ inductionHypothesis =>
      rw [List.length_cons, inductionHypothesis, List.length_append, List.length_singleton]

/-- Without the states of the last symbols the stack spells the other ones. -/
theorem drop {front back : List Symbol} (path : table.Path stack (front ++ back)) :
    table.Path (stack.drop back.length) front := by
  induction back using List.reverseRecOn generalizing stack with
  | nil => rwa [List.append_nil] at path
  | append_singleton back last inductionHypothesis =>
      rw [← List.append_assoc] at path
      generalize spelled : front ++ back ++ [last] = all at path
      cases path with
      | initial => simp at spelled
      | edge path _ =>
          obtain ⟨same, -⟩ := List.append_inj' spelled rfl
          rw [List.length_append, List.length_singleton, List.drop_succ_cons]
          exact inductionHypothesis (same ▸ path)

/-- The symbols end with what stands before the dot of each item in the last
state. -/
theorem exists_front (generated : table.Generated policy) {top : Nat} {below : List Nat}
    (path : table.Path (top :: below) symbols) {core : Core} {terminal? : Option String}
    (records : table.Records top (core, terminal?)) :
    ∃ front, symbols = front ++ core.rhs.take core.dot := by
  generalize same : top :: below = stack at path
  induction path generalizing top below core terminal? with
  | initial =>
      cases same
      rw [generated.initial_dot records, List.take_zero]
      exact ⟨[], rfl⟩
  | @edge source target lower symbols symbol path edge inductionHypothesis =>
      cases same
      rcases edge.records_cases records with atStart | ⟨origin, inSource, next, rfl⟩
      · rw [atStart, List.take_zero]
        exact ⟨_, (List.append_nil _).symm⟩
      · obtain ⟨front, spelled⟩ := inductionHypothesis inSource rfl
        have behindDot : origin.rhs[origin.dot]? = some symbol := next
        refine ⟨front, ?_⟩
        show _ = front ++ origin.rhs.take (origin.dot + 1)
        rw [spelled, List.take_add_one, behindDot, Option.toList_some, List.append_assoc]

/-- The state below those of the symbols before the dot holds the item with the dot
in front. -/
theorem exists_base (generated : table.Generated policy) {top : Nat} {below : List Nat}
    (path : table.Path (top :: below) symbols) {core : Core} {terminal? : Option String}
    (records : table.Records top (core, terminal?)) :
    ∃ base lower, (top :: below).drop core.dot = base :: lower ∧
      table.Records base (core.restart, terminal?) := by
  have atStart : ∀ {id : Nat} {core : Core}, core.dot = 0 →
      table.Records id (core, terminal?) → table.Records id (core.restart, terminal?) := by
    intro id core inFront records
    have same : core.restart = core := by rw [Core.restart, ← inFront]
    rwa [same]
  generalize same : top :: below = stack at path
  induction path generalizing top below core with
  | initial =>
      cases same
      have inFront := generated.initial_dot records
      exact ⟨0, [], by rw [inFront, List.drop_zero], atStart inFront records⟩
  | @edge source target lower symbols symbol path edge inductionHypothesis =>
      cases same
      rcases edge.records_cases records with inFront | ⟨origin, inSource, -, rfl⟩
      · exact ⟨target, source :: lower, by rw [inFront, List.drop_zero],
          atStart inFront records⟩
      · exact inductionHypothesis inSource rfl

end Path

namespace Generated

variable (generated : table.Generated policy)

include generated

/-- The first state has no item whose dot has moved, and every target has one. -/
theorem target_ne_zero {source target : Nat} {symbol : Symbol}
    (edge : table.Edge source symbol target) : target ≠ 0 := by
  rintro rfl
  obtain ⟨core, records, next⟩ := edge.exists_core
  have moved := edge.records_advance records next
  exact Nat.succ_ne_zero core.dot (generated.initial_dot moved)

/-- The first state stands at the bottom of a stack only. -/
theorem below_eq_nil {below : List Nat} (path : table.Path (0 :: below) symbols) :
    below = [] := by
  generalize same : 0 :: below = stack at path
  cases path with
  | initial => exact (List.cons.inj same).2
  | edge _ edge => exact absurd (List.cons.inj same).1.symm (generated.target_ne_zero edge)

end Generated

end ParseTable

end CanonicalLR
