import CanonicalLR.Proofs.Table.Successor

/-!
Contract: what tells the states of a table apart.

Owns:
- that the items alone determine a state, the first one included;
- that every other kernel is the least of the items whose dot has moved, so that to compare
  kernels as well separates no states;
- that the first state is the only one with the dot of its kernel in front, and that nothing
  leads to it.

Does not own: how an equal state is looked for.
-/

namespace CanonicalLR

/-- The order of the kernel among the moved items, as the order of items. -/
theorem IsKernel.isLE {items : ItemSet} {kernel item : Item} (isKernel : IsKernel items kernel)
    (member : item ∈ items) (moved : 0 < item.dot) : (compare kernel item).isLE = true := by
  rcases isKernel.first item member moved with rfl | before
  · rw [Std.ReflOrd.compare_self]
    rfl
  · show ((compare kernel.toCore item.toCore).then _).isLE = true
    rw [before]
    rfl

namespace ParseTable

/-- The states of the table are told apart by their items; that their kernels are compared as
well makes no difference. -/
structure Identified (table : ParseTable) : Prop where
  id_eq : ∀ (id : Nat) (state : State), table.states[id]? = some state → state.id = id
  eq_of_items_eq : ∀ (left right : Nat) (leftState rightState : State),
    table.states[left]? = some leftState → table.states[right]? = some rightState →
    leftState.items = rightState.items → left = right
  kernel_mem : ∀ (id : Nat) (state : State), table.states[id]? = some state → 0 < id →
    state.kernel ∈ state.items
  kernel_least : ∀ (id : Nat) (state : State), table.states[id]? = some state → 0 < id →
    ∀ item ∈ state.items, 0 < item.dot → (compare state.kernel item).isLE = true
  kernel_dot_eq_zero_iff : ∀ (id : Nat) (state : State), table.states[id]? = some state →
    (state.kernel.dot = 0 ↔ id = 0)
  isSame_of_items_eq : ∀ (source other : Nat) (state otherState : State)
    (transition : Transition) (items : ItemSet), table.states[source]? = some state →
    transition ∈ state.items.transitions →
    close table.grammar table.sets transition.seeds = .ok items →
    table.states[other]? = some otherState → otherState.items = items →
    otherState.isSame transition.kernel items = true
  goto_ne_zero : ∀ id name, table.goto? id name ≠ some 0
  shift_ne_zero : ∀ id terminal, ¬ table.Shifts id terminal 0

variable {policy : ConflictPolicy} {grammar : Grammar} {table : ParseTable}

namespace Generated

variable (generated : table.Generated policy) {id : Nat} {state : State}

include generated

theorem id_eq (present : table.states[id]? = some state) : state.id = id := by
  rcases Nat.eq_zero_or_pos id with rfl | positive
  · obtain ⟨_, _, _, -, -, initial⟩ := generated.initial
    cases present.symm.trans initial
    rfl
  · obtain ⟨source, -, symbol, edge⟩ :=
      generated.reached id positive (Array.getElem?_eq_some_iff.1 present).1
    obtain ⟨_, _, _, -, -, -, target⟩ := edge
    cases present.symm.trans target
    rfl

theorem kernel_dot_eq_zero_iff (present : table.states[id]? = some state) :
    state.kernel.dot = 0 ↔ id = 0 := by
  constructor
  · intro inFront
    by_contra notFirst
    have moved := (generated.isKernel (Nat.pos_of_ne_zero notFirst) present).moved
    exact Nat.ne_of_gt moved inFront
  · rintro rfl
    obtain ⟨_, _, _, -, -, initial⟩ := generated.initial
    cases present.symm.trans initial
    rfl

/-- The search for a state with the kernel of a transition and the items that it closes to
finds whichever state has the items. -/
theorem isSame_of_items_eq {other : Nat} {otherState : State} {transition : Transition}
    {items : ItemSet} (present : table.states[id]? = some state)
    (member : transition ∈ state.items.transitions)
    (closed : close table.grammar table.sets transition.seeds = .ok items)
    (otherPresent : table.states[other]? = some otherState) (same : otherState.items = items) :
    otherState.isSame transition.kernel items = true := by
  have found := ItemSet.mem_transitions.1 member
  have awaited : ∃ item ∈ state.items, item.next? = some transition.symbol := by
    by_contra none
    push Not at none
    rw [ItemSet.transition?_eq_none.2 none] at found
    contradiction
  obtain ⟨item, inItems, next⟩ := awaited
  obtain ⟨target, source, _, _, sourcePresent, foundToo, closedToo, targetPresent⟩ :=
    generated.exists_edge id state item transition.symbol present inItems next
  cases present.symm.trans sourcePresent
  cases found.symm.trans foundToo
  cases closed.symm.trans closedToo
  have sameNumber := generated.eq_of_items_eq otherPresent targetPresent same
  rw [sameNumber, targetPresent] at otherPresent
  cases otherPresent
  exact State.isSame_iff.2 ⟨rfl, rfl⟩

end Generated

/-- In every table the items determine the state, whatever the kernels are. -/
theorem identified_of_generate (generation : generate policy grammar = .ok table) :
    table.Identified := by
  have generated := (generated_of_generateWith generation).2
  exact {
    id_eq := fun _ _ => generated.id_eq
    eq_of_items_eq := fun _ _ _ _ => generated.eq_of_items_eq
    kernel_mem := fun _ _ present positive => (generated.isKernel positive present).member
    kernel_least := fun _ _ present positive _ => (generated.isKernel positive present).isLE
    kernel_dot_eq_zero_iff := fun _ _ => generated.kernel_dot_eq_zero_iff
    isSame_of_items_eq := fun _ _ _ _ _ _ => generated.isSame_of_items_eq
    goto_ne_zero := fun _ _ entry =>
      generated.target_ne_zero ((generated.goto?_eq_some _ _ _).1 entry) rfl
    shift_ne_zero := fun _ _ shifts =>
      generated.target_ne_zero (generated.edge_of_shifts shifts) rfl }

/-- The states of the sample made by hand, the one behind its lost shift included. -/
theorem identified_of_generate_optional :
    ∃ table, generate .report Grammar.optional = .ok table ∧ table.Identified := by
  obtain ⟨table, generation, -⟩ := exists_generate_optional
  exact ⟨table, generation, identified_of_generate generation⟩

end ParseTable

end CanonicalLR
