import CanonicalLR.Proofs.Table.Edge

/-!
Contract: the kernels of states.

Owns:
- that moving the dot keeps the order of items;
- that the items of a state whose dot has moved are those it was entered with;
- that the kernel is the first of them, so the items of a state determine it, and with
  it the state.

Does not own: the kernel of the first state, whose dot is in front.
-/

namespace CanonicalLR

theorem Core.compare_advance (left right : Core) :
    compare left.advance right.advance = compare left right := by
  have dots : compare (left.dot + 1) (right.dot + 1) = compare left.dot right.dot := by
    simp only [Nat.compare_eq_ite_lt, Nat.add_lt_add_iff_right]
  show ((compare left.production right.production).then (compare left.lhs right.lhs)).then
      ((compare left.rhs right.rhs).then (compare (left.dot + 1) (right.dot + 1))) = _
  rw [dots]
  rfl

theorem ItemSet.advancedOver_ascending (set : ItemSet) (symbol : Symbol) :
    Ascending Item.toCore (set.advancedOver symbol) := by
  unfold advancedOver Ascending
  rw [List.pairwise_map]
  refine (set.ascending.filter _).imp fun {earlier later} before => ?_
  show compare earlier.toCore.advance later.toCore.advance = .lt
  rw [Core.compare_advance]
  exact before

theorem Ascending.eq_of_key_eq {Entry Key : Type} [Ord Key] [Std.TransOrd Key]
    [Std.LawfulEqOrd Key] {key : Entry → Key} {entries : List Entry}
    (ascending : Ascending key entries) {left right : Entry} (leftMember : left ∈ entries)
    (rightMember : right ∈ entries) (same : key left = key right) : left = right := by
  have leftFound := (find?_eq_some_iff ascending).2 ⟨leftMember, rfl⟩
  have rightFound := (find?_eq_some_iff ascending).2 ⟨rightMember, same.symm⟩
  exact Option.some.inj (leftFound.symm.trans rightFound)

/-- The first of the items whose dot has moved. -/
structure IsKernel (items : ItemSet) (kernel : Item) : Prop where
  member : kernel ∈ items
  moved : 0 < kernel.dot
  first : ∀ item ∈ items, 0 < item.dot →
    item = kernel ∨ compare kernel.toCore item.toCore = .lt

theorem IsKernel.unique {items : ItemSet} {left right : Item} (leftKernel : IsKernel items left)
    (rightKernel : IsKernel items right) : left = right := by
  rcases leftKernel.first right rightKernel.member rightKernel.moved with same | leftBefore
  · exact same.symm
  rcases rightKernel.first left leftKernel.member leftKernel.moved with same | rightBefore
  · exact same
  rw [Std.OrientedOrd.eq_swap, leftBefore] at rightBefore
  contradiction

/-! ### Closing items whose dot has moved -/

section Close

open Closure

variable {grammar : Grammar} {sets : Sets} {seeds : List Item} {set : ItemSet}

private theorem records_moved (closed : close grammar sets seeds = .ok set) {fact : Fact}
    (moved : 0 < fact.1.dot) : set.Records fact ↔ ∃ seed ∈ seeds, seed.Records fact := by
  rw [records_close closed]
  constructor
  · rintro ⟨seed, member, origin, records, path⟩
    rcases eq_or_dot_eq_zero path with same | atStart
    · exact ⟨seed, member, same ▸ records⟩
    · omega
  · rintro ⟨seed, member, records⟩
    exact .of_seed member records

private theorem mem_seeds_of_moved (closed : close grammar sets seeds = .ok set)
    (ascending : Ascending Item.toCore seeds) {item : Item} (member : item ∈ set)
    (moved : 0 < item.dot) : item ∈ seeds := by
  obtain ⟨seed, inSeeds, sameCore, -⟩ :=
    (records_moved closed moved).1 ⟨item, member, item.records_core⟩
  have sameLookahead : item.lookahead = seed.lookahead := by
    ext terminal
    have inSet : set.Records (item.toCore, some terminal) ↔ terminal ∈ item.lookahead := by
      rw [ItemSet.records_of_mem member rfl, Item.records_some]
      simp
    rw [← inSet, records_moved closed moved]
    constructor
    · rintro ⟨origin, originMember, originRecords⟩
      obtain ⟨sameOrigin, inOrigin⟩ := Item.records_some.1 originRecords
      rwa [ascending.eq_of_key_eq inSeeds originMember (sameCore.trans sameOrigin.symm)]
    · intro inSeed
      exact ⟨seed, inSeeds, Item.records_some.2 ⟨sameCore, inSeed⟩⟩
  rwa [← Item.eq_of_core_eq sameCore sameLookahead.symm]

/-- Closing seeds with different cores changes no item whose dot has moved. -/
theorem mem_close_of_moved (closed : close grammar sets seeds = .ok set)
    (ascending : Ascending Item.toCore seeds) {item : Item} (moved : 0 < item.dot) :
    item ∈ set ↔ item ∈ seeds := by
  constructor
  · exact fun member => mem_seeds_of_moved closed ascending member moved
  · intro member
    have recorded : set.Records (item.toCore, none) :=
      (records_moved closed moved).2 ⟨item, member, item.records_core⟩
    obtain ⟨other, otherMember, same, -⟩ := recorded
    have otherMoved : 0 < other.dot := by
      rw [same]
      exact moved
    have otherSeed := mem_seeds_of_moved closed ascending otherMember otherMoved
    rwa [ascending.eq_of_key_eq member otherSeed same.symm]

end Close

namespace ParseTable

variable {policy : ConflictPolicy} {table : ParseTable}

theorem Edge.isKernel {source target : Nat} {symbol : Symbol}
    (edge : table.Edge source symbol target) {state : State}
    (present : table.states[target]? = some state) : IsKernel state.items state.kernel := by
  obtain ⟨origin, transition, items, -, found, closed, targetPresent⟩ := edge
  have sameState := Option.some.inj (present.symm.trans targetPresent)
  subst sameState
  have seeds := (ItemSet.transition?_eq_some found).2
  have ascending : Ascending Item.toCore transition.seeds :=
    seeds ▸ origin.items.advancedOver_ascending symbol
  have moved : ∀ seed ∈ transition.seeds, 0 < seed.dot := by
    rw [seeds]
    intro seed member
    obtain ⟨item, -, -, rfl⟩ := ItemSet.mem_advancedOver.1 member
    exact Nat.succ_pos item.dot
  have kernelMoved := moved transition.kernel List.mem_cons_self
  refine ⟨(mem_close_of_moved closed ascending kernelMoved).2 List.mem_cons_self, kernelMoved, ?_⟩
  intro item member itemMoved
  rcases List.mem_cons.1 ((mem_close_of_moved closed ascending itemMoved).1 member) with
    same | inOthers
  · exact .inl same
  · exact .inr ((List.pairwise_cons.1 ascending).1 item inOthers)

namespace Generated

variable (generated : table.Generated policy) {left right id : Nat}
  {leftState rightState state first : State}

include generated

theorem isKernel (positive : 0 < id) (present : table.states[id]? = some state) :
    IsKernel state.items state.kernel := by
  obtain ⟨source, -, symbol, edge⟩ :=
    generated.reached id positive (Array.getElem?_eq_some_iff.1 present).1
  exact edge.isKernel present

/-- No other state has the items of the first one: there no dot has moved. -/
private theorem initial_items_ne (positive : 0 < id) (present : table.states[id]? = some state)
    (firstPresent : table.states[0]? = some first) : first.items ≠ state.items := by
  intro same
  have isKernel := generated.isKernel positive present
  have inFirst : table.Records 0 (state.kernel.toCore, none) :=
    ⟨first, firstPresent, state.kernel, same ▸ isKernel.member, Item.records_core _⟩
  exact Nat.ne_of_gt isKernel.moved (generated.initial_dot inFirst)

/-- States with equal items are the same state. -/
theorem eq_of_items_eq (leftPresent : table.states[left]? = some leftState)
    (rightPresent : table.states[right]? = some rightState)
    (same : leftState.items = rightState.items) : left = right := by
  rcases Nat.eq_zero_or_pos left with rfl | leftPositive
  · rcases Nat.eq_zero_or_pos right with rfl | rightPositive
    · rfl
    · exact absurd same (generated.initial_items_ne rightPositive rightPresent leftPresent)
  · rcases Nat.eq_zero_or_pos right with rfl | rightPositive
    · exact absurd same.symm (generated.initial_items_ne leftPositive leftPresent rightPresent)
    · have leftKernel := generated.isKernel leftPositive leftPresent
      have rightKernel := generated.isKernel rightPositive rightPresent
      have sameKernel : leftState.kernel = rightState.kernel :=
        (same ▸ leftKernel).unique rightKernel
      exact generated.distinct _ _ _ _ leftPresent rightPresent sameKernel same

end Generated

end ParseTable

end CanonicalLR
