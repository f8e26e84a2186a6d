import CanonicalLR.Table.Construction

/-!
Contract: the search for an equal state.

Owns:
- the invariant of the numbers and of the buckets of states;
- that both ways to search find exactly the state with the wanted kernel and
  items;
- what interning a state keeps and adds.

Does not own: which states are interned.
-/

namespace CanonicalLR

theorem State.isSame_iff {state : State} {kernel : Item} {items : ItemSet} :
    state.isSame kernel items = true ↔ state.kernel = kernel ∧ state.items = items := by
  simp [State.isSame]

namespace Construction

/-- States carry their own numbers, no two have equal kernels and items, and each
bucket lists the states with its hash. -/
structure Indexed (lookup : StateLookup) (construction : Construction) : Prop where
  id_eq : ∀ (id : Nat) (state : State), construction.states[id]? = some state → state.id = id
  distinct : ∀ (left right : Nat) (leftState rightState : State),
    construction.states[left]? = some leftState → construction.states[right]? = some rightState →
    leftState.kernel = rightState.kernel → leftState.items = rightState.items → left = right
  listed : ∀ hash, lookup = .hashed hash → ∀ (key : UInt64) (id : Nat),
    id ∈ construction.buckets.getD key [] ↔
      ∃ state, construction.states[id]? = some state ∧ hash state.kernel state.items = key

/-- Later states come behind the earlier ones, and completed rows stay. -/
structure Extends (before after : Construction) : Prop where
  keeps : ∀ (id : Nat) (state : State), before.states[id]? = some state →
    after.states[id]? = some state
  size_le : before.states.size ≤ after.states.size
  rows_eq : after.rows = before.rows
  conflicts_eq : after.conflicts = before.conflicts

theorem Extends.refl (construction : Construction) : Extends construction construction :=
  ⟨fun _ _ found => found, Nat.le_refl _, rfl, rfl⟩

theorem Extends.trans {first second third : Construction} (firstExtends : Extends first second)
    (secondExtends : Extends second third) : Extends first third where
  keeps id state found := secondExtends.keeps id state (firstExtends.keeps id state found)
  size_le := Nat.le_trans firstExtends.size_le secondExtends.size_le
  rows_eq := secondExtends.rows_eq.trans firstExtends.rows_eq
  conflicts_eq := secondExtends.conflicts_eq.trans firstExtends.conflicts_eq

variable {lookup : StateLookup} {construction : Construction} {kernel : Item} {items : ItemSet}

theorem empty_indexed (lookup : StateLookup) : Indexed lookup empty where
  id_eq := by simp [empty]
  distinct := by simp [empty]
  listed := by simp [empty]

/-! ### Search -/

private theorem isSame_of_find? {id : Nat}
    (found : construction.find? lookup kernel items = some id) :
    ∃ state, construction.states[id]? = some state ∧ state.isSame kernel items = true := by
  unfold find? at found
  cases lookup with
  | scan =>
      obtain ⟨inRange, same, -⟩ := List.findIdx?_eq_some_iff_getElem.1 found
      refine ⟨_, ?_, same⟩
      rw [← Array.getElem?_toList, List.getElem?_eq_getElem inRange]
  | hashed hash =>
      have same := List.find?_some found
      cases present : construction.states[id]? with
      | none => simp [present] at same
      | some state =>
          rw [present, Option.any_some] at same
          exact ⟨state, rfl, same⟩

private theorem not_isSame_of_find? (indexed : Indexed lookup construction)
    (absent : construction.find? lookup kernel items = none) {id : Nat} {state : State}
    (present : construction.states[id]? = some state) : ¬ state.isSame kernel items = true := by
  unfold find? at absent
  cases lookup with
  | scan =>
      have member : state ∈ construction.states.toList := by
        rw [← Array.getElem?_toList] at present
        exact List.mem_of_getElem? present
      have := List.findIdx?_eq_none_iff.1 absent state member
      simpa using this
  | hashed hash =>
      intro same
      have ⟨sameKernel, sameItems⟩ := State.isSame_iff.1 same
      have inBucket := (indexed.listed hash rfl (hash kernel items) id).2
        ⟨state, present, by rw [sameKernel, sameItems]⟩
      have := List.find?_eq_none.1 absent id inBucket
      rw [present, Option.any_some] at this
      exact this same

/-- The search finds the state with the wanted kernel and items, whether it looks
at all states or at those of one hash. -/
theorem find?_eq_some_iff (indexed : Indexed lookup construction) {id : Nat} :
    construction.find? lookup kernel items = some id ↔
      construction.states[id]? = some ⟨id, kernel, items⟩ := by
  constructor
  · intro found
    obtain ⟨state, present, same⟩ := isSame_of_find? found
    have ⟨sameKernel, sameItems⟩ := State.isSame_iff.1 same
    have sameId := indexed.id_eq id state present
    cases state
    simp only at sameKernel sameItems sameId
    rw [present, sameKernel, sameItems, sameId]
  · intro present
    cases found : construction.find? lookup kernel items with
    | none =>
        exact absurd (State.isSame_iff.2 ⟨rfl, rfl⟩) (not_isSame_of_find? indexed found present)
    | some other =>
        obtain ⟨state, otherPresent, same⟩ := isSame_of_find? found
        have ⟨sameKernel, sameItems⟩ := State.isSame_iff.1 same
        rw [indexed.distinct other id state _ otherPresent present sameKernel sameItems]

/-! ### Interning -/

theorem getElem?_addState {id : Nat} :
    (construction.addState lookup kernel items).states[id]? =
      if id = construction.states.size then some ⟨id, kernel, items⟩
      else construction.states[id]? := by
  show (construction.states.push _)[id]? = _
  rw [Array.getElem?_push]
  split
  case isTrue same => rw [same]
  case isFalse => rfl

theorem getD_buckets_addState (hash : Item → ItemSet → UInt64) (key : UInt64) :
    (construction.addState (.hashed hash) kernel items).buckets.getD key [] =
      if hash kernel items = key then
        construction.buckets.getD key [] ++ [construction.states.size]
      else construction.buckets.getD key [] := by
  show (construction.buckets.insert _ _).getD key [] = _
  rw [Std.HashMap.getD_insert]
  by_cases same : hash kernel items = key
  · simp [same]
  · simp [same]

private theorem addState_indexed (indexed : Indexed lookup construction)
    (absent : construction.find? lookup kernel items = none) :
    Indexed lookup (construction.addState lookup kernel items) where
  id_eq := by
    intro id state present
    rw [getElem?_addState] at present
    split at present
    · cases present
      rfl
    · exact indexed.id_eq id state present
  distinct := by
    intro left right leftState rightState leftPresent rightPresent sameKernel sameItems
    have different : ∀ {id : Nat} {state : State}, construction.states[id]? = some state →
        ¬ (state.kernel = kernel ∧ state.items = items) := fun present =>
      mt State.isSame_iff.2 (not_isSame_of_find? indexed absent present)
    rw [getElem?_addState] at leftPresent rightPresent
    split at leftPresent <;> split at rightPresent
    case isTrue.isTrue leftNew rightNew => rw [leftNew, rightNew]
    case isTrue.isFalse =>
      cases leftPresent
      exact absurd ⟨sameKernel.symm, sameItems.symm⟩ (different rightPresent)
    case isFalse.isTrue =>
      cases rightPresent
      exact absurd ⟨sameKernel, sameItems⟩ (different leftPresent)
    case isFalse.isFalse =>
      exact indexed.distinct left right _ _ leftPresent rightPresent sameKernel sameItems
  listed := by
    intro hash hashed key id
    subst hashed
    have fresh : construction.states[construction.states.size]? = none :=
      Array.getElem?_eq_none (Nat.le_refl _)
    rw [getD_buckets_addState, getElem?_addState]
    have before := indexed.listed hash rfl key id
    by_cases isNew : id = construction.states.size
    · subst isNew
      rw [fresh] at before
      simp only [if_true, Option.some.injEq, exists_eq_left']
      by_cases same : hash kernel items = key <;> simp_all
    · simp only [isNew, if_false, ← before]
      by_cases same : hash kernel items = key <;> simp [same, isNew]

/-- Interning gives the number of the wanted state; only that state can be new. -/
theorem intern_spec (indexed : Indexed lookup construction) {id : Nat} {final : Construction}
    (interned : construction.intern lookup kernel items = (id, final)) :
    Indexed lookup final ∧ Extends construction final ∧
      final.states[id]? = some ⟨id, kernel, items⟩ ∧
      ∀ other, construction.states.size ≤ other → other < final.states.size → other = id := by
  unfold intern at interned
  split at interned
  case h_1 number found =>
    cases interned
    refine ⟨indexed, .refl construction, (find?_eq_some_iff indexed).1 found, ?_⟩
    intro other atLeast below
    omega
  case h_2 absent =>
    cases interned
    have size : (construction.addState lookup kernel items).states.size =
        construction.states.size + 1 := Array.size_push _
    refine ⟨addState_indexed indexed absent, ⟨?_, by omega, rfl, rfl⟩, ?_, ?_⟩
    · intro id state present
      have inRange := (Array.getElem?_eq_some_iff.1 present).1
      rw [getElem?_addState, if_neg (by omega), present]
    · rw [getElem?_addState, if_pos rfl]
    · intro other atLeast below
      omega

end Construction

end CanonicalLR
