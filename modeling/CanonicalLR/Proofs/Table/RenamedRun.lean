import CanonicalLR.Proofs.Table.RenamedState
import CanonicalLR.Proofs.Table.Termination

/-!
Contract: the construction of an automaton over a renamed grammar, step by step.

Owns:
- when two constructions have the same states up to the names;
- that interning, following transitions and completing a state keep them so;
- that whole runs do, whatever limits the two grammars come with.

Does not own: the order in which the terminals of one lookahead are written to a row.
-/

namespace CanonicalLR

namespace Construction

/-- State by state both constructions have the same kernels and items, up to the names, and
equally many states are complete. -/
structure Mirrors (rename : Renaming) (source : Grammar) (lookup : StateLookup)
    (construction other : Construction) : Prop where
  indexed : Indexed lookup construction
  indexedToo : Indexed lookup other
  fits : ∀ (id : Nat) (state : State), construction.states[id]? = some state →
    state.kernel.Fits source ∧ state.items.Fits source
  size_eq : other.states.size = construction.states.size
  rows_size_eq : other.rows.size = construction.rows.size
  exists_state : ∀ (id : Nat) (state : State), construction.states[id]? = some state →
    ∃ image, other.states[id]? = some image ∧ rename.SameState state image

namespace Mirrors

variable {rename : Renaming} {source target : Grammar} {lookup : StateLookup}
  {construction other : Construction}

theorem empty (rename : Renaming) (source : Grammar) (lookup : StateLookup) :
    Mirrors rename source lookup .empty .empty where
  indexed := empty_indexed lookup
  indexedToo := empty_indexed lookup
  fits := by simp [Construction.empty]
  size_eq := rfl
  rows_size_eq := rfl
  exists_state := by simp [Construction.empty]

variable (mirrors : Mirrors rename source lookup construction other)

include mirrors

section Intern

variable (renames : Renames rename source target) {kernel : Item} {items image : ItemSet}
  (kernelFits : kernel.Fits source) (itemsFit : items.Fits source)
  (same : rename.SameItems items image)

include renames kernelFits itemsFit same

/-- The states with the wanted kernel and items have the same numbers. -/
theorem find?_eq : other.find? lookup (rename.item kernel) image =
    construction.find? lookup kernel items := by
  ext id
  rw [find?_eq_some_iff mirrors.indexedToo, find?_eq_some_iff mirrors.indexed]
  constructor
  · intro present
    obtain ⟨state, found, sameId, sameKernel, sameItems⟩ :=
      Renaming.exists_state_of_image mirrors.size_eq mirrors.exists_state present
    obtain ⟨foundFits, foundItemsFit⟩ := mirrors.fits id state found
    cases state
    cases sameId
    cases renames.item_injOn kernelFits foundFits sameKernel
    cases renames.sameItems_injective itemsFit foundItemsFit same sameItems
    exact found
  · intro present
    obtain ⟨state, found, sameId, sameKernel, sameItems⟩ := mirrors.exists_state id _ present
    cases state
    cases sameId
    cases sameKernel
    cases same.unique sameItems
    exact found

/-- A state and its image get the same number, whether they are new or not. -/
theorem intern : ∃ id extended otherExtended,
    construction.intern lookup kernel items = (id, extended) ∧
    other.intern lookup (rename.item kernel) image = (id, otherExtended) ∧
    Mirrors rename source lookup extended otherExtended := by
  have sameSearch := mirrors.find?_eq renames kernelFits itemsFit same
  unfold Construction.intern
  rw [sameSearch]
  cases found : construction.find? lookup kernel items with
  | some id => exact ⟨id, construction, other, rfl, rfl, mirrors⟩
  | none =>
      have interned : construction.intern lookup kernel items =
          (construction.states.size, construction.addState lookup kernel items) := by
        rw [Construction.intern, found]
      have internedToo : other.intern lookup (rename.item kernel) image =
          (other.states.size, other.addState lookup (rename.item kernel) image) := by
        rw [Construction.intern, sameSearch, found]
      refine ⟨construction.states.size, _, _, rfl, by rw [mirrors.size_eq], ?_⟩
      refine ⟨(intern_spec mirrors.indexed interned).1,
        (intern_spec mirrors.indexedToo internedToo).1, ?_, ?_, mirrors.rows_size_eq, ?_⟩
      · intro id state present
        rw [getElem?_addState] at present
        split at present
        · cases present
          exact ⟨kernelFits, itemsFit⟩
        · exact mirrors.fits id state present
      · show (other.states.push _).size = (construction.states.push _).size
        rw [Array.size_push, Array.size_push, mirrors.size_eq]
      · intro id state present
        rw [getElem?_addState] at present ⊢
        rw [mirrors.size_eq]
        split at present
        case isTrue isNew =>
          cases present
          rw [if_pos isNew]
          exact ⟨_, rfl, rfl, rfl, same⟩
        case isFalse isOld =>
          rw [if_neg isOld]
          exact mirrors.exists_state id state present

end Intern

/-- Transitions that are the same up to the names lead to states with the same numbers. -/
theorem follow (renames : Renames rename source target) {transitions : List Transition}
    {targets : List (Symbol × Nat)} {final : Construction}
    (seedsFit : ∀ transition ∈ transitions, ∀ seed ∈ transition.seeds, seed.Fits source)
    (followed : construction.follow lookup (close source (Sets.ofGrammar source)) transitions =
      .ok (targets, final)) :
    ∃ otherTargets otherFinal,
      other.follow lookup (close target (Sets.ofGrammar target))
        (transitions.map rename.transition) = .ok (otherTargets, otherFinal) ∧
      Mirrors rename source lookup final otherFinal := by
  induction transitions generalizing construction other targets with
  | nil =>
      cases followed
      exact ⟨[], other, rfl, mirrors⟩
  | cons transition rest inductionHypothesis =>
      rw [List.forall_mem_cons] at seedsFit
      obtain ⟨items, closed, followedRest⟩ := bind_eq_ok.1 followed
      obtain ⟨image, closedToo, same⟩ := renames.exists_close seedsFit.1 closed
      obtain ⟨id, extended, otherExtended, interned, internedToo, extendedMirrors⟩ :=
        mirrors.intern renames (seedsFit.1 _ List.mem_cons_self)
          (fits_of_close closed seedsFit.1) same
      rw [interned] at followedRest
      obtain ⟨⟨restTargets, restFinal⟩, followedOthers, isFinal⟩ := bind_eq_ok.1 followedRest
      cases isFinal
      obtain ⟨otherTargets, otherFinal, followedToo, finalMirrors⟩ :=
        inductionHypothesis extendedMirrors seedsFit.2 followedOthers
      have closedSeeds : close target (Sets.ofGrammar target) (rename.transition transition).seeds =
          .ok image := closedToo
      have internedKernel : other.intern lookup (rename.transition transition).kernel image =
          (id, otherExtended) := internedToo
      refine ⟨(rename.symbol transition.symbol, id) :: otherTargets, otherFinal, ?_, finalMirrors⟩
      simp only [List.map_cons, Construction.follow, closedSeeds, internedKernel, followedToo, bind,
        Except.bind, pure, Except.pure]
      rfl

theorem complete (renames : Renames rename source target) {state image : State}
    {extended : Construction} (itemsFit : state.items.Fits source)
    (same : rename.SameState state image)
    (completed : construction.complete lookup .report (close source (Sets.ofGrammar source))
      state = .ok extended) :
    ∃ otherExtended,
      other.complete lookup .report (close target (Sets.ofGrammar target)) image =
        .ok otherExtended ∧
      Mirrors rename source lookup extended otherExtended := by
  obtain ⟨⟨targets, followed⟩, isFollowed, writing⟩ := bind_eq_ok.1 completed
  obtain ⟨_, -, isExtended⟩ := bind_eq_ok.1 writing
  cases isExtended
  obtain ⟨otherTargets, otherFollowed, isFollowedToo, followedMirrors⟩ :=
    mirrors.follow renames (fun _ member => itemsFit.seeds member) isFollowed
  rw [← renames.transitions_eq itemsFit same.items_eq] at isFollowedToo
  obtain ⟨written, isWritten⟩ := exists_writeActions_report image.id ∅
    (image.items.reductions ++ shiftsOf otherTargets)
  refine ⟨_, bind_eq_ok.2 ⟨_, isFollowedToo, bind_eq_ok.2 ⟨written, isWritten, rfl⟩⟩, ?_⟩
  obtain ⟨⟨id_eq, distinct, listed⟩, ⟨id_eq', distinct', listed'⟩, fits, size_eq, rows_size_eq,
    exists_state⟩ := followedMirrors
  refine ⟨⟨id_eq, distinct, listed⟩, ⟨id_eq', distinct', listed'⟩, fits, size_eq, ?_, exists_state⟩
  show (otherFollowed.rows.push _).size = (followed.rows.push _).size
  rw [Array.size_push, Array.size_push, rows_size_eq]

/-- Under the policy `report` two such runs go on alike, and none fails alone. -/
theorem run (renames : Renames rename source target) {limit : Nat} {final : Construction}
    (ran : Construction.run lookup .report (close source (Sets.ofGrammar source)) limit
      construction = .ok final) :
    ∃ otherFinal,
      Construction.run lookup .report (close target (Sets.ofGrammar target)) limit other =
        .ok otherFinal ∧
      Mirrors rename source lookup final otherFinal := by
  induction limit generalizing construction other with
  | zero =>
      cases ran
      exact ⟨other, rfl, mirrors⟩
  | succ limit inductionHypothesis =>
      cases waits : construction.states[construction.rows.size]? with
      | none =>
          rw [run_of_noneWaits waits] at ran
          cases ran
          refine ⟨other, run_of_noneWaits ?_ _, mirrors⟩
          rw [Array.getElem?_eq_none_iff] at waits ⊢
          rwa [mirrors.size_eq, mirrors.rows_size_eq]
      | some state =>
          obtain ⟨image, presentToo, same⟩ := mirrors.exists_state _ state waits
          rw [← mirrors.rows_size_eq] at presentToo
          rw [run_succ_of_waits waits] at ran
          rw [run_succ_of_waits presentToo]
          obtain ⟨extended, completed, ranRest⟩ := bind_eq_ok.1 ran
          obtain ⟨otherExtended, completedToo, extendedMirrors⟩ :=
            mirrors.complete renames (mirrors.fits _ state waits).2 same completed
          obtain ⟨otherFinal, ranToo, finalMirrors⟩ :=
            inductionHypothesis extendedMirrors ranRest
          exact ⟨otherFinal, bind_eq_ok.2 ⟨otherExtended, completedToo, ranToo⟩, finalMirrors⟩

end Mirrors

/-! ### The first state -/

theorem intern_empty (lookup : StateLookup) (kernel : Item) (items : ItemSet) :
    empty.intern lookup kernel items = (0, empty.addState lookup kernel items) := by
  have absent : empty.find? lookup kernel items = none := by
    cases lookup <;> simp [find?, empty]
  rw [intern, absent]
  rfl

/-- The two grammars begin in the same state, up to the names. -/
theorem exists_initial_mirrors {rename : Renaming} {source target : Grammar}
    (renames : Renames rename source target) {lookup : StateLookup} {index : Nat}
    {production : Production} {first : Construction}
    (started : source.startProduction? = some (index, production))
    (begun : initial lookup (close source (Sets.ofGrammar source))
      (.start index production {source.endMarker}) = .ok first) :
    ∃ otherFirst,
      initial lookup (close target (Sets.ofGrammar target))
        (.start index (rename.production production) {target.endMarker}) = .ok otherFirst ∧
      Mirrors rename source lookup first otherFirst := by
  have seedsFit := ParseTable.startSeeds_fit started
  have sameKernel : rename.item (.start index production {source.endMarker}) =
      .start index (rename.production production) {target.endMarker} := by
    refine Item.eq_of_core_eq rfl ?_
    ext name
    show name ∈ rename.names {source.endMarker} ↔ name ∈ ({target.endMarker} : NameSet)
    simp [renames.endMarker_eq, eq_comm]
  obtain ⟨items, closed, isFirst⟩ := bind_eq_ok.1 begun
  cases isFirst
  obtain ⟨image, closedToo, same⟩ := renames.exists_close seedsFit closed
  obtain ⟨id, extended, otherExtended, interned, internedToo, mirrors⟩ :=
    (Mirrors.empty rename source lookup).intern renames (seedsFit _ (List.mem_singleton_self _))
      (fits_of_close closed seedsFit) same
  rw [List.map_singleton, sameKernel] at closedToo
  rw [intern_empty] at interned internedToo
  cases interned
  cases internedToo
  rw [sameKernel] at mirrors
  exact ⟨_, bind_eq_ok.2 ⟨image, closedToo, rfl⟩, mirrors⟩

end Construction

end CanonicalLR
