import CanonicalLR.Proofs.Canonical.Collection
import CanonicalLR.Proofs.Canonical.ValidItem
import CanonicalLR.Proofs.Table.Path

/-!
Contract: the items in the last state of a path.

Owns:
- that it holds every item that is valid behind the symbols of the path, and no
  other one when every symbol starts with some terminal;
- that there is a path along each form with a valid item;
- that without conflicts no valid items call for different actions.

Does not own: the entries that lead along a path.
-/

namespace CanonicalLR

/-- Moves lead further from more items. -/
theorem Grammar.movedOver_mono {grammar : Grammar} {set larger : Set Triple} (subset : set ⊆ larger)
    (symbol : Symbol) : grammar.movedOver set symbol ⊆ grammar.movedOver larger symbol := by
  rintro triple ⟨origin, member, behind, behindDot, rfl⟩
  exact ⟨origin, subset member, behind, behindDot, rfl⟩

theorem Grammar.HasConflict.mono {grammar : Grammar} {set larger : Set Triple}
    (subset : set ⊆ larger) (conflict : grammar.HasConflict set) :
    grammar.HasConflict larger := by
  obtain ⟨reduced, member, complete, others⟩ := conflict
  refine ⟨reduced, subset member, complete, ?_⟩
  rcases others with ⟨shifted, inSet, behindDot⟩ | ⟨other, inSet, otherComplete⟩
  · exact .inl ⟨shifted, subset inSet, behindDot⟩
  · exact .inr ⟨other, subset inSet, otherComplete⟩

namespace ParseTable

variable {policy : ConflictPolicy} {table : ParseTable} {top : Nat} {below : List Nat}
  {form : List Symbol}

namespace Path

theorem valid_subset_view (generated : table.Generated policy) (readable : table.grammar.Readable)
    (path : table.Path (top :: below) form) :
    {triple | table.grammar.Valid form triple} ⊆ table.view top := by
  generalize same : top :: below = stack at path
  induction path generalizing top below with
  | initial =>
      cases same
      rw [← Grammar.initialSet_eq]
      exact generated.closureOf_subset_view readable generated.startItems_subset_view
  | edge _ edge inductionHypothesis =>
      cases same
      rw [← Grammar.gotoOf_valid]
      apply generated.closureOf_subset_view readable
      exact (Grammar.movedOver_mono (inductionHypothesis rfl) _).trans
        (generated.movedOver_subset_view edge)

theorem view_eq (generated : table.Generated policy) (readable : table.grammar.Readable)
    (startable : table.grammar.Startable) (path : table.Path (top :: below) form) :
    table.view top = {triple | table.grammar.Valid form triple} := by
  generalize same : top :: below = stack at path
  induction path generalizing top below with
  | initial =>
      cases same
      exact (generated.view_initial readable startable).1.trans Grammar.initialSet_eq
  | @edge source target lower symbols symbol path edge inductionHypothesis =>
      cases same
      have lively := generated.lively readable startable source
      rw [(generated.view_edge readable startable edge lively).1, inductionHypothesis rfl,
        Grammar.gotoOf_valid]

theorem valid_of_records (generated : table.Generated policy) (readable : table.grammar.Readable)
    (startable : table.grammar.Startable) (path : table.Path (top :: below) form) {core : Core}
    {terminal : String} (records : table.Records top (core, some terminal)) :
    table.grammar.Valid form (core.triple terminal) := by
  have inView := mem_view_of_records records
  rwa [path.view_eq generated readable startable] at inView

/-- Some item is valid behind the symbols of each path: the last one was moved over. -/
theorem exists_valid (generated : table.Generated policy) (readable : table.grammar.Readable)
    (startable : table.grammar.Startable) (path : table.Path (top :: below) form) :
    ∃ triple, table.grammar.Valid form triple := by
  cases path with
  | initial =>
      obtain ⟨index, production, _, started, -⟩ := generated.initial
      exact ⟨⟨index, 0, table.grammar.endMarker⟩, .start ⟨production, started, rfl, rfl⟩⟩
  | edge path edge =>
      obtain ⟨core, terminal, moved⟩ := generated.exists_moved readable startable edge
      exact ⟨_, (path.edge edge).valid_of_records generated readable startable moved⟩

end Path

namespace Generated

variable (generated : table.Generated policy) (readable : table.grammar.Readable)

include generated readable

theorem exists_path_of_valid {triple : Triple} (valid : table.grammar.Valid form triple) :
    ∃ top below, table.Path (top :: below) form := by
  induction valid with
  | start => exact ⟨0, [], .initial⟩
  | advance valid behindDot inductionHypothesis =>
      obtain ⟨top, below, path⟩ := inductionHypothesis
      obtain ⟨core, records, same⟩ := mem_view.1 (path.valid_subset_view generated readable valid)
      have drop := (generated.fits_of_records records).1.drop_eq same behindDot
      obtain ⟨target, edge⟩ := generated.edge_of_records records (Core.next?_of_drop drop)
      exact ⟨target, top :: below, path.edge edge⟩
  | call _ _ _ _ inductionHypothesis => exact inductionHypothesis

/-- Without conflicts in the table there is none among valid items: they all stand
in the state at the end of one path. -/
theorem not_hasConflict_valid (none : table.conflicts = []) (form : List Symbol) :
    ¬ table.grammar.HasConflict {triple | table.grammar.Valid form triple} := by
  intro conflict
  have ⟨reduced, valid, _⟩ := conflict
  obtain ⟨top, below, path⟩ := generated.exists_path_of_valid readable valid
  have inView := conflict.mono (path.valid_subset_view generated readable)
  exact generated.conflicts_ne_nil_of_hasConflict inView none

end Generated

end ParseTable

end CanonicalLR
