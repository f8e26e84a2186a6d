import CanonicalLR.Proofs.Canonical.Textbook
import CanonicalLR.Proofs.Table.Kernel

/-!
Contract: the states of a table as sets of items with one terminal each.

Owns:
- the set that a state stands for;
- that lookaheads are never empty when every symbol starts with some terminal;
- that the first state stands for the initial set and each transition for a move.

Does not own: which sets belong to the collection.
-/

namespace CanonicalLR

open Closure

def Core.triple (core : Core) (terminal : String) : Triple :=
  ⟨core.production, core.dot, terminal⟩

/-- The items of a state, one for each terminal of their lookaheads. -/
def ParseTable.view (table : ParseTable) (id : Nat) : Set Triple :=
  {triple | ∃ state, table.states[id]? = some state ∧ ∃ item ∈ state.items,
    item.production = triple.production ∧ item.dot = triple.dot ∧
      triple.terminal ∈ item.lookahead}

/-- Each symbol of a right-hand side starts with some terminal. -/
def Grammar.Startable (grammar : Grammar) : Prop :=
  ∀ production ∈ grammar.productions, ∀ symbol ∈ production.rhs,
    ∃ terminal, grammar.Starts symbol terminal

theorem Grammar.Readable.startable {grammar : Grammar} (readable : grammar.Readable)
    (someFirst : ∀ name ∈ grammar.nonterminals,
      ∃ terminal, terminal ∈ (Sets.ofGrammar grammar).firstOf (.nonterminal name)) :
    grammar.Startable := by
  intro production member symbol inRhs
  cases symbol with
  | terminal name => exact ⟨name, .terminal name⟩
  | nonterminal name =>
      obtain ⟨terminal, inFirst⟩ :=
        someFirst name (readable.rhs_listed production member name inRhs)
      exact ⟨terminal, Grammar.mem_firstOf.1 inFirst⟩

variable {grammar : Grammar}

theorem Core.Fits.behind? {core : Core} (fits : core.Fits grammar) (terminal : String) :
    grammar.behind? (core.triple terminal) = some (core.rhs.drop core.dot) := by
  obtain ⟨production, found, -, sameRhs, -⟩ := fits
  show (grammar.productions[core.production]?).map _ = _
  rw [found, sameRhs]
  rfl

theorem Core.Fits.drop_eq {core : Core} (fits : core.Fits grammar) {triple : Triple}
    (same : core.triple triple.terminal = triple) {behind : List Symbol}
    (behindDot : grammar.behind? triple = some behind) : core.rhs.drop core.dot = behind := by
  have whole := fits.behind? triple.terminal
  rw [same, behindDot] at whole
  exact (Option.some.inj whole).symm

/-! ### Calls and closure -/

/-- The core of the fact stands in the set with some terminal and, if the fact has
one, with that terminal. -/
def Witnessed (set : Set Triple) (fact : Fact) : Prop :=
  (∃ terminal, fact.1.triple terminal ∈ set) ∧
    ∀ terminal ∈ fact.2, fact.1.triple terminal ∈ set

section Calls

variable (nonempty : ∀ production ∈ grammar.productions, production.rhs ≠ [])

include nonempty

/-- Some terminal follows a nonterminal of a right-hand side. -/
private theorem exists_mem_First (startable : grammar.Startable) {core : Core}
    (fits : core.Fits grammar) {symbol : Symbol} {behind : List Symbol}
    (drop : core.rhs.drop core.dot = symbol :: behind) (next : String) :
    ∃ terminal, terminal ∈ grammar.First (behind ++ [.terminal next]) := by
  cases behind with
  | nil => exact ⟨next, (Grammar.mem_First_append nonempty).2 (.inl ⟨rfl, rfl⟩)⟩
  | cons first others =>
      obtain ⟨production, found, -, sameRhs, -⟩ := fits
      have inRhs : first ∈ production.rhs := by
        rw [← sameRhs]
        exact List.mem_of_mem_drop (i := core.dot) (by simp [drop])
      obtain ⟨terminal, starts⟩ :=
        startable production (List.mem_of_getElem? found) first inRhs
      exact ⟨terminal, (Grammar.mem_First_append nonempty).2 (.inr ⟨first, others, rfl, starts⟩)⟩

/-- What a fact calls for stands in any closure that the fact stands in. -/
theorem Witnessed.calls (startable : grammar.Startable) {seeds : Set Triple} {fact next : Fact}
    (witnessed : Witnessed (grammar.closureOf seeds) fact) (fits : fact.1.Fits grammar)
    (calls : Calls grammar (Sets.ofGrammar grammar) fact next) :
    Witnessed (grammar.closureOf seeds) next := by
  obtain ⟨⟨known, inside⟩, terminals⟩ := witnessed
  have call : ∀ {terminal lookahead : String} {index : Nat} {production : Production}
      {behind : List Symbol}, fact.1.triple lookahead ∈ grammar.closureOf seeds →
      fact.1.rhs.drop fact.1.dot = .nonterminal production.lhs :: behind →
      grammar.productions[index]? = some production →
      terminal ∈ grammar.First (behind ++ [.terminal lookahead]) →
      (Core.start index production).triple terminal ∈ grammar.closureOf seeds := by
    intro terminal lookahead index production behind member drop found ahead
    exact .call member ((fits.behind? lookahead).trans (congrArg some drop)) found ahead
  cases calls with
  | @core core name index production next listed =>
      obtain ⟨found, rfl⟩ := Grammar.mem_productionsFor.1 listed
      obtain ⟨behind, drop⟩ := Core.exists_drop_of_next? next
      obtain ⟨terminal, ahead⟩ := exists_mem_First nonempty startable fits drop known
      exact ⟨⟨terminal, call inside drop found ahead⟩, by simp⟩
  | @ahead core name index production symbol terminal next listed afterNext member =>
      obtain ⟨found, rfl⟩ := Grammar.mem_productionsFor.1 listed
      obtain ⟨behind, drop⟩ := Core.exists_drop_of_next? next
      rw [Core.afterNext?_of_drop drop] at afterNext
      obtain ⟨others, rfl⟩ := List.head?_eq_some_iff.1 afterNext
      have ahead : terminal ∈ grammar.First (symbol :: others ++ [.terminal known]) :=
        (Grammar.mem_First_append nonempty).2
          (.inr ⟨symbol, others, rfl, Grammar.mem_firstOf.1 member⟩)
      have called := call inside drop found ahead
      exact ⟨⟨terminal, called⟩, fun other same => Option.some.inj same ▸ called⟩
  | @inherited core name index production terminal next listed atEnd =>
      obtain ⟨found, rfl⟩ := Grammar.mem_productionsFor.1 listed
      obtain ⟨behind, drop⟩ := Core.exists_drop_of_next? next
      rw [Core.afterNext?_of_drop drop, List.head?_eq_none_iff] at atEnd
      subst atEnd
      have ahead : terminal ∈ grammar.First ([] ++ [.terminal terminal]) :=
        (Grammar.mem_First_append nonempty).2 (.inl ⟨rfl, rfl⟩)
      have called := call (terminals terminal rfl) drop found ahead
      exact ⟨⟨terminal, called⟩, fun other same => Option.some.inj same ▸ called⟩

/-- Facts that are closed under calls cover a closure when they cover its seeds. -/
theorem exists_fact_of_closure (holds : Fact → Prop)
    (cores : ∀ core terminal?, holds (core, terminal?) → holds (core, none))
    (fits : ∀ fact, holds fact → fact.1.Fits grammar)
    (closed : ∀ fact next, holds fact → Calls grammar (Sets.ofGrammar grammar) fact next →
      holds next)
    {seeds : Set Triple} {triple : Triple}
    (seeded : ∀ seed ∈ seeds, ∃ core, holds (core, some seed.terminal) ∧
      core.triple seed.terminal = seed)
    (inside : grammar.InClosure seeds triple) :
    ∃ core, holds (core, some triple.terminal) ∧ core.triple triple.terminal = triple := by
  induction inside with
  | seed member => exact seeded _ member
  | @call caller called index behind terminal _ behindDot found ahead inductionHypothesis =>
      obtain ⟨core, held, same⟩ := inductionHypothesis
      have drop := (fits _ held).drop_eq same behindDot
      have next := Core.next?_of_drop drop
      have afterNext := Core.afterNext?_of_drop drop
      have listed : (index, called) ∈ grammar.productionsFor called.lhs :=
        Grammar.mem_productionsFor.2 ⟨found, rfl⟩
      refine ⟨.start index called, ?_, rfl⟩
      rcases (Grammar.mem_First_append nonempty).1 ahead with
        ⟨rfl, rfl⟩ | ⟨first, others, rfl, starts⟩
      · exact closed _ _ held (.inherited next listed afterNext)
      · exact closed _ _ (cores _ _ held)
          (.ahead next listed afterNext (Grammar.mem_firstOf.2 starts))

end Calls

/-! ### States -/

namespace ParseTable

variable {policy : ConflictPolicy} {table : ParseTable}

theorem mem_view {id : Nat} {triple : Triple} :
    triple ∈ table.view id ↔
      ∃ core, table.Records id (core, some triple.terminal) ∧
        core.triple triple.terminal = triple := by
  constructor
  · rintro ⟨state, present, item, member, sameProduction, sameDot, inLookahead⟩
    refine ⟨item.toCore, ⟨state, present, item, member, Item.records_terminal inLookahead⟩, ?_⟩
    rw [Core.triple, sameProduction, sameDot]
  · rintro ⟨core, ⟨state, present, item, member, records⟩, same⟩
    obtain ⟨rfl, inLookahead⟩ := Item.records_some.1 records
    exact ⟨state, present, item, member, congrArg Triple.production same,
      congrArg Triple.dot same, inLookahead⟩

theorem mem_view_of_records {id : Nat} {core : Core} {terminal : String}
    (records : table.Records id (core, some terminal)) : core.triple terminal ∈ table.view id :=
  mem_view.2 ⟨core, records, rfl⟩

/-- Each item of the state has some terminal in its lookahead. -/
def Lively (table : ParseTable) (id : Nat) : Prop :=
  ∀ core, table.Records id (core, none) → ∃ terminal, table.Records id (core, some terminal)

namespace Generated

variable (generated : table.Generated policy)

include generated

theorem triple_mem_view {id : Nat} {core : Core} {terminal : String}
    (fits : core.Fits table.grammar) :
    core.triple terminal ∈ table.view id ↔ table.Records id (core, some terminal) := by
  constructor
  · intro member
    obtain ⟨other, records, same⟩ := mem_view.1 member
    have equal : other = core := (generated.fits_of_records records).1.ext fits
      (congrArg Triple.production same) (congrArg Triple.dot same)
    exact equal ▸ records
  · exact mem_view_of_records

/-- What facts in a closure lead to stays in that closure. -/
theorem witnessed_of_path (readable : table.grammar.Readable) (startable : table.grammar.Startable)
    {seeds : Set Triple} {fact later : Fact}
    (path : Relation.ReflTransGen (Calls table.grammar table.sets) fact later)
    (fits : fact.Fits table.grammar) (witnessed : Witnessed (table.grammar.closureOf seeds) fact) :
    Witnessed (table.grammar.closureOf seeds) later := by
  rw [generated.sets_eq] at path
  suffices both : later.Fits table.grammar ∧
      Witnessed (table.grammar.closureOf seeds) later from both.2
  induction path with
  | refl => exact ⟨fits, witnessed⟩
  | tail _ calls inductionHypothesis =>
      obtain ⟨laterFits, laterWitnessed⟩ := inductionHypothesis
      exact ⟨calls.fits laterFits,
        laterWitnessed.calls readable.nonempty startable laterFits.1 calls⟩

/-- A state stands for all of the closure of what it stands for. -/
theorem closureOf_subset_view (readable : table.grammar.Readable) {id : Nat} {seeds : Set Triple}
    (seeded : seeds ⊆ table.view id) : table.grammar.closureOf seeds ⊆ table.view id := by
  intro triple inside
  refine mem_view.2 (exists_fact_of_closure readable.nonempty (table.Records id)
    (fun _ _ records => records.core) (fun _ records => (generated.fits_of_records records).1)
    ?_ (fun seed member => mem_view.1 (seeded member)) inside)
  intro fact next records calls
  rw [← generated.sets_eq] at calls
  exact generated.records_calls records calls

/-- A state whose facts stand in the closure of seeds that it stands for stands for
that closure, and no lookahead is empty. -/
theorem view_eq_closureOf (readable : table.grammar.Readable) {id : Nat} {seeds : Set Triple}
    (covered : ∀ fact, table.Records id fact →
      Witnessed (table.grammar.closureOf seeds) fact)
    (seeded : seeds ⊆ table.view id) :
    table.view id = table.grammar.closureOf seeds ∧ table.Lively id := by
  have inView := generated.closureOf_subset_view readable seeded
  constructor
  · apply Set.Subset.antisymm
    · intro triple member
      obtain ⟨core, records, same⟩ := mem_view.1 member
      exact same ▸ (covered _ records).2 _ rfl
    · exact inView
  · intro core records
    obtain ⟨terminal, inside⟩ := (covered _ records).1
    have fits := (generated.fits_of_records records).1
    exact ⟨terminal, (generated.triple_mem_view fits).1 (inView inside)⟩

theorem startItems_subset_view : table.grammar.startItems ⊆ table.view 0 := by
  rintro ⟨index, dot, terminal⟩ ⟨production, started, rfl, rfl⟩
  exact mem_view.2 ⟨.start index production, (generated.initial_records_iff started).2
    ⟨some table.grammar.endMarker, fun _ same => (Option.some.inj same).symm, .refl⟩, rfl⟩

theorem movedOver_subset_view {source target : Nat} {symbol : Symbol}
    (edge : table.Edge source symbol target) :
    table.grammar.movedOver (table.view source) symbol ⊆ table.view target := by
  rintro seed ⟨origin, member, behind, behindDot, rfl⟩
  obtain ⟨core, records, same⟩ := mem_view.1 member
  have drop := (generated.fits_of_records records).1.drop_eq same behindDot
  exact mem_view.2 ⟨core.advance, edge.records_advance records (Core.next?_of_drop drop),
    congrArg Triple.advance same⟩

/-- The first state stands for the initial set. -/
theorem view_initial (readable : table.grammar.Readable) (startable : table.grammar.Startable) :
    table.view 0 = table.grammar.initialSet ∧ table.Lively 0 := by
  obtain ⟨index, production, _, started, -⟩ := generated.initial
  have fits : (Core.start index production).Fits table.grammar :=
    .of_start (Grammar.getElem?_of_startProduction? started)
  apply generated.view_eq_closureOf readable _ generated.startItems_subset_view
  intro fact records
  obtain ⟨terminal?, onlyEnd, path⟩ := (generated.initial_records_iff started).1 records
  have inStart : (Core.start index production).triple table.grammar.endMarker ∈
      table.grammar.closureOf table.grammar.startItems :=
    .seed ⟨production, started, rfl, rfl⟩
  refine generated.witnessed_of_path readable startable path ⟨fits, fun terminal member => ?_⟩
    ⟨⟨_, inStart⟩, fun terminal member => onlyEnd terminal member ▸ inStart⟩
  exact Grammar.mem_alphabet.2 (.inl (onlyEnd terminal member))

/-- A transition leads from the state for a set to the state for its move. -/
theorem view_edge (readable : table.grammar.Readable) (startable : table.grammar.Startable)
    {source target : Nat} {symbol : Symbol} (edge : table.Edge source symbol target)
    (lively : table.Lively source) :
    table.view target = table.grammar.gotoOf (table.view source) symbol ∧
      table.Lively target := by
  have moved : ∀ core terminal, table.Records source (core, some terminal) →
      core.next? = some symbol →
      core.advance.triple terminal ∈
        table.grammar.closureOf (table.grammar.movedOver (table.view source) symbol) := by
    intro core terminal records next
    have fits := (generated.fits_of_records records).1
    obtain ⟨behind, drop⟩ := Core.exists_drop_of_next? next
    exact .seed ⟨core.triple terminal, (generated.triple_mem_view fits).2 records, behind,
      (fits.behind? terminal).trans (congrArg some drop), rfl⟩
  apply generated.view_eq_closureOf readable _ (generated.movedOver_subset_view edge)
  intro fact records
  obtain ⟨core, terminal?, inSource, next, path⟩ := edge.records_iff.1 records
  obtain ⟨terminal, withTerminal⟩ := lively core inSource.core
  have fits := generated.fits_of_records (edge.records_advance inSource next)
  refine generated.witnessed_of_path readable startable path fits
    ⟨⟨terminal, moved core terminal withTerminal next⟩, fun other same => ?_⟩
  cases same
  exact moved core other inSource next

/-- No lookahead is empty. -/
theorem lively (readable : table.grammar.Readable) (startable : table.grammar.Startable)
    (id : Nat) : table.Lively id := by
  induction id using Nat.strongRecOn with
  | ind id inductionHypothesis =>
      intro core records
      rcases Nat.eq_zero_or_pos id with rfl | positive
      · exact (generated.view_initial readable startable).2 core records
      · obtain ⟨source, before, symbol, edge⟩ :=
          generated.reached id positive records.lt_size
        exact (generated.view_edge readable startable edge
          (inductionHypothesis source before)).2 core records

/-- The state behind a transition holds an item that was moved over its symbol. -/
theorem exists_moved (readable : table.grammar.Readable) (startable : table.grammar.Startable)
    {source target : Nat} {symbol : Symbol} (edge : table.Edge source symbol target) :
    ∃ core terminal, table.Records target (Core.advance core, some terminal) := by
  obtain ⟨core, records, next⟩ := edge.exists_core
  obtain ⟨terminal, withTerminal⟩ := generated.lively readable startable source core records
  exact ⟨core, terminal, edge.records_advance withTerminal next⟩

/-- The moves of a state without a transition lead to nothing. -/
theorem gotoOf_eq_empty {source : Nat} {symbol : Symbol}
    (none : ∀ target, ¬ table.Edge source symbol target) :
    table.grammar.gotoOf (table.view source) symbol = ∅ := by
  apply Grammar.closureOf_eq_empty
  apply Set.eq_empty_iff_forall_notMem.2
  rintro seed ⟨origin, member, behind, behindDot, rfl⟩
  obtain ⟨core, records, same⟩ := mem_view.1 member
  have drop := (generated.fits_of_records records).1.drop_eq same behindDot
  obtain ⟨target, edge⟩ := generated.edge_of_records records (Core.next?_of_drop drop)
  exact none target edge

end Generated

end ParseTable

end CanonicalLR
