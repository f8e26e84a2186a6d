import CanonicalLR.Proofs.Walk.Soundness
import Mathlib.Data.Prod.Lex

/-!
Contract: that runs over a table without conflicts end.

Owns:
- what a state was entered with, which leads to all of its facts;
- the reduction that follows a reduction, by the item that has called for it;
- the order in which runs go down, and that every run from the first state ends.

Does not own: how a run ends.

A reduction by a single symbol leaves the rest of the input and the height of the
stack as they are. It goes back along the calls that have led to its item, so there
are no more of them in a row than calls.
-/

namespace CanonicalLR

open Closure

namespace ParseTable

variable {policy : ConflictPolicy} {table : ParseTable}

/-! ### What a state was entered with -/

/-- The facts that were not called for in the state: those whose dot has moved, and in
the first state the start production with the end of input behind it. -/
inductive Seed (table : ParseTable) (id : Nat) : Fact → Prop where
  | moved {fact : Fact} (records : table.Records id fact) (inside : 0 < fact.1.dot) :
      Seed table id fact
  | start {index : Nat} {production : Production} {terminal? : Option String} (isFirst : id = 0)
      (started : table.grammar.startProduction? = some (index, production))
      (onlyEnd : ∀ terminal ∈ terminal?, terminal = table.grammar.endMarker) :
      Seed table id (.start index production, terminal?)

/-- Only the first state was entered with a dot in front. -/
theorem Seed.isStart {id index : Nat} {production : Production} {terminal : String}
    (isSeed : table.Seed id (.start index production, some terminal)) :
    id = 0 ∧ terminal = table.grammar.endMarker ∧
      ∃ start, table.grammar.startProduction? = some (index, start) := by
  generalize same : (Core.start index production, some terminal) = fact at isSeed
  cases isSeed with
  | moved _ inside =>
      rw [← same] at inside
      exact absurd inside (Nat.lt_irrefl 0)
  | @start startIndex start _ isFirst started onlyEnd =>
      obtain ⟨sameCore, rfl⟩ := Prod.mk.inj same
      have sameIndex : index = startIndex := congrArg Core.production sameCore
      exact ⟨isFirst, onlyEnd terminal rfl, start, sameIndex ▸ started⟩

namespace Generated

variable (generated : table.Generated policy)

include generated

theorem exists_seed {id : Nat} {fact : Fact} (records : table.Records id fact) :
    ∃ seed, table.Seed id seed ∧
      Relation.ReflTransGen (Calls table.grammar table.sets) seed fact := by
  rcases Nat.eq_zero_or_pos id with rfl | positive
  · obtain ⟨index, production, _, started, -⟩ := generated.initial
    obtain ⟨terminal?, onlyEnd, path⟩ := (generated.initial_records_iff started).1 records
    exact ⟨_, .start rfl started onlyEnd, path⟩
  · obtain ⟨source, -, symbol, edge⟩ := generated.reached id positive records.lt_size
    obtain ⟨core, terminal?, inSource, next, path⟩ := edge.records_iff.1 records
    exact ⟨_, .moved (edge.records_advance inSource next) (Nat.succ_pos core.dot), path⟩

theorem records_of_seed {id : Nat} {seed fact : Fact} (isSeed : table.Seed id seed)
    (path : Relation.ReflTransGen (Calls table.grammar table.sets) seed fact) :
    table.Records id fact := by
  induction path with
  | refl =>
      cases isSeed with
      | moved records => exact records
      | start isFirst started onlyEnd =>
          subst isFirst
          exact (generated.initial_records_iff started).2 ⟨_, onlyEnd, .refl⟩
  | tail _ calls inductionHypothesis => exact generated.records_calls inductionHypothesis calls

/-- A symbol behind a dot brings the terminals that it starts with behind a dot. -/
theorem exists_edge_of_starts {id : Nat} {core : Core} {symbol : Symbol} {name : String}
    (records : table.Records id (core, none)) (next : core.next? = some symbol)
    (starts : table.grammar.Starts symbol name) :
    ∃ target, table.Edge id (.terminal name) target := by
  induction starts generalizing core with
  | terminal name => exact generated.edge_of_records records next
  | @nonterminal production first rest name member rhs _ inductionHypothesis =>
      obtain ⟨index, found⟩ := List.getElem?_of_mem member
      have called : table.Records id (.start index production, none) :=
        generated.records_calls records (.core next (Grammar.mem_productionsFor.2 ⟨found, rfl⟩))
      apply inductionHypothesis called
      rw [Core.next?, Core.start, rhs]
      rfl

/-- When a production has been reduced and its terminal calls for another reduction, that
one is by the item that has called for the production, with nothing behind it. -/
theorem caller_of_reduce (none : table.conflicts = []) {base target index other : Nat}
    {production : Production} {terminal : String} {caller : Fact}
    (records : table.Records base caller)
    (calls : Calls table.grammar table.sets caller (.start index production, some terminal))
    (edge : table.Edge base (.nonterminal production.lhs) target)
    (entry : table.action? target terminal = some (.reduce other)) :
    ∃ core, caller = (core, some terminal) ∧ core.production = other ∧
      core.rhs.length = core.dot + 1 := by
  obtain ⟨name, _, called, next, listed, same, lookaheads⟩ := calls.exists_production
  obtain ⟨-, rfl⟩ := Grammar.mem_productionsFor.1 listed
  have sameLhs : production.lhs = called.lhs := congrArg Core.lhs same
  rw [← sameLhs] at next
  obtain ⟨core, terminal?⟩ := caller
  have moved := edge.records_advance records next
  rcases lookaheads terminal rfl with ⟨symbol, afterNext, inFirst⟩ | ⟨atEnd, inherited⟩
  · rw [generated.sets_eq] at inFirst
    obtain ⟨shifted, terminalEdge⟩ := generated.exists_edge_of_starts moved.core afterNext
      (Grammar.mem_firstOf.1 inFirst)
    rw [generated.action?_of_candidate none (.shift terminalEdge)] at entry
    cases entry
  · cases inherited
    have reduces := generated.action?_of_candidate none
      (candidate_reduce_iff.2 ⟨core.advance, moved, atEnd, rfl⟩)
    refine ⟨core, rfl, Action.reduce.inj (Option.some.inj (reduces.symm.trans entry)), ?_⟩
    have inRange : core.dot < core.rhs.length := (List.getElem?_eq_some_iff.1 next).1
    have beyond : core.rhs.length ≤ core.dot + 1 := List.getElem?_eq_none_iff.1 atEnd
    omega

end Generated

end ParseTable

/-! ### Runs -/

namespace Walk

open ParseTable Grammar

/-- There are only finitely many steps from the configuration on. -/
def Halts (table : ParseTable) (startIndex : Nat) : Configuration → Prop :=
  Acc fun later earlier => ∃ taken, step table startIndex earlier = .next taken later

/-- What is left to read comes first, and the height of the stack second. -/
def Configuration.size (configuration : Configuration) : Nat ×ₗ Nat :=
  toLex (configuration.stream.remaining.length, configuration.stack.length)

variable {policy : ConflictPolicy} {table : ParseTable} {startIndex : Nat} {input : List String}
  {trace : List Step}

theorem Configuration.size_lt_iff {stack otherStack : List Nat}
    {stream otherStream : TerminalStream} :
    (⟨stack, stream⟩ : Configuration).size < (⟨otherStack, otherStream⟩ : Configuration).size ↔
      stream.remaining.length < otherStream.remaining.length ∨
        stream.remaining.length = otherStream.remaining.length ∧
          stack.length < otherStack.length :=
  Prod.Lex.toLex_lt_toLex

/-- A run that halts has an outcome, under some limit. -/
theorem Halts.exists_run {configuration : Configuration}
    (halts : Halts table startIndex configuration) (trace : List Step) :
    ∃ limit outcome, run table startIndex limit trace configuration = some outcome := by
  induction halts generalizing trace with
  | intro configuration _ inductionHypothesis =>
      cases stepped : step table startIndex configuration with
      | next taken later =>
          obtain ⟨limit, outcome, ran⟩ :=
            inductionHypothesis later ⟨taken, stepped⟩ (taken :: trace)
          refine ⟨limit + 1, outcome, ?_⟩
          rw [run, stepped]
          exact ran
      | accepted => exact ⟨1, .ok (.accept :: trace).reverse, by rw [run, stepped]⟩
      | failed error => exact ⟨1, .error error, by rw [run, stepped]⟩

section Halting

variable (generated : table.Generated policy)

include generated

/-- Where a state was entered no run goes on: the dot of an item has moved there, and
the start production is accepted at the end of input. -/
theorem Reading.not_seed {first production : Production} {index base target : Nat}
    {lower : List Nat} {stream : TerminalStream} (absent : table.grammar.endMarker ∉ input)
    (started : table.grammar.startProduction? = some (startIndex, first))
    (reading : Reading table input trace ⟨target :: base :: lower, stream⟩)
    (unfinished : ¬ (index = startIndex ∧ lower.isEmpty ∧ stream.isAtEnd)) :
    ¬ table.Seed base (.start index production, some stream.terminal) := by
  intro isSeed
  obtain ⟨rfl, isEnd, _, startedToo⟩ := isSeed.isStart
  obtain ⟨rfl, -⟩ := Prod.mk.inj (Option.some.inj (started.symm.trans startedToo))
  obtain ⟨symbols, path, -⟩ := reading.derivation
  cases path with
  | edge below _ =>
      exact unfinished ⟨rfl, List.isEmpty_iff.2 (generated.below_eq_nil below),
        reading.isAtEnd absent isEnd⟩

variable (readable : table.grammar.Readable)

include readable

/-- The end marker is never shifted, so a shift leaves less to read. -/
theorem Reading.size_shift {top target : Nat} {below stack : List Nat} {stream : TerminalStream}
    (reading : Reading table input trace ⟨top :: below, stream⟩)
    (entry : table.action? top stream.terminal = some (.shift target)) :
    (⟨stack, stream.advance⟩ : Configuration).size <
      (⟨top :: below, stream⟩ : Configuration).size := by
  have edge := (generated.candidate_of_action? _ _ _ entry).edge
  obtain ⟨remaining, endMarker⟩ := stream
  obtain rfl : endMarker = table.grammar.endMarker := reading.endMarker_eq
  cases remaining with
  | nil => exact absurd edge (not_edge_endMarker generated readable)
  | cons name rest => exact Configuration.size_lt_iff.2 (.inl (Nat.lt_succ_self rest.length))

variable (none : table.conflicts = []) (absent : table.grammar.endMarker ∉ input)
  {first : Production} (started : table.grammar.startProduction? = some (startIndex, first))

include none absent started

/-- After a reduction the run halts if it does wherever less is left to read or fewer
states stand on the stack. The induction goes back along the calls for the production:
the next reduction of a single symbol is by the one before. -/
theorem halts_of_called {base : Nat} {lower : List Nat} {stream : TerminalStream}
    (smaller : ∀ trace configuration, Reading table input trace configuration →
      configuration.size < toLex (stream.remaining.length, lower.length + 2) →
      Halts table startIndex configuration)
    {seed fact : Fact} (isSeed : table.Seed base seed)
    (path : Relation.ReflTransGen (Calls table.grammar table.sets) seed fact)
    {index target : Nat} {production : Production}
    (same : fact = (.start index production, some stream.terminal))
    (edge : table.Edge base (.nonterminal production.lhs) target)
    (unfinished : ¬ (index = startIndex ∧ lower.isEmpty ∧ stream.isAtEnd))
    (reading : Reading table input trace ⟨target :: base :: lower, stream⟩) :
    Halts table startIndex ⟨target :: base :: lower, stream⟩ := by
  induction path generalizing index target production trace with
  | refl =>
      rw [same] at isSeed
      exact absurd isSeed (reading.not_seed generated absent started unfinished)
  | @tail caller fact before calls inductionHypothesis =>
      subst same
      refine Acc.intro _ fun later ⟨taken, stepped⟩ => ?_
      have laterReading := reading.step generated readable stepped
      cases step_eq_next.1 stepped with
      | shift entry =>
          exact smaller _ _ laterReading (reading.size_shift generated readable entry)
      | @reduce _ other newBase newTarget _ newLower _ reduced entry found dropped newUnfinished
          goto =>
          have records := generated.records_of_seed isSeed before
          obtain ⟨core, rfl, rfl, single⟩ :=
            generated.caller_of_reduce none records calls edge entry
          have fits := (generated.fits_of_records records).1
          obtain ⟨-, sameRhs, -⟩ := fits.agrees found
          rw [← sameRhs, single, List.drop_succ_cons] at dropped
          cases inFront : core.dot with
          | zero =>
              rw [inFront, List.drop_zero] at dropped
              cases dropped
              have isStart : core = .start core.production reduced :=
                fits.ext (.of_start found) rfl inFront
              exact inductionHypothesis (by rw [← isStart])
                ((generated.goto?_eq_some _ _ _).1 goto) newUnfinished laterReading
          | succ dot =>
              refine smaller _ _ laterReading (Prod.Lex.toLex_lt_toLex.2 (.inr ⟨rfl, ?_⟩))
              have shorter := congrArg List.length dropped
              rw [inFront, List.length_drop, List.length_cons, List.length_cons] at shorter
              simp only [List.length_cons]
              omega

/-- Every run halts, by induction on what is left to read and on the stack. -/
theorem Reading.halts {configuration : Configuration}
    (reading : Reading table input trace configuration) :
    Halts table startIndex configuration := by
  induction configuration using (InvImage.wf Configuration.size wellFounded_lt).induction
    generalizing trace with
  | h configuration inductionHypothesis =>
      refine Acc.intro _ fun later ⟨taken, stepped⟩ => ?_
      have laterReading := reading.step generated readable stepped
      cases step_eq_next.1 stepped with
      | shift entry =>
          exact inductionHypothesis _ (reading.size_shift generated readable entry) laterReading
      | @reduce top index base target below lower stream production entry found dropped
          unfinished goto =>
          obtain ⟨symbols, path, -⟩ := reading.derivation
          obtain ⟨seed, isSeed, called⟩ :=
            generated.exists_seed (records_below generated path entry found dropped)
          have edge := (generated.goto?_eq_some _ _ _).1 goto
          refine halts_of_called generated readable none absent started ?_ isSeed called rfl edge
            unfinished laterReading
          intro trace configuration reading smaller
          have shorter := congrArg List.length dropped
          have someSymbol := List.length_pos_of_ne_nil
            (readable.readable production (List.mem_of_getElem? found)).1
          rw [List.length_drop, List.length_cons, List.length_cons] at shorter
          have lower_le : lower.length + 2 ≤ (top :: below).length := by
            rw [List.length_cons]
            omega
          exact inductionHypothesis _
            (smaller.trans_le (Prod.Lex.toLex_mono ⟨Nat.le_refl _, lower_le⟩)) reading

end Halting

end Walk

/-- A run over a table without conflicts ends, whether or not the input is a word of
the grammar. -/
theorem walk_halts {endMarker source : String} {grammar : Grammar} {table : ParseTable}
    {input : List String} (parsed : Grammar.parse endMarker source = .ok grammar)
    (generated : ParseTable.generate .fail grammar = .ok table)
    (absent : grammar.endMarker ∉ input) :
    ∃ limit outcome, ∀ enough, limit ≤ enough → walk enough table input = some outcome := by
  obtain ⟨rfl, complete⟩ := ParseTable.generated_of_generateWith generated
  have readable := Grammar.parse_readable parsed
  obtain ⟨start, _, started⟩ := readable.startProduction?_eq
  have halts := (Walk.reading_initial table input).halts complete readable
    (complete.conflicts_eq_nil rfl) absent started
  obtain ⟨limit, outcome, ran⟩ := halts.exists_run []
  refine ⟨limit, outcome, fun enough atLeast => ?_⟩
  rw [walk_eq_run started]
  exact Walk.run_mono atLeast ran

/-- Over the grammar with a cycle, a run of an input that is no word ends as well. -/
theorem walk_halts_loop :
    ∃ table, ParseTable.generate .fail Grammar.loop = .ok table ∧
      ∃ limit outcome, ∀ enough, limit ≤ enough →
        walk enough table ["a", "a"] = some outcome := by
  obtain ⟨table, generated⟩ := ParseTable.exists_generate_loop
  exact ⟨table, generated, walk_halts Grammar.parse_loop generated (by decide)⟩

end CanonicalLR
