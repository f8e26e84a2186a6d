import CanonicalLR.Proofs.Walk.Completeness
import CanonicalLR.Proofs.Walk.Termination

/-!
Contract: the ways for a run over a generated table to fail.

Owns:
- what every run keeps, whatever the grammar, its conflicts and the input are;
- that a reduction finds a GOTO entry, unless it is by the start production;
- the look-ups that can find nothing in a run.

Does not own: which inputs make a run fail.
-/

namespace CanonicalLR

open Closure

namespace ParseTable.Generated

variable {policy : ConflictPolicy} {table : ParseTable}

/-- A production with the dot in front is called for by an item that waits for its left-hand
side, or it is the start production in the first state. -/
theorem isStart_or_exists_edge (generated : table.Generated policy) {id index : Nat}
    {production : Production} {terminal : String}
    (records : table.Records id (.start index production, some terminal)) :
    (id = 0 ∧ terminal = table.grammar.endMarker ∧
        ∃ start, table.grammar.startProduction? = some (index, start)) ∨
      ∃ target, table.Edge id (.nonterminal production.lhs) target := by
  obtain ⟨seed, isSeed, path⟩ := generated.exists_seed records
  rcases path.cases_tail with isSame | ⟨⟨core, terminal?⟩, before, calls⟩
  · left
    rw [← isSame] at isSeed
    exact isSeed.isStart
  · right
    obtain ⟨name, _, called, next, listed, same, -⟩ := calls.exists_production
    obtain ⟨-, rfl⟩ := Grammar.mem_productionsFor.1 listed
    have sameLhs : production.lhs = called.lhs := congrArg Core.lhs same
    rw [sameLhs]
    exact generated.edge_of_records (generated.records_of_seed isSeed before) next

end ParseTable.Generated

namespace Walk

open ParseTable Grammar

/-- The ways for a run over a generated table to fail: the terminal has no action, or the
start production has been reduced down to the first state with an end marker still to be
read, and the first state has no GOTO entry for the start symbol. -/
inductive Stops (table : ParseTable) (startIndex : Nat) : Configuration → WalkError → Prop where
  | action {top : Nat} {below : List Nat} {stream : TerminalStream}
      (missing : table.action? top stream.terminal = none) :
      Stops table startIndex ⟨top :: below, stream⟩ (.missingAction top stream.terminal)
  | goto {top : Nat} {below : List Nat} {stream : TerminalStream} {start : Production}
      (entry : table.action? top stream.terminal = some (.reduce startIndex))
      (found : table.grammar.productions[startIndex]? = some start)
      (dropped : (top :: below).drop start.rhs.length = [0])
      (unread : stream.remaining.head? = some table.grammar.endMarker)
      (missing : table.goto? 0 start.lhs = none) :
      Stops table startIndex ⟨top :: below, stream⟩ (.missingGoto 0 start.lhs)

/-- What a run over a generated table has come to when it fails. -/
structure Failure (grammar : Grammar) (table : ParseTable) (input : List String)
    (error : WalkError) : Prop where
  not_missingStart : error ≠ .missingStartProduction
  not_stackUnderflow : error ≠ .stackUnderflow
  not_unknownProduction : ∀ index, error ≠ .unknownProduction index
  stops : ∃ index start configuration, grammar.startProduction? = some (index, start) ∧
    Continues table index ⟨[0], ⟨input, grammar.endMarker⟩⟩ configuration ∧
    configuration.stream.remaining <:+ input ∧ Stops table index configuration error
  missingAction : grammar.endMarker ∉ input →
    ∃ state terminal, error = .missingAction state terminal

/-- The states of the stack are a path of the automaton, and what is still to be read is the
end of the input. -/
structure Upright (table : ParseTable) (input : List String) (configuration : Configuration) :
    Prop where
  remaining_suffix : configuration.stream.remaining <:+ input
  path : ∃ symbols, table.Path configuration.stack symbols

variable {policy : ConflictPolicy} {table : ParseTable} {startIndex : Nat} {input : List String}
  {configuration later : Configuration} {taken : Step} {error : WalkError}

theorem upright_initial (table : ParseTable) (input : List String) :
    Upright table input ⟨[0], ⟨input, table.grammar.endMarker⟩⟩ where
  remaining_suffix := List.suffix_refl input
  path := ⟨[], .initial⟩

namespace Upright

/-- One step keeps the invariant. -/
theorem step (generated : table.Generated policy) (upright : Upright table input configuration)
    (stepped : Walk.step table startIndex configuration = .next taken later) :
    Upright table input later := by
  obtain ⟨suffix, symbols, path⟩ := upright
  cases step_eq_next.1 stepped with
  | shift entry =>
      have edge := (generated.candidate_of_action? _ _ _ entry).edge
      exact ⟨(List.tail_suffix _).trans suffix, _, path.edge edge⟩
  | reduce entry found dropped _ goto =>
      obtain ⟨front, lower⟩ := exists_path_below generated path entry found dropped
      exact ⟨suffix, _, lower.edge ((generated.goto?_eq_some _ _ _).1 goto)⟩

/-- So does a whole run. -/
theorem continues (generated : table.Generated policy)
    (upright : Upright table input configuration)
    (run : Continues table startIndex configuration later) : Upright table input later := by
  induction run with
  | refl => exact upright
  | tail _ stepped inductionHypothesis =>
      obtain ⟨taken, stepped⟩ := stepped
      exact inductionHypothesis.step generated stepped

/-- A reduction whose GOTO entry is missing is by the start production, down to the first
state, at an end marker. -/
theorem isStart_of_missing {top index base : Nat} {below lower : List Nat}
    {stream : TerminalStream} {production : Production} (generated : table.Generated policy)
    (upright : Upright table input ⟨top :: below, stream⟩)
    (entry : table.action? top stream.terminal = some (.reduce index))
    (found : table.grammar.productions[index]? = some production)
    (dropped : (top :: below).drop production.rhs.length = base :: lower)
    (missing : table.goto? base production.lhs = none) :
    base = 0 ∧ lower = [] ∧ stream.terminal = table.grammar.endMarker ∧
      ∃ start, table.grammar.startProduction? = some (index, start) := by
  obtain ⟨-, symbols, path⟩ := upright
  have wanted := records_below generated path entry found dropped
  rcases generated.isStart_or_exists_edge wanted with ⟨rfl, isEnd, isStart⟩ | ⟨target, edge⟩
  · obtain ⟨front, onFirst⟩ := exists_path_below generated path entry found dropped
    exact ⟨rfl, generated.below_eq_nil onFirst, isEnd, isStart⟩
  · rw [(generated.goto?_eq_some _ _ _).2 edge] at missing
    contradiction

/-- Of the look-ups of a step only two can find nothing. -/
theorem stops (generated : table.Generated policy) {start : Production}
    (started : table.grammar.startProduction? = some (startIndex, start))
    (upright : Upright table input configuration)
    (fails : Fails table startIndex configuration error) :
    Stops table startIndex configuration error := by
  have ⟨_, symbols, path⟩ := upright
  cases fails with
  | empty => cases path
  | action missing => exact .action missing
  | production entry unknown =>
      have candidate := generated.candidate_of_action? _ _ _ entry
      obtain ⟨core, records, -, rfl⟩ := candidate_reduce_iff.1 candidate
      obtain ⟨production, found, -⟩ := (generated.fits_of_records records).1
      rw [found] at unknown
      contradiction
  | underflow entry found dropped =>
      obtain ⟨front, nowhere⟩ := exists_path_below generated path entry found dropped
      cases nowhere
  | @goto top index base below lower stream production entry found dropped unfinished missing =>
      obtain ⟨rfl, rfl, isEnd, _, startedToo⟩ :=
        upright.isStart_of_missing generated entry found dropped missing
      cases started.symm.trans startedToo
      refine .goto entry found dropped ?_ missing
      obtain ⟨remaining, endMarker⟩ := stream
      cases remaining with
      | nil => exact absurd ⟨rfl, rfl, rfl⟩ unfinished
      | cons name rest => exact congrArg some isEnd

end Upright

/-- A run that fails comes to a configuration that has no next step. -/
theorem exists_fails_of_run {limit : Nat} {trace : List Step}
    (ran : Walk.run table startIndex limit trace configuration = some (.error error)) :
    ∃ final, Continues table startIndex configuration final ∧
      Fails table startIndex final error := by
  obtain ⟨taken, final, steps, ends⟩ := run_ends table startIndex limit trace configuration
  rw [ran] at ends
  cases ends with
  | failed _ stepped => exact ⟨final, steps.continues, step_eq_failed.1 stepped⟩

end Walk

open Walk in
/-- A run over a generated table fails for want of an action, or before an end marker in the
midst of the input. This is so for every grammar, whichever actions have won its conflicts. -/
theorem failure_of_walk {policy : ConflictPolicy} {grammar : Grammar} {table : ParseTable}
    {limit : Nat} {input : List String} {error : WalkError}
    (generation : ParseTable.generate policy grammar = .ok table)
    (walked : walk limit table input = some (.error error)) :
    Failure grammar table input error := by
  obtain ⟨rfl, generated⟩ := ParseTable.generated_of_generateWith generation
  obtain ⟨index, start, -, started, -⟩ := generated.initial
  rw [walk_eq_run started] at walked
  obtain ⟨final, continues, fails⟩ := exists_fails_of_run walked
  have upright := (upright_initial table input).continues generated continues
  have suffix := upright.remaining_suffix
  have stops := upright.stops generated started fails
  refine ⟨?_, ?_, ?_, ⟨index, start, final, started, continues, suffix, stops⟩, ?_⟩
  · cases stops <;> simp
  · cases stops <;> simp
  · cases stops <;> simp
  · intro absent
    cases stops with
    | action => exact ⟨_, _, rfl⟩
    | goto _ _ _ unread => exact absurd (suffix.subset (List.mem_of_head? unread)) absent

/-- In the sample made by hand, which has a conflict and an empty right-hand side, an end
marker in the midst of the input is where the GOTO entry is missing. -/
theorem failure_of_walk_optional :
    ∃ table, ParseTable.generate .report Grammar.optional = .ok table ∧
      walk 4 table ["a", "eof"] = some (.error (.missingGoto 0 "S")) ∧
      Walk.Failure Grammar.optional table ["a", "eof"] (.missingGoto 0 "S") := by
  have computed : (ParseTable.generateWith .scan .report Grammar.optional).toOption.bind
      (walk 4 · ["a", "eof"]) = some (.error (.missingGoto 0 "S")) := by
    decide +kernel
  obtain ⟨table, generation, walked⟩ := ParseTable.exists_generate_of_scan computed
  exact ⟨table, generation, walked, failure_of_walk generation walked⟩

end CanonicalLR
