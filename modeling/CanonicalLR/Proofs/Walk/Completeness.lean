import CanonicalLR.Proofs.Derivation
import CanonicalLR.Proofs.Table.Edge
import CanonicalLR.Proofs.Table.Lookup
import CanonicalLR.Proofs.Walk.Run

/-!
Contract: what a table without conflicts accepts.

Owns:
- the lookahead under which a production is wanted, by the word that follows;
- the run over a word of the symbols behind a dot;
- the acceptance of every word of the start production.

Does not own: what is accepted besides.
-/

namespace CanonicalLR

open Closure

/-- The core with the dot at the end. -/
def Core.completed (core : Core) : Core :=
  { core with dot := core.rhs.length }

@[simp] theorem Core.next?_completed (core : Core) : core.completed.next? = none :=
  List.getElem?_eq_none (Nat.le_refl core.rhs.length)

namespace Walk

open ParseTable Grammar

/-- The run from the configuration accepts. -/
def Accepts (table : ParseTable) (startIndex : Nat) (configuration : Configuration) : Prop :=
  ∃ final, Continues table startIndex configuration final ∧
    step table startIndex final = .accepted

/-- The run reads `word` for the symbols behind the dot of `core`, which are
`count` many, unless it accepts before. -/
def Passes (table : ParseTable) (startIndex : Nat) (stack : List Nat) (word rest : List String)
    (core : Core) (terminal : String) (count : Nat) : Prop :=
  Accepts table startIndex ⟨stack, ⟨word ++ rest, table.grammar.endMarker⟩⟩ ∨
    ∃ last below, Continues table startIndex
        ⟨stack, ⟨word ++ rest, table.grammar.endMarker⟩⟩
        ⟨last :: below, ⟨rest, table.grammar.endMarker⟩⟩ ∧
      (last :: below).drop count = stack ∧
      table.Records last (core.completed, some terminal)

variable {policy : ConflictPolicy} {table : ParseTable} {startIndex : Nat}

theorem Accepts.of_continues {before after : Configuration}
    (continues : Continues table startIndex before after)
    (accepts : Accepts table startIndex after) : Accepts table startIndex before := by
  obtain ⟨final, later, accepted⟩ := accepts
  exact ⟨final, continues.trans later, accepted⟩

/-- A run that accepts does so under some limit. -/
theorem Accepts.exists_run {configuration : Configuration}
    (accepts : Accepts table startIndex configuration) (trace : List Step) :
    ∃ limit before,
      run table startIndex limit trace configuration = some (.ok (before ++ [.accept])) := by
  obtain ⟨final, continues, accepted⟩ := accepts
  obtain ⟨taken, steps⟩ := continues.exists_steps
  refine ⟨taken.length + 1, trace.reverse ++ taken, ?_⟩
  rw [steps.run_eq, run, accepted]
  simp

/-! ### Single steps -/

section Steps

variable (generated : table.Generated policy) (none : table.conflicts = [])

include generated none

theorem step_shift {top target : Nat} {below : List Nat} {name : String} {rest : List String}
    {endMarker : String} (edge : table.Edge top (.terminal name) target) :
    step table startIndex ⟨top :: below, ⟨name :: rest, endMarker⟩⟩ =
      .next (.shift name target) ⟨target :: top :: below, ⟨rest, endMarker⟩⟩ := by
  apply step_eq_next.2
  exact @Takes.shift _ _ _ _ below ⟨name :: rest, endMarker⟩
    (generated.action?_of_candidate none (.shift edge))

/-- Reducing uncovers the state in which the production was wanted, and goes on
from there unless it accepts. -/
theorem step_reduce {last top target : Nat} {above below : List Nat}
    {stream : TerminalStream} {core : Core} {production : Production}
    (records : table.Records last (core, some stream.terminal))
    (complete : core.next? = Option.none)
    (found : table.grammar.productions[core.production]? = some production)
    (dropped : (last :: above).drop production.rhs.length = top :: below)
    (edge : table.Edge top (.nonterminal production.lhs) target) :
    step table startIndex ⟨last :: above, stream⟩ = .accepted ∨
      step table startIndex ⟨last :: above, stream⟩ =
        .next (.reduce core.production target) ⟨target :: top :: below, stream⟩ := by
  have entry := generated.action?_of_candidate none
    (candidate_reduce_iff.2 ⟨core, records, complete, rfl⟩)
  have goto := (generated.goto?_eq_some _ _ _).2 edge
  by_cases final : core.production = startIndex ∧ below.isEmpty ∧ stream.isAtEnd
  · obtain ⟨isStart, nothingBelow, atEnd⟩ := final
    rw [List.isEmpty_iff.1 nothingBelow] at dropped
    rw [isStart] at entry found
    exact .inl (step_eq_accepted.2 (.reduce entry found dropped atEnd))
  · exact .inr (step_eq_next.2 (.reduce entry found dropped final goto))

end Steps

/-- A production is wanted with the terminal that comes after it as lookahead. -/
theorem records_start (generated : table.Generated policy) (readable : table.grammar.Readable)
    {id index : Nat} {core : Core} {terminal : String} {production : Production}
    {form : List Symbol} {word rest : List String}
    (records : table.Records id (core, some terminal))
    (follows : (TerminalStream.mk rest table.grammar.endMarker).terminal = terminal)
    (found : table.grammar.productions[index]? = some production)
    (behindDot : core.rhs.drop core.dot = .nonterminal production.lhs :: form)
    (yields : table.grammar.Yields form word) :
    table.Records id (.start index production,
      some (TerminalStream.mk (word ++ rest) table.grammar.endMarker).terminal) := by
  have listed : (index, production) ∈ table.grammar.productionsFor production.lhs :=
    mem_productionsFor.2 ⟨found, rfl⟩
  have next := Core.next?_of_drop behindDot
  have afterNext := Core.afterNext?_of_drop behindDot
  cases form with
  | nil =>
      cases yields
      rw [List.nil_append, follows]
      exact generated.records_calls records (.inherited next listed afterNext)
  | cons first others =>
      obtain ⟨name, tail, rfl, starts⟩ := yields.starts readable.nonempty
      have inFirst : name ∈ table.sets.firstOf first := by
        rw [generated.sets_eq]
        exact mem_firstOf.2 starts
      exact generated.records_calls records.core (.ahead next listed afterNext inFirst)

/-- What is left behind the first symbol is passed from the state that the symbol
leads to. -/
theorem Passes.after {stack : List Nat} {target : Nat} {front back rest : List String}
    {core : Core} {terminal : String} {count : Nat}
    (later : Passes table startIndex (target :: stack) back rest core.advance terminal count)
    (arrives : Continues table startIndex
      ⟨stack, ⟨front ++ back ++ rest, table.grammar.endMarker⟩⟩
      ⟨target :: stack, ⟨back ++ rest, table.grammar.endMarker⟩⟩) :
    Passes table startIndex stack (front ++ back) rest core terminal (count + 1) := by
  rcases later with accepts | ⟨last, above, continues, dropped, records⟩
  · exact .inl (accepts.of_continues arrives)
  · refine .inr ⟨last, above, arrives.trans continues, ?_, records⟩
    rw [← List.tail_drop, dropped, List.tail_cons]

/-- The run over a word that the symbols behind a dot yield, by the derivation
tree of the word. -/
theorem passes_of_yields (generated : table.Generated policy) (none : table.conflicts = [])
    (readable : table.grammar.Readable) {form : List Symbol} {word : List String}
    (yields : table.grammar.Yields form word) :
    ∀ {core : Core} {terminal : String} {top : Nat} {below : List Nat} {rest : List String},
      table.Records top (core, some terminal) → core.rhs.drop core.dot = form →
      (TerminalStream.mk rest table.grammar.endMarker).terminal = terminal →
      Passes table startIndex (top :: below) word rest core terminal form.length := by
  induction yields with
  | nil =>
      intro core terminal top below rest records behindDot follows
      obtain ⟨production, -, -, sameRhs, inRange⟩ := (generated.fits_of_records records).1
      rw [← sameRhs] at inRange
      change core.dot ≤ core.rhs.length at inRange
      have beyond : core.rhs.length ≤ core.dot := List.drop_eq_nil_iff.1 behindDot
      have same : core.completed = core := by
        rw [Core.completed, Nat.le_antisymm beyond inRange]
      exact .inr ⟨top, below, .refl, rfl, same ▸ records⟩
  | @terminal name form word _ inductionHypothesis =>
      intro core terminal top below rest records behindDot follows
      have next := Core.next?_of_drop behindDot
      have behindNext : core.advance.rhs.drop core.advance.dot = form :=
        Core.drop_succ_of_drop behindDot
      obtain ⟨target, edge⟩ := generated.edge_of_records records next
      have shifts : Continues table startIndex
          ⟨top :: below, ⟨[name] ++ word ++ rest, table.grammar.endMarker⟩⟩
          ⟨target :: top :: below, ⟨word ++ rest, table.grammar.endMarker⟩⟩ :=
        .single (step_shift generated none edge)
      have later : Passes table startIndex (target :: top :: below) word rest core.advance
          terminal form.length :=
        inductionHypothesis (edge.records_advance records next) behindNext follows
      exact later.after shifts
  | @nonterminal production form front back member _ restYields innerHypothesis
      restHypothesis =>
      intro core terminal top below rest records behindDot follows
      obtain ⟨index, found⟩ := List.getElem?_of_mem member
      have next := Core.next?_of_drop behindDot
      have behindNext : core.advance.rhs.drop core.advance.dot = form :=
        Core.drop_succ_of_drop behindDot
      obtain ⟨target, edge⟩ := generated.edge_of_records records next
      have wanted := records_start generated readable records follows found behindDot restYields
      have inner : Passes table startIndex (top :: below) front (back ++ rest)
          (.start index production) _ production.rhs.length :=
        innerHypothesis wanted rfl rfl
      rw [Passes, ← List.append_assoc] at inner
      rcases inner with accepts | ⟨last, above, reads, dropped, complete⟩
      · exact .inl accepts
      rcases step_reduce generated none complete (Core.next?_completed _) found dropped edge
        with accepted | reduces
      · exact .inl ⟨_, reads, accepted⟩
      have later : Passes table startIndex (target :: top :: below) back rest core.advance
          terminal form.length :=
        restHypothesis (edge.records_advance records next) behindNext follows
      exact later.after (reads.trans (Continues.single reduces))

end Walk

/-- A table without conflicts accepts every word that the right-hand side of the
start production derives. -/
theorem exists_walk_of_derives {endMarker source : String} {grammar : Grammar}
    {table : ParseTable} {index : Nat} {production : Production} {word : List String}
    (parsed : Grammar.parse endMarker source = .ok grammar)
    (generated : ParseTable.generate .fail grammar = .ok table)
    (started : grammar.startProduction? = some (index, production))
    (derives : grammar.Derives production.rhs (word.map .terminal)) :
    ∃ limit before, ∀ enough, limit ≤ enough →
      walk enough table word = some (.ok (before ++ [.accept])) := by
  obtain ⟨rfl, complete⟩ := ParseTable.generated_of_generateWith generated
  have none : table.conflicts = [] := complete.conflicts_eq_nil rfl
  have readable := Grammar.parse_readable parsed
  have found := Grammar.getElem?_of_startProduction? started
  have yields := Grammar.derives_iff_yields.1 derives
  have wanted : table.Records 0 (.start index production, some table.grammar.endMarker) :=
    (complete.initial_records_iff started).2
      ⟨some table.grammar.endMarker, fun _ same => (Option.some.inj same).symm, .refl⟩
  have accepts : Walk.Accepts table index ⟨[0], ⟨word, table.grammar.endMarker⟩⟩ := by
    have passes : Walk.Passes table index [0] word [] (.start index production)
        table.grammar.endMarker production.rhs.length :=
      Walk.passes_of_yields complete none readable yields wanted rfl rfl
    rw [Walk.Passes, List.append_nil] at passes
    rcases passes with accepts | ⟨last, below, reads, dropped, records⟩
    · exact accepts
    · refine ⟨_, reads, ?_⟩
      have entry := complete.action?_of_candidate none
        (ParseTable.candidate_reduce_iff.2 ⟨_, records, Core.next?_completed _, rfl⟩)
      exact Walk.step_eq_accepted.2 (.reduce entry found dropped rfl)
  obtain ⟨limit, before, ran⟩ := accepts.exists_run []
  refine ⟨limit, before, fun enough atLeast => ?_⟩
  rw [walk_eq_run started]
  exact Walk.run_mono atLeast ran

/-- The acceptance of a sum, by its derivation tree. -/
theorem exists_walk_of_sum :
    ∃ table, ParseTable.generate .fail Grammar.sums = .ok table ∧
      ∃ limit before, ∀ enough, limit ≤ enough →
        walk enough table ["n", "+", "n"] = some (.ok (before ++ [.accept])) := by
  obtain ⟨table, generated⟩ := ParseTable.exists_generate_sums
  have summand : Grammar.sums.Yields [.nonterminal "E", .terminal "+", .terminal "n"]
      ["n", "+", "n"] :=
    @Grammar.Yields.nonterminal _ ⟨"E", [.terminal "n"], false⟩ _ _ _ (by decide)
      (.terminal "n" .nil) (.terminal "+" (.terminal "n" .nil))
  have sum : Grammar.sums.Yields [.nonterminal "E"] ["n", "+", "n"] :=
    @Grammar.Yields.nonterminal _
      ⟨"E", [.nonterminal "E", .terminal "+", .terminal "n"], false⟩ _ _ _ (by decide)
      summand .nil
  exact ⟨table, generated, exists_walk_of_derives Grammar.parse_sums generated
    Grammar.startProduction?_sums (Grammar.derives_iff_yields.2 sum)⟩

end CanonicalLR
