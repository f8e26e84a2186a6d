import CanonicalLR.Proofs.Derivation
import CanonicalLR.Proofs.Table.Lookup
import CanonicalLR.Proofs.Table.Path
import CanonicalLR.Proofs.Walk.Run

/-!
Contract: what an accepting run has read.

Owns:
- what stands below a right-hand side that is reduced;
- the invariant of a run, one step at a time;
- that the steps of an accepting run are a rightmost derivation, read backwards.

Does not own: which inputs are accepted.
-/

namespace CanonicalLR

namespace Walk

open ParseTable Grammar

variable {policy : ConflictPolicy} {table : ParseTable} {startIndex : Nat} {input : List String}

/-- The stack spells a form that, with the rest of the input behind it, derives
the input by the productions of the steps so far, read backwards. -/
structure Reading (table : ParseTable) (input : List String) (trace : List Step)
    (configuration : Configuration) : Prop where
  endMarker_eq : configuration.stream.endMarker = table.grammar.endMarker
  shifted_eq : trace.reverse.filterMap Step.shifted? ++ configuration.stream.remaining = input
  unaccepted : .accept ∉ trace
  derivation : ∃ symbols, table.Path configuration.stack symbols ∧
    table.grammar.Rightmost (trace.filterMap Step.reduced?)
      (symbols ++ configuration.stream.remaining.map .terminal) (input.map .terminal)

/-- The first state alone spells nothing. -/
theorem reading_initial (table : ParseTable) (input : List String) :
    Reading table input [] ⟨[0], ⟨input, table.grammar.endMarker⟩⟩ where
  endMarker_eq := rfl
  shifted_eq := rfl
  unaccepted := List.not_mem_nil
  derivation := ⟨[], .initial, .refl _⟩

/-- The end marker stands behind no dot. -/
theorem not_edge_endMarker (generated : table.Generated policy) (readable : table.grammar.Readable)
    {source target : Nat} :
    ¬ table.Edge source (.terminal table.grammar.endMarker) target := by
  intro edge
  obtain ⟨production, member, inRhs⟩ := generated.exists_mem_rhs edge
  exact (readable.readable production member).2 inRhs

/-- A candidate reduction is by a production that an item has completed. -/
theorem exists_complete (generated : table.Generated policy) {top : Nat} {terminal : String}
    {index : Nat} (candidate : table.Candidate top terminal (.reduce index))
    {production : Production} (found : table.grammar.productions[index]? = some production) :
    ∃ core, table.Records top (core, some terminal) ∧ core.rhs = production.rhs ∧
      core.dot = production.rhs.length ∧ core.restart = .start index production := by
  obtain ⟨core, records, complete, rfl⟩ := candidate_reduce_iff.1 candidate
  have fits := (generated.fits_of_records records).1
  obtain ⟨-, sameRhs, inRange⟩ := fits.agrees found
  have beyond : core.rhs.length ≤ core.dot := List.getElem?_eq_none_iff.1 complete
  exact ⟨core, records, sameRhs, Nat.le_antisymm inRange (sameRhs ▸ beyond),
    fits.restart_eq found⟩

/-- A candidate reduction is by a production that the stack ends with. -/
theorem exists_handle (generated : table.Generated policy) {top : Nat} {below : List Nat}
    {symbols : List Symbol} (path : table.Path (top :: below) symbols) {terminal : String}
    {index : Nat} (candidate : table.Candidate top terminal (.reduce index))
    {production : Production} (found : table.grammar.productions[index]? = some production) :
    ∃ front, symbols = front ++ production.rhs := by
  obtain ⟨core, records, sameRhs, atEnd, -⟩ := exists_complete generated candidate found
  obtain ⟨front, spelled⟩ := path.exists_front generated records
  rw [sameRhs, atEnd, List.take_length] at spelled
  exact ⟨front, spelled⟩

section Below

variable {top index : Nat} {below : List Nat} {symbols : List Symbol} {terminal : String}
  {production : Production} (generated : table.Generated policy)
  (path : table.Path (top :: below) symbols)
  (entry : table.action? top terminal = some (.reduce index))
  (found : table.grammar.productions[index]? = some production)

include generated path entry found

/-- Without the states of a right-hand side that is reduced the stack is a path still. -/
theorem exists_path_below {stack : List Nat}
    (dropped : (top :: below).drop production.rhs.length = stack) :
    ∃ front, table.Path stack front := by
  have candidate := generated.candidate_of_action? _ _ _ entry
  obtain ⟨front, rfl⟩ := exists_handle generated path candidate found
  exact ⟨front, dropped ▸ path.drop⟩

/-- The production that a reduction goes back to was called for in the state below. -/
theorem records_below {base : Nat} {lower : List Nat}
    (dropped : (top :: below).drop production.rhs.length = base :: lower) :
    table.Records base (.start index production, some terminal) := by
  obtain ⟨core, records, -, atEnd, isStart⟩ :=
    exists_complete generated (generated.candidate_of_action? _ _ _ entry) found
  obtain ⟨_, _, droppedToo, wanted⟩ := path.exists_base generated records
  rw [atEnd, dropped] at droppedToo
  cases droppedToo
  rwa [isStart] at wanted

end Below

namespace Reading

variable {trace : List Step} {configuration later : Configuration} {taken : Step}

theorem shift {top target : Nat} {below : List Nat} {name : String} {rest : List String}
    {endMarker : String}
    (reading : Reading table input trace ⟨top :: below, ⟨name :: rest, endMarker⟩⟩)
    (edge : table.Edge top (.terminal name) target) :
    Reading table input (.shift name target :: trace)
      ⟨target :: top :: below, ⟨rest, endMarker⟩⟩ where
  endMarker_eq := reading.endMarker_eq
  shifted_eq := by
    rw [List.reverse_cons, List.filterMap_append, List.append_assoc]
    exact reading.shifted_eq
  unaccepted := by
    rw [List.mem_cons, not_or]
    exact ⟨by simp, reading.unaccepted⟩
  derivation := by
    obtain ⟨symbols, path, derivation⟩ := reading.derivation
    refine ⟨symbols ++ [.terminal name], path.edge edge, ?_⟩
    rw [List.append_assoc]
    exact derivation

/-- An input without the end marker is read when the end marker comes. -/
theorem isAtEnd (absent : table.grammar.endMarker ∉ input)
    (reading : Reading table input trace configuration)
    (same : configuration.stream.terminal = table.grammar.endMarker) :
    configuration.stream.isAtEnd := by
  have shifted := reading.shifted_eq
  obtain ⟨stack, remaining, endMarker⟩ := configuration
  cases remaining with
  | nil => rfl
  | cons name rest =>
      obtain rfl : name = table.grammar.endMarker := same
      refine absurd ?_ absent
      rw [← shifted]
      exact List.mem_append_right _ List.mem_cons_self

/-- To reduce is to undo the step of a rightmost derivation. -/
theorem reduce {top index target : Nat} {below : List Nat} {stream : TerminalStream}
    {production : Production} {stack : List Nat}
    (reading : Reading table input trace ⟨stack, stream⟩)
    (found : table.grammar.productions[index]? = some production)
    (handle : ∀ symbols, table.Path stack symbols → ∃ front, symbols = front ++ production.rhs)
    (dropped : stack.drop production.rhs.length = top :: below)
    (edge : table.Edge top (.nonterminal production.lhs) target) :
    Reading table input (.reduce index target :: trace) ⟨target :: top :: below, stream⟩ where
  endMarker_eq := reading.endMarker_eq
  shifted_eq := by
    rw [List.reverse_cons, List.filterMap_append, List.append_assoc]
    exact reading.shifted_eq
  unaccepted := by
    rw [List.mem_cons, not_or]
    exact ⟨by simp, reading.unaccepted⟩
  derivation := by
    obtain ⟨symbols, path, derivation⟩ := reading.derivation
    obtain ⟨front, rfl⟩ := handle symbols path
    have rest := path.drop
    rw [dropped] at rest
    refine ⟨front ++ [.nonterminal production.lhs], rest.edge edge, ?_⟩
    rw [List.append_assoc]
    exact .step found front stream.remaining derivation

/-- One step keeps the invariant. -/
theorem step (generated : table.Generated policy) (readable : table.grammar.Readable)
    (reading : Reading table input trace configuration)
    (stepped : Walk.step table startIndex configuration = .next taken later) :
    Reading table input (taken :: trace) later := by
  cases step_eq_next.1 stepped with
  | @shift top target below stream entry =>
      have edge := (generated.candidate_of_action? _ _ _ entry).edge
      obtain ⟨remaining, endMarker⟩ := stream
      have sameMarker : endMarker = table.grammar.endMarker := reading.endMarker_eq
      cases remaining with
      | nil =>
          change table.Edge top (.terminal endMarker) target at edge
          rw [sameMarker] at edge
          exact absurd edge (not_edge_endMarker generated readable)
      | cons name rest => exact reading.shift edge
  | reduce entry found dropped _ goto =>
      have candidate := generated.candidate_of_action? _ _ _ entry
      have edge := (generated.goto?_eq_some _ _ _).1 goto
      exact reading.reduce found
        (fun symbols path => exists_handle generated path candidate found) dropped edge

/-- So do all steps of a run. -/
theorem steps (generated : table.Generated policy) (readable : table.grammar.Readable)
    {others : List Step} (reading : Reading table input trace configuration)
    (steps : Steps table startIndex configuration others later) :
    Reading table input (others.reverse ++ trace) later := by
  induction steps generalizing trace with
  | nil => exact reading
  | cons stepped _ inductionHypothesis =>
      rw [List.reverse_cons, List.append_assoc]
      exact inductionHypothesis (reading.step generated readable stepped)

/-- To accept is to undo the first step of a derivation of all the input. -/
theorem accepted (generated : table.Generated policy)
    (reading : Reading table input trace configuration)
    (stepped : Walk.step table startIndex configuration = .accepted) :
    trace.reverse.filterMap Step.shifted? = input ∧
      ∃ production, table.grammar.productions[startIndex]? = some production ∧
        table.grammar.Rightmost (trace.filterMap Step.reduced?) production.rhs
          (input.map .terminal) := by
  obtain ⟨symbols, path, derivation⟩ := reading.derivation
  have read := reading.shifted_eq
  cases step_eq_accepted.1 stepped with
  | @reduce top base below stream production entry found dropped atEnd =>
      have candidate := generated.candidate_of_action? _ _ _ entry
      obtain ⟨front, rfl⟩ := exists_handle generated path candidate found
      have empty : front = [] := by
        have rest := path.drop.length_eq
        rw [dropped] at rest
        exact List.length_eq_zero_iff.1 (Nat.succ.inj rest).symm
      have allRead : stream.remaining = [] := List.isEmpty_iff.1 atEnd
      simp only [allRead, List.append_nil] at read
      simp only [allRead, empty, List.map_nil, List.append_nil, List.nil_append] at derivation
      exact ⟨read, production, found, derivation⟩

/-- A run ends with what its last step accepts. -/
theorem run (generated : table.Generated policy) (readable : table.grammar.Readable)
    {limit : Nat} {steps : List Step} (reading : Reading table input trace configuration)
    (ran : Walk.run table startIndex limit trace configuration = some (.ok steps)) :
    ∃ before, steps = before ++ [.accept] ∧ .accept ∉ before ∧
      before.filterMap Step.shifted? = input ∧
      ∃ production, table.grammar.productions[startIndex]? = some production ∧
        table.grammar.Rightmost (before.filterMap Step.reduced?).reverse production.rhs
          (input.map .terminal) := by
  obtain ⟨others, final, steps, ends⟩ := run_ends table startIndex limit trace configuration
  rw [ran] at ends
  cases ends with
  | accepted _ stepped =>
      have final := reading.steps generated readable steps
      obtain ⟨read, production, found, derivation⟩ := final.accepted generated stepped
      have inOrder : (others.reverse ++ trace).reverse = trace.reverse ++ others := by simp
      rw [← inOrder]
      refine ⟨_, rfl, ?_, read, production, found, ?_⟩
      · rw [List.mem_reverse]
        exact final.unaccepted
      · rw [List.filterMap_reverse, List.reverse_reverse]
        exact derivation

end Reading

end Walk

/-- The steps of an accepting run read the input, accept once and last, and
reduce by the productions of a rightmost derivation that begins with the start
production. -/
theorem rightmost_of_walk {endMarker source : String} {grammar : Grammar}
    {policy : ConflictPolicy} {table : ParseTable} {limit : Nat} {input : List String}
    {steps : List Step} (parsed : Grammar.parse endMarker source = .ok grammar)
    (generated : ParseTable.generate policy grammar = .ok table)
    (walked : walk limit table input = some (.ok steps)) :
    steps.filterMap Step.shifted? = input ∧
      (∃ before, steps = before ++ [.accept] ∧ .accept ∉ before) ∧
      ∃ index production, grammar.startProduction? = some (index, production) ∧
        grammar.Rightmost (index :: (steps.filterMap Step.reduced?).reverse)
          [.nonterminal production.lhs] (input.map .terminal) ∧
        grammar.Derives production.rhs (input.map .terminal) := by
  obtain ⟨rfl, complete⟩ := ParseTable.generated_of_generateWith generated
  have readable := Grammar.parse_readable parsed
  obtain ⟨start, found, started⟩ := readable.startProduction?_eq
  rw [walk_eq_run started] at walked
  obtain ⟨before, rfl, unaccepted, read, production, foundToo, derivation⟩ :=
    (Walk.reading_initial table input).run complete readable walked
  rw [found] at foundToo
  cases foundToo
  have shifted : (before ++ [Step.accept]).filterMap Step.shifted? = input := by
    rw [List.filterMap_append, read]
    exact List.append_nil input
  have reduced : (before ++ [Step.accept]).filterMap Step.reduced? =
      before.filterMap Step.reduced? := by
    rw [List.filterMap_append]
    exact List.append_nil _
  refine ⟨shifted, ⟨before, rfl, unaccepted⟩, 0, start, started, ?_, derivation.derives⟩
  have first : table.grammar.Rightmost (before.filterMap Step.reduced?).reverse
      ([] ++ start.rhs ++ ([] : List String).map .terminal) (input.map .terminal) := by
    simpa using derivation
  rw [reduced]
  exact .step found [] [] first

/-- The derivation of a sum, read off the run over it. -/
theorem rightmost_of_walk_sum :
    ∃ table steps, ParseTable.generate .report Grammar.sums = .ok table ∧
      walk 7 table ["n", "+", "n"] = some (.ok steps) ∧
      Grammar.sums.Rightmost [0, 1, 2] [.nonterminal "S"] (["n", "+", "n"].map .terminal) := by
  have computed : (ParseTable.generateWith .scan .report Grammar.sums).toOption.bind
      (walk 7 · ["n", "+", "n"]) = some (.ok [.shift "n" 2, .reduce 2 1, .shift "+" 3,
        .shift "n" 4, .reduce 1 1, .accept]) := by
    decide +kernel
  obtain ⟨table, generated, walked⟩ := ParseTable.exists_generate_of_scan computed
  obtain ⟨-, -, index, production, started, derivation, -⟩ :=
    rightmost_of_walk Grammar.parse_sums generated walked
  cases Grammar.startProduction?_sums.symm.trans started
  exact ⟨table, _, generated, walked, derivation⟩

end CanonicalLR
