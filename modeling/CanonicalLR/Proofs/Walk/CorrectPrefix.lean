import CanonicalLR.Proofs.Canonical.Path
import CanonicalLR.Proofs.Canonical.ViablePrefix
import CanonicalLR.Proofs.Rightmost
import CanonicalLR.Proofs.Walk.Completeness
import CanonicalLR.Proofs.Walk.Soundness

/-!
Contract: the input that a run has gone through before it fails.

Owns:
- how what was read goes on to a word, by the items at the end of a path;
- that an action is called for only by a terminal that goes on to a word of the start
  production, behind everything that was read;
- that this is so at every step of a run, whatever the run comes to.

Does not own: which table has conflicts; whichever action has the entry will do.
-/

namespace CanonicalLR

namespace Grammar

variable {grammar : Grammar} {index : Nat} {first : Production}

/-- What was read and the next terminal begin a word that the form derives, and what was read
is one if nothing is left. -/
def BeginsWord (grammar : Grammar) (form : List Symbol) (read rest : List String) : Prop :=
  match rest with
  | [] => grammar.Derives form (read.map .terminal)
  | terminal :: _ =>
      ∃ word, grammar.Derives form ((read ++ terminal :: word).map .terminal)

/-! ### From valid items to words -/

/-- The form in which a production is expanded comes from the start production. -/
theorem Expands.derives {before : List Symbol} {expanded : Nat} {production : Production}
    {after : List String} (expands : grammar.Expands before expanded production after)
    (started : grammar.startProduction? = some (index, first)) :
    grammar.Derives first.rhs (before ++ production.rhs ++ after.map .terminal) := by
  obtain ⟨start, other, indices, otherStarted, found, derivation, isFirst⟩ := expands
  cases started.symm.trans otherStarted
  have whole := derivation.append (.step found before after (.refl _))
  cases split : indices ++ [expanded] with
  | nil => simp at split
  | cons head rest =>
      rw [split] at isFirst whole
      cases isFirst
      obtain ⟨opening, openingFound, -, derivation⟩ := whole.first_step
      cases openingFound.symm.trans (getElem?_of_startProduction? started)
      exact derivation.derives

/-- Behind the form of a valid item comes what stands behind its dot, and then terminals
of which the first one is that of the item. -/
theorem Valid.derives (readable : grammar.Readable) (productive : grammar.Productive)
    (started : grammar.startProduction? = some (index, first)) {form behind : List Symbol}
    {triple : Triple} (valid : grammar.Valid form triple)
    (behindDot : grammar.behind? triple = some behind) :
    ∃ after : List String, grammar.Derives first.rhs (form ++ behind ++ after.map .terminal) ∧
      (after ++ [grammar.endMarker]).head? = some triple.terminal := by
  obtain ⟨before, production, after, expands, -, rfl, next⟩ := valid.validItem readable productive
  have ⟨_, _, _, _, found, _⟩ := expands
  obtain ⟨other, otherFound, rfl⟩ := behind?_eq_some.1 behindDot
  cases found.symm.trans otherFound
  refine ⟨after, ?_, next⟩
  rw [List.append_assoc before, List.take_append_drop]
  exact expands.derives started

/-- Each form that a right-hand side derives goes without the end marker. -/
theorem Readable.endMarker_not_mem (readable : grammar.Readable)
    (started : grammar.startProduction? = some (index, first)) {word : List String}
    (derives : grammar.Derives first.rhs (word.map .terminal)) : grammar.endMarker ∉ word := by
  intro member
  have member := List.mem_map_of_mem (f := Symbol.terminal) member
  rcases derives.mem member with inFirst | ⟨production, inProductions, inRhs⟩
  · have found := List.mem_of_getElem? (getElem?_of_startProduction? started)
    exact (readable.readable first found).2 inFirst
  · exact (readable.readable production inProductions).2 inRhs

end Grammar

namespace ParseTable

variable {policy : ConflictPolicy} {table : ParseTable} {index : Nat} {first : Production}

namespace Path

variable (generated : table.Generated policy) (readable : table.grammar.Readable)
  (productive : table.grammar.Productive)
  (started : table.grammar.startProduction? = some (index, first)) {top : Nat} {below : List Nat}
  {form : List Symbol} (path : table.Path (top :: below) form) {front : List String}
  (yields : table.grammar.Yields form front) {terminal : String}

include generated readable productive started path yields

/-- Whatever the symbols of a path yield goes on with each terminal behind a dot. -/
theorem exists_word_of_edge {target : Nat} (edge : table.Edge top (.terminal terminal) target) :
    ∃ word : List String,
      table.grammar.Derives first.rhs ((front ++ terminal :: word).map .terminal) := by
  have startable := productive.startable readable
  obtain ⟨core, records, next⟩ := edge.exists_core
  obtain ⟨lookahead, records⟩ := generated.lively readable startable top core records
  have fits := (generated.fits_of_records records).1
  have ⟨production, found, _, sameRhs, _⟩ := fits
  obtain ⟨behind, drop⟩ := Core.exists_drop_of_next? next
  obtain ⟨after, derives, -⟩ := (path.valid_of_records generated readable startable records).derives
    readable productive started (fits.behind? lookahead)
  have inRhs : behind ⊆ production.rhs := by
    rw [← Core.drop_succ_of_drop drop, ← sameRhs]
    exact List.drop_subset _ _
  obtain ⟨middle, behindYields⟩ := productive.exists_yields (List.mem_of_getElem? found) inRhs
  have word := yields.append (.terminal terminal (behindYields.append (.of_terminals after)))
  refine ⟨middle ++ after, ?_⟩
  rw [drop, List.append_assoc] at derives
  exact derives.trans (Grammar.derives_iff_yields.2 word)

/-- It goes on with the lookahead of each complete item, or ends before the end marker. -/
theorem exists_word_of_complete {core : Core}
    (records : table.Records top (core, some terminal)) (complete : core.next? = none) :
    ∃ word : List String, table.grammar.Derives first.rhs ((front ++ word).map .terminal) ∧
      (word ++ [table.grammar.endMarker]).head? = some terminal := by
  have startable := productive.startable readable
  have behindDot := (generated.fits_of_records records).1.behind? terminal
  rw [List.drop_eq_nil_of_le (List.getElem?_eq_none_iff.1 complete)] at behindDot
  obtain ⟨after, derives, next⟩ :=
    (path.valid_of_records generated readable startable records).derives readable productive
      started behindDot
  refine ⟨after, ?_, next⟩
  rw [List.append_nil] at derives
  exact derives.trans (Grammar.derives_iff_yields.2 (yields.append (.of_terminals after)))

/-- What was read goes on with each terminal that calls for an action. -/
theorem exists_continuation {action : Action}
    (candidate : table.Candidate top terminal action) :
    ∃ word : List String, table.grammar.Derives first.rhs ((front ++ word).map .terminal) ∧
      (word ++ [table.grammar.endMarker]).head? = some terminal := by
  cases action with
  | shift target =>
      obtain ⟨word, derives⟩ :=
        path.exists_word_of_edge generated readable productive started yields candidate.edge
      exact ⟨terminal :: word, derives, rfl⟩
  | reduce reduced =>
      obtain ⟨core, records, complete, -⟩ := candidate_reduce_iff.1 candidate
      exact path.exists_word_of_complete generated readable productive started yields records
        complete

end Path

end ParseTable

namespace Walk

open ParseTable Grammar

variable {policy : ConflictPolicy} {table : ParseTable} {startIndex : Nat} {input : List String}

/-! ### Every step of a run -/

/-- A step is taken from the configuration, or the configuration is accepted. -/
def Acts (table : ParseTable) (startIndex : Nat) (configuration : Configuration) : Prop :=
  (∃ taken later, step table startIndex configuration = .next taken later) ∨
    step table startIndex configuration = .accepted

/-- The symbols on the stack yield what was read. -/
theorem Reading.yields {trace : List Step} {configuration : Configuration}
    (reading : Reading table input trace configuration) :
    ∃ symbols, table.Path configuration.stack symbols ∧
      table.grammar.Yields symbols (trace.reverse.filterMap Step.shifted?) := by
  obtain ⟨symbols, path, derivation⟩ := reading.derivation
  obtain ⟨consumed, rest, read, yields, restYields⟩ :=
    (derives_iff_yields.1 derivation.derives).split
  rw [Yields.eq_of_terminals restYields, ← reading.shifted_eq] at read
  rw [List.append_cancel_right read]
  exact ⟨symbols, path, yields⟩

/-- A step that does not fail has an entry for the next terminal. -/
theorem Acts.exists_action? {configuration : Configuration}
    (acts : Acts table startIndex configuration) :
    ∃ top below action, configuration.stack = top :: below ∧
      table.action? top configuration.stream.terminal = some action := by
  rcases acts with ⟨taken, later, stepped⟩ | accepted
  · cases step_eq_next.1 stepped with
    | shift entry => exact ⟨_, _, _, rfl, entry⟩
    | reduce entry => exact ⟨_, _, _, rfl, entry⟩
  · cases step_eq_accepted.1 accepted with
    | reduce entry => exact ⟨_, _, _, rfl, entry⟩

/-- A configuration is acted on only if what was read goes on with the next terminal. -/
theorem Reading.beginsWord {start : Production} {trace : List Step}
    {configuration : Configuration} (generated : table.Generated policy)
    (readable : table.grammar.Readable) (productive : table.grammar.Productive)
    (started : table.grammar.startProduction? = some (startIndex, start))
    (absent : table.grammar.endMarker ∉ input)
    (reading : Reading table input trace configuration)
    (acts : Acts table startIndex configuration) :
    table.grammar.BeginsWord start.rhs (trace.reverse.filterMap Step.shifted?)
      configuration.stream.remaining := by
  obtain ⟨symbols, path, yields⟩ := reading.yields
  obtain ⟨top, below, action, isStack, entry⟩ := acts.exists_action?
  rw [isStack] at path
  obtain ⟨word, derives, next⟩ := path.exists_continuation generated readable productive started
    yields (generated.candidate_of_action? _ _ _ entry)
  have read := reading.shifted_eq
  have sameMarker := reading.endMarker_eq
  obtain ⟨stack, remaining, endMarker⟩ := configuration
  cases remaining with
  | nil =>
      cases word with
      | nil => simpa [BeginsWord] using derives
      | cons name rest =>
          obtain rfl : name = table.grammar.endMarker :=
            (Option.some.inj next).trans sameMarker
          refine absurd ?_ (readable.endMarker_not_mem started derives)
          exact List.mem_append_right _ List.mem_cons_self
  | cons terminal others =>
      cases word with
      | nil =>
          obtain rfl : table.grammar.endMarker = terminal := Option.some.inj next
          refine absurd ?_ absent
          rw [← read]
          exact List.mem_append_right _ List.mem_cons_self
      | cons name rest =>
          obtain rfl : name = terminal := Option.some.inj next
          exact ⟨rest, derives⟩

end Walk

/-- No step goes beyond the first terminal that is wrong: before a step that does not
fail the terminals that were read, and with them the next one, begin a word of the start
production, and they are one if nothing is left to read. The steps of a run are such steps under
any limit and whatever it comes to, and so is the one that accepts. -/
theorem exists_word_of_step {endMarker source : String} {grammar : Grammar}
    {policy : ConflictPolicy} {table : ParseTable} {index : Nat} {production : Production}
    {input : List String} (parsed : Grammar.parse endMarker source = .ok grammar)
    (productive : ∀ name ∈ grammar.nonterminals,
      ∃ word : List String, grammar.Derives [.nonterminal name] (word.map .terminal))
    (generation : ParseTable.generate policy grammar = .ok table)
    (started : grammar.startProduction? = some (index, production))
    (absent : grammar.endMarker ∉ input) :
    (∀ configuration,
      Walk.Continues table index ⟨[0], ⟨input, grammar.endMarker⟩⟩ configuration →
      Walk.Acts table index configuration →
      ∃ consumed, input = consumed ++ configuration.stream.remaining ∧
        grammar.BeginsWord production.rhs consumed configuration.stream.remaining) ∧
      ∀ limit, ∃ taken final,
        Walk.Steps table index ⟨[0], ⟨input, grammar.endMarker⟩⟩ taken final ∧
          Walk.Ends table index limit taken final (walk limit table input) ∧
          ∀ front back, taken = front ++ back →
            back ≠ [] ∨ Walk.step table index final = .accepted →
            ∃ rest, input = front.filterMap Step.shifted? ++ rest ∧
              grammar.BeginsWord production.rhs (front.filterMap Step.shifted?) rest := by
  obtain ⟨rfl, generated⟩ := ParseTable.generated_of_generateWith generation
  have readable := Grammar.parse_readable parsed
  have inFront {taken : List Step} {configuration : Walk.Configuration}
      (steps : Walk.Steps table index ⟨[0], ⟨input, table.grammar.endMarker⟩⟩ taken configuration)
      (acts : Walk.Acts table index configuration) :
      input = taken.filterMap Step.shifted? ++ configuration.stream.remaining ∧
        table.grammar.BeginsWord production.rhs (taken.filterMap Step.shifted?)
          configuration.stream.remaining := by
    have reading := (Walk.reading_initial table input).steps generated readable steps
    have inOrder : (taken.reverse ++ []).reverse = taken := by simp
    rw [← inOrder]
    exact ⟨reading.shifted_eq.symm, reading.beginsWord generated readable
      (readable.productive productive) started absent acts⟩
  constructor
  · intro configuration reached acts
    obtain ⟨taken, steps⟩ := reached.exists_steps
    exact ⟨_, inFront steps acts⟩
  · intro limit
    obtain ⟨taken, final, steps, ends⟩ := walk_ends started limit input
    refine ⟨taken, final, steps, ends, ?_⟩
    rintro front back rfl goesOn
    obtain ⟨between, before, behind⟩ := steps.split
    refine ⟨between.stream.remaining, inFront before ?_⟩
    cases behind with
    | nil => exact .inr (goesOn.resolve_left fun further => further rfl)
    | cons stepped _ => exact .inl ⟨_, _, stepped⟩

/-- The reduction of the first summand, when a second one may still follow; and the run, which
fails at the second sign. -/
theorem exists_word_of_step_sum :
    ∃ table, ParseTable.generate .report Grammar.sums = .ok table ∧
      Walk.step table 0 ⟨[2, 0], ⟨["+", "+"], "eof"⟩⟩ =
        .next (.reduce 2 1) ⟨[1, 0], ⟨["+", "+"], "eof"⟩⟩ ∧
      (∃ rest, Grammar.sums.Derives [.nonterminal "E"] (("n" :: "+" :: rest).map .terminal)) ∧
      ∃ taken final, Walk.Steps table 0 ⟨[0], ⟨["n", "+", "+"], "eof"⟩⟩ taken final ∧
        Walk.Ends table 0 4 taken final (some (.error (.missingAction 3 "+"))) := by
  have computed : (ParseTable.generateWith .scan .report Grammar.sums).toOption.bind
      (fun table => some (Walk.step table 0 ⟨[0], ⟨["n", "+", "+"], "eof"⟩⟩,
        Walk.step table 0 ⟨[2, 0], ⟨["+", "+"], "eof"⟩⟩, walk 4 table ["n", "+", "+"])) =
      some (.next (.shift "n" 2) ⟨[2, 0], ⟨["+", "+"], "eof"⟩⟩,
        .next (.reduce 2 1) ⟨[1, 0], ⟨["+", "+"], "eof"⟩⟩,
        some (.error (.missingAction 3 "+"))) := by
    decide +kernel
  obtain ⟨table, generation, steps⟩ := ParseTable.exists_generate_of_scan computed
  obtain ⟨shifts, others⟩ := Prod.mk.inj (Option.some.inj steps)
  obtain ⟨reduces, walked⟩ := Prod.mk.inj others
  obtain ⟨acted, runs⟩ := exists_word_of_step Grammar.parse_sums Grammar.sums_productive generation
    Grammar.startProduction?_sums (show Grammar.sums.endMarker ∉ ["n", "+", "+"] by decide)
  obtain ⟨consumed, read, rest, derives⟩ :=
    acted _ (Walk.Continues.single shifts) (.inl ⟨_, _, reduces⟩)
  obtain rfl : consumed = ["n"] := (List.append_cancel_right read).symm
  obtain ⟨taken, final, toFinal, ends, -⟩ := runs 4
  rw [walked] at ends
  exact ⟨table, generation, reduces, ⟨rest, derives⟩, taken, final, toFinal, ends⟩

end CanonicalLR
