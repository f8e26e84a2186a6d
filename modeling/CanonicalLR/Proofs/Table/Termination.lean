import CanonicalLR.Proofs.Table.Lookup

/-!
Contract: that the construction of an automaton ends.

Owns:
- the completion of waiting states when nothing limits it;
- that a run which no state waits behind is all of it, whatever the limit was;
- that every construction ends, with the number of states as the measure.

Does not own: what makes the states finite in number.
-/

namespace CanonicalLR

namespace Construction

/-- Waiting states are completed until there are none, or until one of them fails: what a
run comes to when nothing limits it, after that many states. -/
inductive Exhausts (lookup : StateLookup) (policy : ConflictPolicy) (closure : Closing) :
    Construction → Nat → Except GenerationError Construction → Prop where
  | finished {construction : Construction}
      (noneWaits : construction.states[construction.rows.size]? = none) :
      Exhausts lookup policy closure construction 0 (.ok construction)
  | failed {construction : Construction} {state : State} {cause : GenerationError}
      (waits : construction.states[construction.rows.size]? = some state)
      (failed : construction.complete lookup policy closure state = .error cause) :
      Exhausts lookup policy closure construction 1 (.error cause)
  | completed {construction extended : Construction} {state : State} {count : Nat}
      {outcome : Except GenerationError Construction}
      (waits : construction.states[construction.rows.size]? = some state)
      (completed : construction.complete lookup policy closure state = .ok extended)
      (rest : Exhausts lookup policy closure extended count outcome) :
      Exhausts lookup policy closure construction (count + 1) outcome

variable {lookup : StateLookup} {policy : ConflictPolicy} {closure : Closing}
  {construction : Construction}

/-- A run exhausts the waiting states, or its limit leaves one of them. -/
theorem exhausts_or_waits (limit : Nat) (construction : Construction) :
    (∃ count ≤ limit, Exhausts lookup policy closure construction count
        (run lookup policy closure limit construction)) ∨
      ∃ final state, run lookup policy closure limit construction = .ok final ∧
        final.states[final.rows.size]? = some state := by
  induction limit generalizing construction with
  | zero =>
      cases waits : construction.states[construction.rows.size]? with
      | none => exact .inl ⟨0, Nat.le_refl 0, .finished waits⟩
      | some state => exact .inr ⟨construction, state, rfl, waits⟩
  | succ limit inductionHypothesis =>
      cases waits : construction.states[construction.rows.size]? with
      | none =>
          rw [run_of_noneWaits waits]
          exact .inl ⟨0, Nat.zero_le _, .finished waits⟩
      | some state =>
          rw [run_succ_of_waits waits]
          cases completed : construction.complete lookup policy closure state with
          | error cause => exact .inl ⟨1, by omega, .failed waits completed⟩
          | ok extended =>
              rcases inductionHypothesis extended with ⟨count, atMost, exhausts⟩ | waiting
              · exact .inl ⟨count + 1, by omega, .completed waits completed exhausts⟩
              · exact .inr waiting

/-- No limit changes what exhausting the waiting states comes to, if it suffices. -/
theorem Exhausts.run_eq {count limit : Nat} {outcome : Except GenerationError Construction}
    (exhausts : Exhausts lookup policy closure construction count outcome)
    (enough : count ≤ limit) : run lookup policy closure limit construction = outcome := by
  induction exhausts generalizing limit with
  | finished noneWaits => exact run_of_noneWaits noneWaits limit
  | failed waits failed =>
      obtain ⟨spare, rfl⟩ := Nat.exists_eq_add_of_le' enough
      rw [run_succ_of_waits waits, failed]
      rfl
  | @completed _ _ _ count _ waits completed _ inductionHypothesis =>
      obtain ⟨spare, rfl⟩ := Nat.exists_eq_add_of_le' enough
      rw [← Nat.add_assoc, run_succ_of_waits waits, completed]
      exact inductionHypothesis (Nat.le_add_left count spare)

end Construction

namespace ParseTable

open Construction

variable {lookup : StateLookup} {grammar : Grammar}

/-- From the first state a run exhausts the waiting states: each of them is another set of
items over the grammar. -/
theorem exhausts_of_initial (policy : ConflictPolicy) {index : Nat} {production : Production}
    {first : Construction}
    (started : grammar.startProduction? = some (index, production))
    (begun : Construction.initial lookup (close grammar (Sets.ofGrammar grammar))
      (.start index production {grammar.endMarker}) = .ok first) :
    ∃ count ≤ limit grammar,
      Exhausts lookup policy (close grammar (Sets.ofGrammar grammar)) first count
        (run lookup policy (close grammar (Sets.ofGrammar grammar)) (limit grammar) first) := by
  rcases exhausts_or_waits (limit grammar) first with exhausts | ⟨final, state, ran, waits⟩
  · exact exhausts
  · obtain ⟨_, _, -, -, finished, -⟩ := coherent_of_run started begun ran
    have inRange := (Array.getElem?_eq_some_iff.1 waits).1
    omega

/-- More room than the limit leaves changes nothing. -/
theorem draft_limit_add (lookup : StateLookup) (policy : ConflictPolicy) (grammar : Grammar)
    (extra : Nat) :
    draft lookup policy (limit grammar + extra) grammar = generateWith lookup policy grammar := by
  unfold generateWith
  rw [draft_eq, draft_eq]
  cases checked : grammar.checkedStart with
  | error cause => rfl
  | ok start =>
      obtain ⟨index, production⟩ := start
      obtain ⟨started, -⟩ := Grammar.checkedStart_eq_ok.1 checked
      simp only [bind, Except.bind]
      cases begun : Construction.initial lookup (close grammar (Sets.ofGrammar grammar))
          (.start index production {grammar.endMarker}) with
      | error cause => rfl
      | ok first =>
          obtain ⟨count, atMost, exhausts⟩ := exhausts_of_initial policy started begun
          have moreRoom : count ≤ limit grammar + extra :=
            atMost.trans (Nat.le_add_right _ extra)
          simp only [exhausts.run_eq moreRoom]

/-- Generation ends, for every grammar and under either policy. Closing any seeds expands
finitely many items. From the first state finitely many states are completed, until none
waits or one of them fails. And no limit beyond the computed one changes the outcome. -/
theorem generation_ends (lookup : StateLookup) (policy : ConflictPolicy) (grammar : Grammar) :
    (∀ seeds, ∃ count, Closure.Drains grammar (Sets.ofGrammar grammar)
      (Closure.mergeAll ∅ seeds).1 (Closure.mergeAll ∅ seeds).2 count
      (close grammar (Sets.ofGrammar grammar) seeds)) ∧
    (∀ index production first, grammar.startProduction? = some (index, production) →
      Construction.initial lookup (close grammar (Sets.ofGrammar grammar))
        (.start index production {grammar.endMarker}) = .ok first →
      ∃ count ≤ limit grammar,
        Exhausts lookup policy (close grammar (Sets.ofGrammar grammar)) first count
          (run lookup policy (close grammar (Sets.ofGrammar grammar)) (limit grammar) first)) ∧
    ∀ extra,
      draft lookup policy (limit grammar + extra) grammar = generateWith lookup policy grammar :=
  ⟨exists_drains_close grammar (Sets.ofGrammar grammar),
    fun _ _ _ started begun => exhausts_of_initial policy started begun,
    draft_limit_add lookup policy grammar⟩

/-- The sample made by hand has a first state, and from there the states are exhausted. -/
theorem generation_ends_optional :
    ∃ first, Construction.initial (.hashed stateHash)
        (close Grammar.optional (Sets.ofGrammar Grammar.optional))
        (.start 0 ⟨"S", [.nonterminal "A", .terminal "a"], true⟩ {"eof"}) = .ok first ∧
      ∃ count final, Exhausts (.hashed stateHash) .report
        (close Grammar.optional (Sets.ofGrammar Grammar.optional)) first count (.ok final) := by
  obtain ⟨table, generation, -⟩ := exists_generate_optional
  have drafted : draft (.hashed stateHash) .report (limit Grammar.optional) Grammar.optional =
      .ok table := generation
  obtain ⟨_, _, first, final, started, -, -, begun, ran, -⟩ := draft_eq_ok.1 drafted
  obtain ⟨count, -, exhausts⟩ :=
    (generation_ends (.hashed stateHash) .report Grammar.optional).2.1 _ _ first started begun
  rw [ran] at exhausts
  have isStart : Grammar.optional.startProduction? =
      some (0, ⟨"S", [.nonterminal "A", .terminal "a"], true⟩) := by
    decide
  cases isStart.symm.trans started
  exact ⟨first, begun, count, final, exhausts⟩

end ParseTable

end CanonicalLR
