import CanonicalLR.Proofs.Table.Lookup

/-!
Contract: the two policies on conflicts, run side by side.

Owns:
- what the policy `fail` makes of a value that the policy `report` has come to;
- that writing a row, completing a state and a whole run under `fail` come to just that;
- that conflicts are only ever added, so the first one found stays the first one.

Does not own: which conflicts there are.

Under `fail` a run ends in the middle of a state, and under `report` it goes on. Up to the
first conflict both are the same construction; behind it only the list grows.
-/

namespace CanonicalLR

/-- The value, unless there are conflicts: then the first of them is the error. -/
def unlessConflict {Value : Type} (conflicts : List Conflict) (value : Value) :
    Except GenerationError Value :=
  match conflicts with
  | [] => .ok value
  | conflict :: _ => .error (.ambiguity conflict)

theorem unlessConflict_eq_ok {Value : Type} {conflicts : List Conflict} {value result : Value} :
    unlessConflict conflicts value = .ok result ↔ conflicts = [] ∧ value = result := by
  cases conflicts <;> simp [unlessConflict]

theorem unlessConflict_eq_error {Value : Type} {conflicts : List Conflict} {value : Value}
    {cause : GenerationError} :
    unlessConflict conflicts value = .error cause ↔
      ∃ conflict, conflicts.head? = some conflict ∧ cause = .ambiguity conflict := by
  cases conflicts <;> simp [unlessConflict, eq_comm]

namespace Construction

theorem writeActions_fail (state : Nat) (actions : NameMap Action)
    (candidates : List (String × Action)) :
    writeActions .fail state actions candidates =
      writeActions .report state actions candidates >>= fun written =>
        unlessConflict written.2 written := by
  induction candidates generalizing actions with
  | nil => rfl
  | cons candidate rest inductionHypothesis =>
      obtain ⟨terminal, incoming⟩ := candidate
      unfold writeActions
      cases actions.get? terminal with
      | none => exact inductionHypothesis _
      | some existing =>
          by_cases same : existing = incoming
          · simp only [if_pos same]
            exact inductionHypothesis actions
          · simp only [if_neg same]
            obtain ⟨written, reported⟩ := exists_writeActions_report state actions rest
            rw [reported]
            rfl

variable {lookup : StateLookup} {closure : Closing} {construction : Construction}

theorem complete_fail (indexed : Indexed lookup construction)
    (noConflict : construction.conflicts = []) (state : State) :
    construction.complete lookup .fail closure state =
      construction.complete lookup .report closure state >>= fun extended =>
        unlessConflict extended.conflicts extended := by
  unfold complete
  cases followed : construction.follow lookup closure state.items.transitions with
  | error cause => rfl
  | ok result =>
      obtain ⟨targets, extended⟩ := result
      have kept : extended.conflicts = [] :=
        (follow_spec indexed followed).2.1.conflicts_eq.trans noConflict
      obtain ⟨⟨actions, conflicts⟩, reported⟩ := exists_writeActions_report state.id ∅
        (state.items.reductions ++ shiftsOf targets)
      simp only [bind, Except.bind, pure, Except.pure, writeActions_fail, reported, kept,
        List.nil_append]
      cases conflicts <;> rfl

/-- Completing a state adds conflicts behind those that there are. -/
theorem conflicts_prefix_of_complete {policy : ConflictPolicy} {state : State}
    {extended : Construction} (indexed : Indexed lookup construction)
    (completed : construction.complete lookup policy closure state = .ok extended) :
    construction.conflicts <+: extended.conflicts := by
  obtain ⟨⟨targets, followedTo⟩, followed, writing⟩ := bind_eq_ok.1 completed
  obtain ⟨⟨_, conflicts⟩, -, same⟩ := bind_eq_ok.1 writing
  cases same
  rw [← (follow_spec indexed followed).2.1.conflicts_eq]
  exact List.prefix_append _ conflicts

theorem conflicts_prefix_of_run {policy : ConflictPolicy} {limit : Nat} {final : Construction}
    (indexed : Indexed lookup construction)
    (ran : run lookup policy closure limit construction = .ok final) :
    construction.conflicts <+: final.conflicts := by
  have keeps : ∀ earlier later state,
      Indexed lookup earlier ∧ construction.conflicts <+: earlier.conflicts →
      earlier.states[earlier.rows.size]? = some state →
      earlier.complete lookup policy closure state = .ok later →
      Indexed lookup later ∧ construction.conflicts <+: later.conflicts := by
    intro earlier later state ⟨earlierIndexed, inFront⟩ _ completed
    exact ⟨complete_indexed earlierIndexed completed,
      inFront.trans (conflicts_prefix_of_complete earlierIndexed completed)⟩
  exact (run_keeps keeps ⟨indexed, List.prefix_refl _⟩ ran).2

/-- A run under `fail` gives what the run under `report` gives, unless that one has met
conflicts: then it gives the first of them. -/
theorem run_fail {limit : Nat} {final : Construction} (indexed : Indexed lookup construction)
    (noConflict : construction.conflicts = [])
    (ran : run lookup .report closure limit construction = .ok final) :
    run lookup .fail closure limit construction = unlessConflict final.conflicts final := by
  induction limit generalizing construction with
  | zero =>
      cases ran
      rw [noConflict]
      rfl
  | succ limit inductionHypothesis =>
      cases waiting : construction.states[construction.rows.size]? with
      | none =>
          rw [run_of_noneWaits waiting] at ran ⊢
          cases ran
          rw [noConflict]
          rfl
      | some state =>
          rw [run_succ_of_waits waiting] at ran ⊢
          obtain ⟨extended, completed, ranRest⟩ := bind_eq_ok.1 ran
          have extendedIndexed := complete_indexed indexed completed
          have failing : construction.complete lookup .fail closure state =
              unlessConflict extended.conflicts extended := by
            rw [complete_fail indexed noConflict, completed]
            rfl
          rw [failing]
          cases met : extended.conflicts with
          | nil => exact inductionHypothesis extendedIndexed met ranRest
          | cons conflict others =>
              -- Here the run under `fail` ends; the other one keeps this conflict in front.
              obtain ⟨more, behind⟩ := conflicts_prefix_of_run extendedIndexed ranRest
              rw [← behind, met]
              rfl

end Construction

namespace ParseTable

open Construction

variable {grammar : Grammar}

theorem generateWith_fail (lookup : StateLookup) (grammar : Grammar) :
    generateWith lookup .fail grammar =
      generateWith lookup .report grammar >>= fun table =>
        unlessConflict table.conflicts table := by
  unfold generateWith
  rw [draft_eq, draft_eq]
  cases checked : grammar.checkedStart with
  | error cause => rfl
  | ok start =>
      obtain ⟨index, production⟩ := start
      obtain ⟨started, defined, distinct⟩ := Grammar.checkedStart_eq_ok.1 checked
      obtain ⟨table, reported⟩ := exists_generateWith_report lookup started defined distinct
      obtain ⟨_, _, first, final, startedToo, -, -, begun, ran, -⟩ := draft_eq_ok.1 reported
      cases started.symm.trans startedToo
      obtain ⟨_, -, coherent⟩ := Coherent.of_initial .report begun
      have failing := run_fail coherent.toIndexed coherent.conflicts_eq ran
      simp only [bind, Except.bind, pure, Except.pure, begun, ran, failing]
      show _ = unlessConflict final.conflicts (tableOf grammar final)
      cases final.conflicts <;> rfl

/-- Under the policy `report` conflicts are never an error. -/
theorem generateWith_report_ne_ambiguity (lookup : StateLookup) (grammar : Grammar)
    (conflict : Conflict) :
    generateWith lookup .report grammar ≠ .error (.ambiguity conflict) := by
  intro failed
  cases checked : grammar.checkedStart with
  | error cause =>
      rw [generateWith, draft_eq, checked] at failed
      exact grammar.checkedStart_ne_ambiguity conflict
        (checked.trans (congrArg Except.error (Except.error.inj failed)))
  | ok start =>
      obtain ⟨started, defined, distinct⟩ := Grammar.checkedStart_eq_ok.1 checked
      obtain ⟨table, reported⟩ := exists_generateWith_report lookup started defined distinct
      rw [reported] at failed
      contradiction

/-- The policies agree. There is a table under `fail` when there is one without conflicts
under `report`, and it is that one; the error is a conflict when there is a table with
conflicts, and it is the first of them; any other error is the same under both. -/
theorem generate_fail_iff_report (grammar : Grammar) :
    (∀ table, generate .fail grammar = .ok table ↔
      generate .report grammar = .ok table ∧ table.conflicts = []) ∧
    (∀ conflict, generate .fail grammar = .error (.ambiguity conflict) ↔
      ∃ table, generate .report grammar = .ok table ∧ table.conflicts.head? = some conflict) ∧
    ∀ cause, generate .report grammar = .error cause ↔
      generate .fail grammar = .error cause ∧ ∀ conflict, cause ≠ .ambiguity conflict := by
  have failing := generateWith_fail (.hashed stateHash) grammar
  have noAmbiguity := generateWith_report_ne_ambiguity (.hashed stateHash) grammar
  unfold generate
  rw [failing]
  refine ⟨fun table => ?_, fun conflict => ?_, fun cause => ?_⟩
  · simp only [bind_eq_ok, unlessConflict_eq_ok]
    constructor
    · rintro ⟨reported, isReported, noConflict, rfl⟩
      exact ⟨isReported, noConflict⟩
    · rintro ⟨isReported, noConflict⟩
      exact ⟨table, isReported, noConflict, rfl⟩
  · simp only [bind_eq_error, unlessConflict_eq_error]
    constructor
    · rintro (failed | ⟨table, isReported, first, isFirst, same⟩)
      · exact absurd failed (noAmbiguity conflict)
      · cases same
        exact ⟨table, isReported, isFirst⟩
    · rintro ⟨table, isReported, isFirst⟩
      exact .inr ⟨table, isReported, conflict, isFirst, rfl⟩
  · simp only [bind_eq_error, unlessConflict_eq_error]
    constructor
    · intro failed
      refine ⟨.inl failed, ?_⟩
      rintro conflict rfl
      exact noAmbiguity conflict failed
    · rintro ⟨failed | ⟨_, -, conflict, -, same⟩, noConflict⟩
      · exact failed
      · exact absurd same (noConflict conflict)

/-- The one conflict of the sample made by hand is the error for it. -/
theorem generate_fail_iff_report_optional :
    (∃ table, generate .report Grammar.optional = .ok table ∧ table.conflicts ≠ []) ∧
    generate .fail Grammar.optional = .error (.ambiguity ⟨0, "a", .reduce 1, .shift 2⟩) := by
  obtain ⟨table, generation, conflicts⟩ := exists_generate_optional
  refine ⟨⟨table, generation, by simp [conflicts]⟩, ?_⟩
  exact ((generate_fail_iff_report Grammar.optional).2.1 _).2
    ⟨table, generation, by simp [conflicts]⟩

end ParseTable

end CanonicalLR
