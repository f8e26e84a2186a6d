import CanonicalLR.Proofs.Grammar.Defect
import CanonicalLR.Proofs.Table.Policy

/-!
Contract: what generation comes to, by the defects of a grammar.

Owns:
- the error for each defect, and which defect is reported when there are several;
- that no closing in the course of a run ever fails;
- that a grammar without defects has a table, or a conflict under the policy `fail`.

Does not own: which conflict it is.
-/

namespace CanonicalLR

namespace Construction

variable {policy : ConflictPolicy}

/-- Writing a row fails at a conflict only, and only under the policy `fail`. -/
theorem conflict_of_writeActions {state : Nat} {actions : NameMap Action}
    {candidates : List (String × Action)} {cause : GenerationError}
    (failed : writeActions policy state actions candidates = .error cause) :
    policy = .fail ∧ ∃ conflict, cause = .ambiguity conflict := by
  obtain ⟨written, reported⟩ := exists_writeActions_report state actions candidates
  cases policy with
  | report =>
      rw [reported] at failed
      contradiction
  | fail =>
      rw [writeActions_fail, reported] at failed
      obtain ⟨conflict, -, rfl⟩ := unlessConflict_eq_error.1 failed
      exact ⟨rfl, conflict, rfl⟩

/-- So does completing a state whose seeds close. -/
theorem conflict_of_complete {lookup : StateLookup} {closure : Closing}
    {construction : Construction} {state : State} {cause : GenerationError}
    (closes : ∀ transition ∈ state.items.transitions,
      ∃ items, closure transition.seeds = .ok items)
    (failed : construction.complete lookup policy closure state = .error cause) :
    policy = .fail ∧ ∃ conflict, cause = .ambiguity conflict := by
  obtain ⟨followed, isFollowed⟩ := exists_follow lookup closes construction
  rcases bind_eq_error.1 failed with unfollowed | ⟨_, -, failed⟩
  · rw [isFollowed] at unfollowed
    contradiction
  · rcases bind_eq_error.1 failed with unwritten | ⟨_, -, unreturned⟩
    · exact conflict_of_writeActions unwritten
    · contradiction

end Construction

namespace ParseTable

open Construction

/-- What a grammar comes to. The first defect, in the order of the checks, is the error;
without a defect there is a table, or under the policy `fail` a conflict. -/
structure Verdict (policy : ConflictPolicy) (grammar : Grammar)
    (outcome : Except GenerationError ParseTable) : Prop where
  missingStart_iff : outcome = .error .missingStartProduction ↔ ¬ grammar.Marked
  exists_undefined_iff :
    (∃ nonterminal lhs, outcome = .error (.undefinedNonterminal nonterminal lhs)) ↔
      grammar.Marked ∧ ¬ grammar.Defined
  undefined_iff : ∀ nonterminal lhs,
    outcome = .error (.undefinedNonterminal nonterminal lhs) ↔
      grammar.Marked ∧ grammar.FirstUndefined nonterminal lhs
  exists_duplicate_iff :
    (∃ rhs indices, outcome = .error (.duplicateRightHandSide rhs indices)) ↔
      grammar.Marked ∧ grammar.Defined ∧ ¬ grammar.DistinctRightHandSides
  duplicate_iff : ∀ rhs indices,
    outcome = .error (.duplicateRightHandSide rhs indices) ↔
      grammar.Marked ∧ grammar.Defined ∧ grammar.FirstRepeated rhs indices
  table_or_conflict :
    ((∃ table, outcome = .ok table) ∨
        policy = .fail ∧ ∃ conflict, outcome = .error (.ambiguity conflict)) ↔
      grammar.Marked ∧ grammar.Defined ∧ grammar.DistinctRightHandSides
  wellFormedText : ∀ cause, outcome ≠ .error (.malformedText cause)

/-- The first state can be made, and wherever a run has come to from there, the seeds of
the next state close: completing it can only fail at a conflict. -/
def Unblocked (lookup : StateLookup) (policy : ConflictPolicy) (grammar : Grammar) : Prop :=
  ∃ index production first, grammar.startProduction? = some (index, production) ∧
    Construction.initial lookup (close grammar (Sets.ofGrammar grammar))
      (.start index production {grammar.endMarker}) = .ok first ∧
    ∀ limit construction state,
      Construction.run lookup policy (close grammar (Sets.ofGrammar grammar)) limit first =
        .ok construction →
      construction.states[construction.rows.size]? = some state →
      (∀ transition ∈ state.items.transitions,
        ∃ items, close grammar (Sets.ofGrammar grammar) transition.seeds = .ok items) ∧
      ∀ cause, construction.complete lookup policy (close grammar (Sets.ofGrammar grammar))
          state = .error cause →
        policy = .fail ∧ ∃ conflict, cause = .ambiguity conflict

variable {lookup : StateLookup} {policy : ConflictPolicy} {grammar : Grammar}

theorem unblocked_of_defined (marked : grammar.Marked) (defined : grammar.Defined) :
    Unblocked lookup policy grammar := by
  have passes := Grammar.checkDefined_eq_ok_iff.2 defined
  obtain ⟨⟨index, production⟩, started⟩ : ∃ start, grammar.startProduction? = some start := by
    rw [← Option.isSome_iff_exists, Option.isSome_iff_ne_none]
    exact fun none => Grammar.startProduction?_eq_none_iff.1 none marked
  obtain ⟨first, begun⟩ := exists_initial lookup started passes
  refine ⟨index, production, first, started, begun, fun limit construction state ran waits => ?_⟩
  have closes : ∀ transition ∈ state.items.transitions,
      ∃ items, close grammar (Sets.ofGrammar grammar) transition.seeds = .ok items :=
    fun _ => exists_close_of_run started passes begun ran waits
  exact ⟨closes, fun _ => conflict_of_complete closes⟩

theorem generateWith_of_failed {cause : GenerationError}
    (failed : grammar.checkedStart = .error cause) :
    generateWith lookup policy grammar = .error cause := by
  rw [generateWith, draft_eq, failed]
  rfl

/-- What passes the checks has a table or a conflict. -/
theorem table_or_conflict_iff :
    ((∃ table, generateWith lookup policy grammar = .ok table) ∨
        policy = .fail ∧
          ∃ conflict, generateWith lookup policy grammar = .error (.ambiguity conflict)) ↔
      ∃ start, grammar.checkedStart = .ok start := by
  cases checked : grammar.checkedStart with
  | error cause =>
      rw [generateWith_of_failed checked]
      refine iff_of_false ?_ (by simp)
      rintro (⟨table, generated⟩ | ⟨-, conflict, same⟩)
      · contradiction
      · exact grammar.checkedStart_ne_ambiguity conflict
          (checked.trans (congrArg Except.error (Except.error.inj same)))
  | ok start =>
      refine iff_of_true ?_ ⟨start, rfl⟩
      obtain ⟨started, defined, distinct⟩ := Grammar.checkedStart_eq_ok.1 checked
      obtain ⟨table, reported⟩ := exists_generateWith_report lookup started defined distinct
      cases policy with
      | report => exact .inl ⟨table, reported⟩
      | fail =>
          have failing : generateWith lookup .fail grammar =
              unlessConflict table.conflicts table := by
            rw [generateWith_fail, reported]
            rfl
          rw [failing]
          cases table.conflicts with
          | nil => exact .inl ⟨table, rfl⟩
          | cons conflict others => exact .inr ⟨rfl, conflict, rfl⟩

/-- Any error but a conflict is one of the checks. -/
theorem generateWith_eq_error_iff {cause : GenerationError}
    (other : ∀ conflict, cause ≠ .ambiguity conflict) :
    generateWith lookup policy grammar = .error cause ↔ grammar.checkedStart = .error cause := by
  refine ⟨fun failed => ?_, generateWith_of_failed⟩
  cases checked : grammar.checkedStart with
  | error failure =>
      rw [generateWith_of_failed checked] at failed
      exact congrArg _ (Except.error.inj failed)
  | ok start =>
      rcases (@table_or_conflict_iff lookup policy grammar).2 ⟨start, checked⟩ with
        ⟨table, generated⟩ | ⟨-, conflict, ambiguous⟩
      · rw [generated] at failed
        contradiction
      · rw [ambiguous] at failed
        exact absurd (Except.error.inj failed).symm (other conflict)

theorem undefinedNonterminal_iff {nonterminal lhs : String} :
    generateWith lookup policy grammar = .error (.undefinedNonterminal nonterminal lhs) ↔
      grammar.Marked ∧ grammar.FirstUndefined nonterminal lhs := by
  rw [generateWith_eq_error_iff (by simp), Grammar.checkedStart_eq_error_iff]
  simp [eq_comm]

theorem duplicateRightHandSide_iff {rhs : List Symbol} {indices : List Nat} :
    generateWith lookup policy grammar = .error (.duplicateRightHandSide rhs indices) ↔
      grammar.Marked ∧ grammar.Defined ∧ grammar.FirstRepeated rhs indices := by
  rw [generateWith_eq_error_iff (by simp), Grammar.checkedStart_eq_error_iff]
  simp [eq_comm]

/-- Every grammar gets the verdict that its productions ask for, whatever defects it combines.
Once the checks are passed, no nonterminal turns out to be undefined any more. -/
theorem verdict_of_generate (policy : ConflictPolicy) (grammar : Grammar) :
    Verdict policy grammar (generate policy grammar) ∧
      (grammar.Marked → grammar.Defined → Unblocked (.hashed stateHash) policy grammar) := by
  refine ⟨?_, unblocked_of_defined⟩
  refine ⟨?_, ?_, fun _ _ => undefinedNonterminal_iff, ?_, fun _ _ => duplicateRightHandSide_iff,
    table_or_conflict_iff.trans Grammar.exists_checkedStart_iff, ?_⟩
  · rw [generate, generateWith_eq_error_iff (by simp), Grammar.checkedStart_eq_error_iff]
    simp
  · simp only [generate, undefinedNonterminal_iff, exists_and_left,
      Grammar.exists_firstUndefined_iff]
  · simp only [generate, duplicateRightHandSide_iff, exists_and_left,
      Grammar.exists_firstRepeated_iff]
  · intro cause failed
    rw [generate, generateWith_eq_error_iff (by simp), Grammar.checkedStart_eq_error_iff] at failed
    simp at failed

/-- The undefined nonterminal comes before the repeated right-hand side; and in the sample
made by hand nothing blocks a run. -/
theorem verdict_of_generate_samples :
    ¬ Grammar.faulty.DistinctRightHandSides ∧
      generate .report Grammar.faulty = .error (.undefinedNonterminal "Y" "X") ∧
      Unblocked (.hashed stateHash) .fail Grammar.optional := by
  refine ⟨Grammar.faulty_repeats, ?_, ?_⟩
  · exact ((verdict_of_generate .report Grammar.faulty).1.undefined_iff "Y" "X").2
      ⟨Grammar.faulty_marked, Grammar.faulty_firstUndefined⟩
  · have marked : Grammar.optional.Marked := ⟨_, List.mem_cons_self, rfl⟩
    have defined : Grammar.optional.Defined :=
      Grammar.checkDefined_eq_ok_iff.1 (by decide)
    exact (verdict_of_generate .fail Grammar.optional).2 marked defined

end ParseTable

end CanonicalLR
