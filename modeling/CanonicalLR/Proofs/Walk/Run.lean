import CanonicalLR.Proofs.Walk.Step
import Mathlib.Logic.Relation

/-!
Contract: the steps of whole runs.

Owns:
- sequences of steps, which can be cut anywhere, and the configurations that they lead to;
- that a run goes through each of those configurations;
- the steps that a run takes under any limit, and what it comes to after them.

Does not own: what holds of the configurations that a run goes through.
-/

namespace CanonicalLR

namespace Walk

/-- Some steps of the run lead from one configuration to the other. -/
def Continues (table : ParseTable) (startIndex : Nat) : Configuration → Configuration → Prop :=
  Relation.ReflTransGen fun before after =>
    ∃ taken, step table startIndex before = .next taken after

/-- The steps that lead from one configuration to the other, in their order. -/
inductive Steps (table : ParseTable) (startIndex : Nat) :
    Configuration → List Step → Configuration → Prop where
  | nil {configuration : Configuration} : Steps table startIndex configuration [] configuration
  | cons {before between after : Configuration} {taken : Step} {others : List Step}
      (stepped : step table startIndex before = .next taken between)
      (further : Steps table startIndex between others after) :
      Steps table startIndex before (taken :: others) after

/-- What a run that may take `limit` steps comes to, when `taken` are those that it has taken
and `final` is where they lead. -/
inductive Ends (table : ParseTable) (startIndex limit : Nat) (taken : List Step)
    (final : Configuration) : Option (Except WalkError (List Step)) → Prop where
  | exhausted (all : taken.length = limit) : Ends table startIndex limit taken final none
  | accepted (within : taken.length < limit) (stepped : step table startIndex final = .accepted) :
      Ends table startIndex limit taken final (some (.ok (taken ++ [.accept])))
  | failed {error : WalkError} (within : taken.length < limit)
      (stepped : step table startIndex final = .failed error) :
      Ends table startIndex limit taken final (some (.error error))

variable {table : ParseTable} {startIndex : Nat} {before after configuration : Configuration}

theorem Continues.single {taken : Step}
    (stepped : step table startIndex before = .next taken after) :
    Continues table startIndex before after :=
  Relation.ReflTransGen.single ⟨taken, stepped⟩

theorem Continues.exists_steps (continues : Continues table startIndex before after) :
    ∃ taken, Steps table startIndex before taken after := by
  induction continues using Relation.ReflTransGen.head_induction_on with
  | refl => exact ⟨[], .nil⟩
  | head stepped _ inductionHypothesis =>
      obtain ⟨taken, stepped⟩ := stepped
      obtain ⟨others, steps⟩ := inductionHypothesis
      exact ⟨taken :: others, .cons stepped steps⟩

namespace Steps

variable {taken front back : List Step}

theorem continues (steps : Steps table startIndex before taken after) :
    Continues table startIndex before after := by
  induction steps with
  | nil => exact .refl
  | cons stepped _ inductionHypothesis => exact .head ⟨_, stepped⟩ inductionHypothesis

/-- Steps can be cut anywhere. -/
theorem split (steps : Steps table startIndex before (front ++ back) after) :
    ∃ between, Steps table startIndex before front between ∧
      Steps table startIndex between back after := by
  induction front generalizing before with
  | nil => exact ⟨before, .nil, steps⟩
  | cons taken others inductionHypothesis =>
      cases steps with
      | cons stepped further =>
          obtain ⟨between, first, second⟩ := inductionHypothesis further
          exact ⟨between, .cons stepped first, second⟩

/-- A run goes through every configuration that its steps lead to. -/
theorem run_eq (steps : Steps table startIndex before taken after) (limit : Nat)
    (trace : List Step) :
    run table startIndex (taken.length + limit) trace before =
      run table startIndex limit (taken.reverse ++ trace) after := by
  induction steps generalizing trace with
  | nil => rw [List.length_nil, Nat.zero_add, List.reverse_nil, List.nil_append]
  | @cons before between after taken others stepped _ inductionHypothesis =>
      rw [List.length_cons, Nat.add_right_comm, run, stepped]
      simp only
      rw [inductionHypothesis, List.reverse_cons, List.append_assoc, List.singleton_append]

end Steps

/-- A run that has an outcome has not taken all the steps that it may take. -/
theorem Ends.length_lt {limit : Nat} {taken : List Step}
    {outcome : Except WalkError (List Step)}
    (ends : Ends table startIndex limit taken configuration (some outcome)) :
    taken.length < limit := by
  cases ends with
  | accepted within => exact within
  | failed within => exact within

/-- Whatever a run comes to, its steps are those that lead from configuration to
configuration. -/
theorem run_ends (table : ParseTable) (startIndex limit : Nat) (trace : List Step)
    (configuration : Configuration) :
    ∃ taken final, Steps table startIndex configuration taken final ∧
      Ends table startIndex (trace.length + limit) (trace.reverse ++ taken) final
        (run table startIndex limit trace configuration) := by
  induction limit generalizing trace configuration with
  | zero => exact ⟨[], configuration, .nil, .exhausted (by simp)⟩
  | succ limit inductionHypothesis =>
      rw [run]
      cases stepped : step table startIndex configuration with
      | next taken later =>
          obtain ⟨others, final, steps, ends⟩ := inductionHypothesis (taken :: trace) later
          refine ⟨taken :: others, final, .cons stepped steps, ?_⟩
          rw [List.length_cons, List.reverse_cons, List.append_assoc, List.singleton_append,
            Nat.add_assoc, Nat.add_comm 1] at ends
          exact ends
      | accepted =>
          refine ⟨[], configuration, .nil, ?_⟩
          rw [List.append_nil, List.reverse_cons]
          exact .accepted (by simp) stepped
      | failed error => exact ⟨[], configuration, .nil, .failed (by simp) stepped⟩

/-- A run that ends does so under each larger limit. -/
theorem run_mono {limit enough : Nat} (atLeast : limit ≤ enough) {trace : List Step}
    {outcome : Except WalkError (List Step)}
    (ran : run table startIndex limit trace configuration = some outcome) :
    run table startIndex enough trace configuration = some outcome := by
  obtain ⟨taken, final, steps, ends⟩ := run_ends table startIndex limit trace configuration
  rw [ran] at ends
  have fewer : taken.length < enough := by
    have within := ends.length_lt
    rw [List.length_append, List.length_reverse] at within
    omega
  obtain ⟨more, rfl⟩ := Nat.exists_eq_add_of_lt fewer
  rw [Nat.add_assoc, steps.run_eq, run]
  cases ends with
  | accepted _ stepped => simp [stepped]
  | failed _ stepped => simp [stepped]

end Walk

variable {table : ParseTable} {index : Nat} {production : Production}

/-- A table is run from its first state on. -/
theorem walk_eq_run (started : table.grammar.startProduction? = some (index, production))
    (limit : Nat) (input : List String) :
    walk limit table input =
      Walk.run table index limit [] ⟨[0], ⟨input, table.grammar.endMarker⟩⟩ := by
  rw [walk, ParseTable.startProduction?, started]

/-- The steps of a table over an input, and what they come to. -/
theorem walk_ends (started : table.grammar.startProduction? = some (index, production))
    (limit : Nat) (input : List String) :
    ∃ taken final,
      Walk.Steps table index ⟨[0], ⟨input, table.grammar.endMarker⟩⟩ taken final ∧
        Walk.Ends table index limit taken final (walk limit table input) := by
  have ran := Walk.run_ends table index limit [] ⟨[0], ⟨input, table.grammar.endMarker⟩⟩
  rw [walk_eq_run started]
  simpa using ran

end CanonicalLR
