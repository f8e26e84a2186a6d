import CanonicalLR.Grammar.Check
import CanonicalLR.Proofs.Grammar.Readable

/-!
Contract: what the checks on the productions of a grammar establish.

Owns:
- the start production by its index;
- that a grammar without undefined nonterminals has productions for every
  nonterminal on a right-hand side;
- the checks that precede generation as one, and that none of them finds a conflict.

Does not own: when the checks fail.
-/

namespace CanonicalLR.Grammar

variable {grammar : Grammar}

theorem getElem?_of_startProduction? {index : Nat} {production : Production}
    (started : grammar.startProduction? = some (index, production)) :
    grammar.productions[index]? = some production := by
  obtain ⟨⟨found, position⟩, isFirst, same⟩ := Option.map_eq_some_iff.1 started
  cases same
  exact List.mem_zipIdx_iff_getElem?.1 (List.mem_of_find?_eq_some isFirst)

theorem isDefined_iff {nonterminal : String} :
    grammar.isDefined nonterminal = true ↔ grammar.productionsFor nonterminal ≠ [] := by
  unfold isDefined
  rw [List.any_eq_true]
  constructor
  · rintro ⟨production, member, same⟩ none
    obtain ⟨index, found⟩ := List.getElem?_of_mem member
    have listed := mem_productionsFor.2 ⟨found, of_decide_eq_true same⟩
    rw [none] at listed
    exact List.not_mem_nil listed
  · intro someProduction
    obtain ⟨⟨index, production⟩, listed⟩ := List.exists_mem_of_ne_nil _ someProduction
    obtain ⟨found, same⟩ := mem_productionsFor.1 listed
    exact ⟨production, List.mem_of_getElem? found, decide_eq_true same⟩

theorem productionsFor_ne_nil_of_checkDefined (defined : grammar.checkDefined = .ok ())
    {production : Production} (member : production ∈ grammar.productions) {nonterminal : String}
    (used : .nonterminal nonterminal ∈ production.rhs) :
    grammar.productionsFor nonterminal ≠ [] := by
  rw [← isDefined_iff]
  unfold checkDefined at defined
  split at defined
  · contradiction
  case h_2 noneUndefined =>
    have inUses : (production.lhs, nonterminal) ∈ grammar.uses :=
      List.mem_flatMap.2 ⟨production, member,
        List.mem_map.2 ⟨nonterminal, List.mem_filterMap.2 ⟨_, used, rfl⟩, rfl⟩⟩
    have := List.find?_eq_none.1 noneUndefined _ inUses
    simpa using this

/-- The start production, with its index, of a grammar that passes all checks. -/
def checkedStart (grammar : Grammar) : Except GenerationError (Nat × Production) :=
  match grammar.startProduction? with
  | none => .error .missingStartProduction
  | some start => do
      grammar.checkDefined
      grammar.checkDistinctRightHandSides
      return start

theorem checkedStart_eq_ok {start : Nat × Production} :
    grammar.checkedStart = .ok start ↔ grammar.startProduction? = some start ∧
      grammar.checkDefined = .ok () ∧ grammar.checkDistinctRightHandSides = .ok () := by
  unfold checkedStart
  cases grammar.startProduction? with
  | none => simp
  | some other =>
      cases grammar.checkDefined <;> cases grammar.checkDistinctRightHandSides <;>
        simp [bind, Except.bind, pure, Except.pure]

theorem checkedStart_ne_ambiguity (grammar : Grammar) (conflict : Conflict) :
    grammar.checkedStart ≠ .error (.ambiguity conflict) := by
  intro failed
  unfold checkedStart at failed
  split at failed
  · cases failed
  · rcases bind_eq_error.1 failed with undefined | ⟨_, -, failed⟩
    · unfold checkDefined at undefined
      split at undefined <;> cases undefined
    · rcases bind_eq_error.1 failed with repeated | ⟨_, -, failed⟩
      · unfold checkDistinctRightHandSides at repeated
        split at repeated <;> cases repeated
      · cases failed

end CanonicalLR.Grammar
