import CanonicalLR.Proofs.Derivation
import CanonicalLR.Proofs.Sets.Saturation

/-!
Contract: what the FIRST sets of a grammar mean.

Owns:
- the FIRST equations as a system, and that enough passes are made over them, after which a
  further one changes nothing;
- membership in a FIRST set, by the first symbols of right-hand sides;
- its meaning for derivations and words when no right-hand side is empty.

Does not own: FOLLOW sets.
-/

namespace CanonicalLR

namespace Grammar

/-- The terminals that a symbol starts with when each nonterminal starts with
what the first symbol of one of its right-hand sides starts with. -/
inductive Starts (grammar : Grammar) : Symbol → String → Prop where
  | terminal (name : String) : Starts grammar (.terminal name) name
  | nonterminal {production : Production} {first : Symbol} {rest : List Symbol} {name : String}
      (member : production ∈ grammar.productions) (rhs : production.rhs = first :: rest)
      (starts : Starts grammar first name) :
      Starts grammar (.nonterminal production.lhs) name

/-- What the first symbol of the right-hand side starts with belongs to the
left-hand side. -/
def firstEquation (production : Production) : SetEquation where
  target := production.lhs
  value sets :=
    match production.rhs.head? with
    | some (.terminal name) => {name}
    | some (.nonterminal name) => sets name
    | none => ∅

theorem firstPass_eq (grammar : Grammar) (first : NameMap NameSet) :
    firstPass grammar first =
      SetEquation.pass (grammar.productions.map firstEquation) first := by
  unfold firstPass SetEquation.pass SetEquation.addAll
  rw [List.foldl_map]
  congr 1
  funext growth production
  unfold firstEquation firstOf
  cases production.rhs.head? with
  | none => rfl
  | some symbol => cases symbol <;> rfl

theorem mem_value_firstEquation {production : Production} {sets : String → NameSet}
    {member : String} :
    member ∈ (firstEquation production).value sets ↔
      ∃ first rest, production.rhs = first :: rest ∧
        (first = .terminal member ∨ ∃ name, first = .nonterminal name ∧ member ∈ sets name) := by
  unfold firstEquation
  cases production.rhs with
  | nil => simp
  | cons first rest => cases first <;> simp [eq_comm]

variable {grammar : Grammar}

theorem mem_alphabet {name : String} :
    name ∈ grammar.alphabet ↔ name = grammar.endMarker ∨
      ∃ production ∈ grammar.productions, .terminal name ∈ production.rhs := by
  unfold alphabet
  rw [NameSet.mem_insert, NameSet.mem_ofList, List.mem_flatMap]
  apply or_congr_right
  apply exists_congr
  intro production
  apply and_congr_right
  intro _
  rw [List.mem_filterMap]
  constructor
  · rintro ⟨symbol, member, found⟩
    cases symbol with
    | terminal other =>
        cases found
        exact member
    | nonterminal other => contradiction
  · intro member
    exact ⟨_, member, rfl⟩

theorem setOf_emptySets (name : String) : grammar.emptySets.setOf name = ∅ := by
  have general : ∀ (names : List String) (sets : NameMap NameSet), sets.setOf name = ∅ →
      (names.foldl (fun sets name => sets.insert name ∅) sets).setOf name = ∅ := by
    intro names
    induction names with
    | nil => exact fun _ empty => empty
    | cons head rest inductionHypothesis =>
        intro sets empty
        apply inductionHypothesis
        rw [NameMap.setOf, NameMap.get?_insert]
        split
        · rfl
        · exact empty
  exact general _ _ (by rw [NameMap.setOf, NameMap.get?_empty, Option.getD_none])

theorem isSome_get?_emptySets {name : String} (listed : name ∈ grammar.nonterminals) :
    (grammar.emptySets.get? name).isSome = true := by
  have general : ∀ (names : List String) (sets : NameMap NameSet),
      name ∈ names ∨ (sets.get? name).isSome = true →
      ((names.foldl (fun sets name => sets.insert name ∅) sets).get? name).isSome = true := by
    intro names
    induction names with
    | nil => exact fun _ entry => entry.resolve_left List.not_mem_nil
    | cons head rest inductionHypothesis =>
        intro sets entry
        apply inductionHypothesis
        rw [NameMap.get?_insert]
        by_cases same : name = head
        · exact .inr (by rw [if_pos same]; rfl)
        · rw [if_neg same]
          exact entry.imp_left fun member => (List.mem_cons.1 member).resolve_left same
  exact general _ _ (.inl listed)

/-! ### The solution -/

private theorem firstEquation_keeps_starts :
    ∀ equation ∈ grammar.productions.map firstEquation,
      equation.Keeps fun name member => grammar.Starts (.nonterminal name) member := by
  intro equation inEquations sets allowed member asked
  obtain ⟨production, inProductions, rfl⟩ := List.mem_map.1 inEquations
  obtain ⟨first, rest, rhs, source⟩ := mem_value_firstEquation.1 asked
  apply Starts.nonterminal inProductions rhs
  rcases source with rfl | ⟨name, rfl, present⟩
  · exact .terminal member
  · exact allowed name member present

/-- The pairs that a FIRST set can consist of. -/
private def firstPairs (grammar : Grammar) : Finset (String × String) :=
  (grammar.productions.map Production.lhs).toFinset ×ˢ grammar.alphabet.names.toFinset

private theorem card_firstPairs_lt : (firstPairs grammar).card < grammar.passLimit := by
  have names := List.toFinset_card_le (grammar.productions.map Production.lhs)
  have members := List.toFinset_card_le grammar.alphabet.names
  rw [List.length_map] at names
  calc (firstPairs grammar).card
      ≤ grammar.productions.length * grammar.alphabet.names.length := by
        rw [firstPairs, Finset.card_product]
        exact Nat.mul_le_mul names members
    _ ≤ (grammar.nonterminals.names.length + grammar.productions.length + grammar.rhsLengths) *
          grammar.alphabet.size := Nat.mul_le_mul_right _ (by omega)
    _ < grammar.passLimit := Nat.lt_succ_self _

private theorem firstEquation_keeps_pairs :
    ∀ equation ∈ grammar.productions.map firstEquation,
      equation.Keeps fun name member => (name, member) ∈ firstPairs grammar := by
  intro equation inEquations sets allowed member asked
  obtain ⟨production, inProductions, rfl⟩ := List.mem_map.1 inEquations
  obtain ⟨first, rest, rhs, source⟩ := mem_value_firstEquation.1 asked
  apply Finset.mem_product.2
  constructor
  · exact List.mem_toFinset.2 (List.mem_map_of_mem inProductions)
  · rcases source with rfl | ⟨name, rfl, present⟩
    · apply List.mem_toFinset.2
      exact mem_alphabet.2 (.inr ⟨production, inProductions, by simp [rhs]⟩)
    · exact (Finset.mem_product.1 (allowed name member present)).2

theorem not_mem_emptySets (name member : String) :
    member ∉ grammar.emptySets.setOf name := by
  rw [setOf_emptySets]
  exact NameSet.not_mem_empty member

private theorem firstSolution_eq (grammar : Grammar) :
    grammar.firstSolution =
      saturate (SetEquation.pass (grammar.productions.map firstEquation)) grammar.passLimit
        grammar.emptySets := by
  rw [firstSolution, funext (firstPass_eq grammar)]

private theorem settles_firstEquations (grammar : Grammar) :
    Settles (SetEquation.pass (grammar.productions.map firstEquation)) grammar.emptySets
      grammar.firstSolution := by
  rw [firstSolution_eq]
  exact SetEquation.settles_saturate firstEquation_keeps_pairs card_firstPairs_lt
    fun name member present => absurd present (not_mem_emptySets name member)

/-- The FIRST sets are what passes come to when nothing limits them. -/
theorem settles_firstPass (grammar : Grammar) :
    Settles (firstPass grammar) grammar.emptySets grammar.firstSolution := by
  rw [funext (firstPass_eq grammar)]
  exact settles_firstEquations grammar

/-- Every listed nonterminal has its FIRST set. -/
theorem exists_first {name : String} (listed : name ∈ grammar.nonterminals) :
    ∃ first, (Sets.ofGrammar grammar).first.get? name = some first :=
  Option.isSome_iff_exists.1
    (SetEquation.isSome_get?_of_settles (settles_firstEquations grammar)
      (isSome_get?_emptySets listed))

theorem firstPass_firstSolution (grammar : Grammar) :
    firstPass grammar grammar.firstSolution.1 = ⟨grammar.firstSolution.1, false⟩ := by
  rw [firstPass_eq]
  exact SetEquation.pass_eq_self_of_settles (settles_firstEquations grammar)

/-- The FIRST sets hold exactly what the symbols start with. -/
theorem mem_firstOf {symbol : Symbol} {name : String} :
    name ∈ (Sets.ofGrammar grammar).firstOf symbol ↔ grammar.Starts symbol name := by
  show name ∈ firstOf grammar.firstSolution.1 symbol ↔ _
  constructor
  · intro member
    cases symbol with
    | terminal other =>
        rw [firstOf, NameSet.mem_singleton] at member
        rw [member]
        exact .terminal other
    | nonterminal other =>
        rw [firstOf, firstSolution_eq] at member
        exact SetEquation.allowed_saturate firstEquation_keeps_starts _
          (fun _ _ present => absurd present (not_mem_emptySets _ _)) other name member
  · have solved := SetEquation.solved_of_settles (settles_firstEquations grammar)
    intro starts
    induction starts with
    | terminal name => exact NameSet.mem_singleton.2 rfl
    | @nonterminal production first rest name inProductions rhs _ inductionHypothesis =>
        apply solved _ (List.mem_map_of_mem inProductions)
        apply mem_value_firstEquation.2
        refine ⟨first, rest, rhs, ?_⟩
        cases first with
        | terminal other =>
            rw [NameSet.mem_singleton.1 inductionHypothesis]
            exact .inl rfl
        | nonterminal other => exact .inr ⟨other, rfl, inductionHypothesis⟩

theorem Starts.mem_alphabet {symbol : Symbol} {name : String}
    (starts : grammar.Starts symbol name) :
    symbol = .terminal name ∨ name ∈ grammar.alphabet := by
  induction starts with
  | terminal name => exact .inl rfl
  | @nonterminal production first rest name inProductions rhs _ inductionHypothesis =>
      right
      rcases inductionHypothesis with same | inAlphabet
      · exact Grammar.mem_alphabet.2 (.inr ⟨production, inProductions, by simp [rhs, same]⟩)
      · exact inAlphabet

/-! ### Derivations and words -/

theorem Starts.derives {symbol : Symbol} {name : String} (starts : grammar.Starts symbol name) :
    ∃ rest, grammar.Derives [symbol] (.terminal name :: rest) := by
  induction starts with
  | terminal name => exact ⟨[], .refl⟩
  | @nonterminal production first rest name inProductions rhs _ inductionHypothesis =>
      obtain ⟨behind, derives⟩ := inductionHypothesis
      have inContext := derives.context [] rest
      have step := derives_of_production inProductions
      rw [rhs] at step
      exact ⟨behind ++ rest, step.trans inContext⟩

/-- Without empty right-hand sides, only the first symbol of a form decides what
the form starts with. -/
theorem starts_of_derives (nonempty : ∀ production ∈ grammar.productions, production.rhs ≠ [])
    {form : List Symbol} {name : String} {rest : List Symbol}
    (derives : grammar.Derives form (.terminal name :: rest)) :
    ∃ first others, form = first :: others ∧ grammar.Starts first name := by
  induction derives using Relation.ReflTransGen.head_induction_on with
  | refl => exact ⟨_, _, rfl, .terminal name⟩
  | head rewrites _ inductionHypothesis =>
      obtain ⟨first, others, same, starts⟩ := inductionHypothesis
      obtain ⟨inProductions, before, after⟩ := rewrites
      cases before with
      | nil =>
          refine ⟨_, _, rfl, ?_⟩
          obtain ⟨head, tail, rhs⟩ := List.exists_cons_of_ne_nil (nonempty _ inProductions)
          rw [List.nil_append, rhs, List.cons_append, List.cons.injEq] at same
          exact .nonterminal inProductions rhs (same.1 ▸ starts)
      | cons head tail =>
          refine ⟨head, _, rfl, ?_⟩
          rw [List.cons_append, List.cons_append, List.cons.injEq] at same
          exact same.1 ▸ starts

theorem Yields.starts (nonempty : ∀ production ∈ grammar.productions, production.rhs ≠ [])
    {first : Symbol} {others : List Symbol} {word : List String}
    (yields : grammar.Yields (first :: others) word) :
    ∃ name rest, word = name :: rest ∧ grammar.Starts first name := by
  generalize same : first :: others = form at yields
  induction yields generalizing first others with
  | nil => contradiction
  | terminal name =>
      cases same
      exact ⟨name, _, rfl, .terminal name⟩
  | nonterminal inProductions _ _ innerHypothesis _ =>
      cases same
      obtain ⟨head, tail, rhs⟩ := List.exists_cons_of_ne_nil (nonempty _ inProductions)
      obtain ⟨name, rest, rfl, starts⟩ := innerHypothesis rhs.symm
      exact ⟨name, rest ++ _, rfl, .nonterminal inProductions rhs starts⟩

end Grammar

end CanonicalLR
