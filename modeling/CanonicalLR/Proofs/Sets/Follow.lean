import CanonicalLR.Proofs.Sets.First
import Mathlib.Algebra.Order.BigOperators.Group.List
import Mathlib.Algebra.Order.Group.Nat

/-!
Contract: membership in the FOLLOW sets of a grammar.

Owns:
- the places of nonterminals on the right-hand sides;
- the FOLLOW equations as a system, and that enough passes are made over them, after which a
  further one changes nothing;
- membership in a FOLLOW set, by the places of its nonterminal.

Does not own: what this means for derivations.
-/

namespace CanonicalLR

/-! ### Places of nonterminals -/

theorem mem_occurrencesIn {lhs : String} {rhs : List Symbol} {occurrence : Occurrence} :
    occurrence ∈ occurrencesIn lhs rhs ↔ occurrence.lhs = lhs ∧ ∃ before behind,
      rhs = before ++ .nonterminal occurrence.nonterminal :: behind ∧
        occurrence.next? = behind.head? := by
  induction rhs with
  | nil => simp [occurrencesIn]
  | cons symbol rest inductionHypothesis =>
      -- A place behind the first symbol is a place of the rest.
      have later : (∃ before behind,
            symbol :: rest = before ++ .nonterminal occurrence.nonterminal :: behind ∧
              occurrence.next? = behind.head?) ↔
          (symbol = .nonterminal occurrence.nonterminal ∧ occurrence.next? = rest.head?) ∨
            ∃ before behind, rest = before ++ .nonterminal occurrence.nonterminal :: behind ∧
              occurrence.next? = behind.head? := by
        constructor
        · rintro ⟨_ | ⟨first, before⟩, behind, split, next⟩
          · cases split
            exact .inl ⟨rfl, next⟩
          · cases split
            exact .inr ⟨before, behind, rfl, next⟩
        · rintro (⟨rfl, next⟩ | ⟨before, behind, rfl, next⟩)
          · exact ⟨[], rest, rfl, next⟩
          · exact ⟨symbol :: before, behind, rfl, next⟩
      rw [later]
      cases symbol with
      | terminal name => simp [occurrencesIn, inductionHypothesis]
      | nonterminal name =>
          rw [occurrencesIn, List.mem_cons, inductionHypothesis, and_or_left]
          apply or_congr_left
          cases occurrence
          simp [eq_comm]

theorem length_occurrencesIn_le (lhs : String) (rhs : List Symbol) :
    (occurrencesIn lhs rhs).length ≤ rhs.length := by
  induction rhs with
  | nil => exact Nat.le_refl 0
  | cons symbol rest inductionHypothesis =>
      cases symbol with
      | terminal name =>
          rw [occurrencesIn, List.length_cons]
          omega
      | nonterminal name =>
          rw [occurrencesIn, List.length_cons, List.length_cons]
          omega

namespace Grammar

variable {grammar : Grammar}

theorem mem_occurrences {occurrence : Occurrence} :
    occurrence ∈ grammar.occurrences ↔ ∃ production ∈ grammar.productions,
      production.lhs = occurrence.lhs ∧ ∃ before behind,
        production.rhs = before ++ .nonterminal occurrence.nonterminal :: behind ∧
          occurrence.next? = behind.head? := by
  simp only [occurrences, List.mem_flatMap, mem_occurrencesIn, eq_comm]

theorem length_occurrences_le (grammar : Grammar) :
    grammar.occurrences.length ≤ grammar.rhsLengths := by
  rw [occurrences, List.length_flatMap]
  exact List.sum_le_sum fun production _ => length_occurrencesIn_le production.lhs production.rhs

/-! ### The equations -/

/-- The terminals that follow a nonterminal when each one is followed by what the next symbol
starts with, by what follows the left-hand side at the end of a right-hand side and, if it is
the start symbol and listed, by the end of input. -/
inductive Follows (grammar : Grammar) : String → String → Prop where
  | endMarker (listed : grammar.start ∈ grammar.nonterminals) :
      Follows grammar grammar.start grammar.endMarker
  | ahead {production : Production} {before behind : List Symbol} {name : String}
      {next : Symbol} {terminal : String} (member : production ∈ grammar.productions)
      (rhs : production.rhs = before ++ .nonterminal name :: next :: behind)
      (starts : grammar.Starts next terminal) : Follows grammar name terminal
  | atEnd {production : Production} {before : List Symbol} {name terminal : String}
      (member : production ∈ grammar.productions)
      (rhs : production.rhs = before ++ [.nonterminal name])
      (follows : Follows grammar production.lhs terminal) : Follows grammar name terminal

/-- What the next symbol starts with belongs to a nonterminal, and at the end of a right-hand
side what belongs to the left-hand side. -/
def followEquation (first : NameMap NameSet) (occurrence : Occurrence) : SetEquation where
  target := occurrence.nonterminal
  value sets :=
    match occurrence.next? with
    | some symbol => firstOf first symbol
    | none => sets occurrence.lhs

theorem followPass_eq (grammar : Grammar) (first follow : NameMap NameSet) :
    followPass grammar first follow =
      SetEquation.pass (grammar.occurrences.map (followEquation first)) follow := by
  unfold followPass SetEquation.pass SetEquation.addAll
  rw [List.foldl_map]
  congr 1

theorem mem_value_followEquation {first : NameMap NameSet} {occurrence : Occurrence}
    {sets : String → NameSet} {member : String} :
    member ∈ (followEquation first occurrence).value sets ↔
      (∃ symbol, occurrence.next? = some symbol ∧ member ∈ firstOf first symbol) ∨
        occurrence.next? = none ∧ member ∈ sets occurrence.lhs := by
  unfold followEquation
  cases occurrence.next? with
  | none => simp
  | some symbol => simp

theorem mem_followSeed {name member : String} :
    member ∈ grammar.followSeed.setOf name ↔
      grammar.start ∈ grammar.nonterminals ∧ name = grammar.start ∧
        member = grammar.endMarker := by
  unfold followSeed
  split
  case isTrue listed =>
    by_cases same : name = grammar.start
    · simp [NameMap.setOf, same, listed]
    · have outside : member ∉ grammar.emptySets.setOf name := not_mem_emptySets name member
      rw [NameMap.setOf] at outside ⊢
      simp [same, outside]
  case isFalse unlisted => simp [unlisted, not_mem_emptySets]

/-! ### The solution -/

private abbrev first (grammar : Grammar) : NameMap NameSet :=
  grammar.firstSolution.1

private theorem mem_first {symbol : Symbol} {name : String} :
    name ∈ firstOf (first grammar) symbol ↔ grammar.Starts symbol name :=
  mem_firstOf

private theorem followEquation_keeps_follows :
    ∀ equation ∈ grammar.occurrences.map (followEquation (first grammar)),
      equation.Keeps grammar.Follows := by
  intro equation inEquations sets allowed member asked
  obtain ⟨occurrence, inOccurrences, rfl⟩ := List.mem_map.1 inEquations
  obtain ⟨production, inProductions, sameLhs, before, behind, rhs, next⟩ :=
    mem_occurrences.1 inOccurrences
  rcases mem_value_followEquation.1 asked with ⟨symbol, found, inFirst⟩ | ⟨nothing, inherited⟩
  · obtain ⟨rest, rfl⟩ := List.head?_eq_some_iff.1 (next.symm.trans found)
    exact .ahead inProductions rhs (mem_first.1 inFirst)
  · rw [List.head?_eq_none_iff.1 (next.symm.trans nothing)] at rhs
    exact .atEnd inProductions rhs (sameLhs ▸ allowed _ member inherited)

/-- The pairs that a FOLLOW set can consist of. -/
private def followPairs (grammar : Grammar) : Finset (String × String) :=
  (grammar.nonterminals.names ++ grammar.occurrences.map Occurrence.nonterminal).toFinset ×ˢ
    grammar.alphabet.names.toFinset

private theorem card_followPairs_lt : (followPairs grammar).card < grammar.passLimit := by
  have names := List.toFinset_card_le
    (grammar.nonterminals.names ++ grammar.occurrences.map Occurrence.nonterminal)
  have members := List.toFinset_card_le grammar.alphabet.names
  have places := length_occurrences_le grammar
  rw [List.length_append, List.length_map] at names
  calc (followPairs grammar).card
      ≤ (grammar.nonterminals.names.length + grammar.occurrences.length) *
          grammar.alphabet.names.length := by
        rw [followPairs, Finset.card_product]
        exact Nat.mul_le_mul names members
    _ ≤ (grammar.nonterminals.names.length + grammar.productions.length + grammar.rhsLengths) *
          grammar.alphabet.size := Nat.mul_le_mul_right _ (by omega)
    _ < grammar.passLimit := Nat.lt_succ_self _

private theorem followEquation_keeps_pairs :
    ∀ equation ∈ grammar.occurrences.map (followEquation (first grammar)),
      equation.Keeps fun name member => (name, member) ∈ followPairs grammar := by
  intro equation inEquations sets allowed member asked
  obtain ⟨occurrence, inOccurrences, rfl⟩ := List.mem_map.1 inEquations
  obtain ⟨production, inProductions, -, before, behind, rhs, next⟩ :=
    mem_occurrences.1 inOccurrences
  apply Finset.mem_product.2
  constructor
  · exact List.mem_toFinset.2 (List.mem_append_right _ (List.mem_map_of_mem inOccurrences))
  · rcases mem_value_followEquation.1 asked with ⟨symbol, found, inFirst⟩ | ⟨-, inherited⟩
    · apply List.mem_toFinset.2
      rcases (mem_first.1 inFirst).mem_alphabet with rfl | inAlphabet
      · obtain ⟨rest, rfl⟩ := List.head?_eq_some_iff.1 (next.symm.trans found)
        exact mem_alphabet.2 (.inr ⟨production, inProductions, by simp [rhs]⟩)
      · exact inAlphabet
    · exact (Finset.mem_product.1 (allowed _ member inherited)).2

private theorem followSeed_pairs :
    ∀ name, ∀ member ∈ grammar.followSeed.setOf name, (name, member) ∈ followPairs grammar := by
  intro name member present
  obtain ⟨listed, rfl, rfl⟩ := mem_followSeed.1 present
  apply Finset.mem_product.2
  exact ⟨List.mem_toFinset.2 (List.mem_append_left _ listed),
    List.mem_toFinset.2 (mem_alphabet.2 (.inl rfl))⟩

private theorem followSolution_eq (grammar : Grammar) :
    grammar.followSolution (first grammar) =
      saturate (SetEquation.pass (grammar.occurrences.map (followEquation (first grammar))))
        grammar.passLimit grammar.followSeed := by
  rw [followSolution, funext (followPass_eq grammar (first grammar))]

private theorem settles_followEquations (grammar : Grammar) :
    Settles (SetEquation.pass (grammar.occurrences.map (followEquation (first grammar))))
      grammar.followSeed (grammar.followSolution (first grammar)) := by
  rw [followSolution_eq]
  exact SetEquation.settles_saturate followEquation_keeps_pairs card_followPairs_lt
    followSeed_pairs

/-- The FOLLOW sets are what passes come to when nothing limits them. -/
theorem settles_followPass (grammar : Grammar) :
    Settles (followPass grammar grammar.firstSolution.1) grammar.followSeed
      (grammar.followSolution grammar.firstSolution.1) := by
  rw [funext (followPass_eq grammar _)]
  exact settles_followEquations grammar

/-- Every listed nonterminal has its FOLLOW set. -/
theorem exists_follow {name : String} (listed : name ∈ grammar.nonterminals) :
    ∃ follow, (Sets.ofGrammar grammar).follow.get? name = some follow := by
  have entry : (grammar.followSeed.get? name).isSome = true := by
    unfold followSeed
    split
    · rw [NameMap.get?_insert]
      split
      · rfl
      · exact isSome_get?_emptySets listed
    · exact isSome_get?_emptySets listed
  exact Option.isSome_iff_exists.1
    (SetEquation.isSome_get?_of_settles (settles_followEquations grammar) entry)

theorem followPass_followSolution (grammar : Grammar) :
    followPass grammar grammar.firstSolution.1
        (grammar.followSolution grammar.firstSolution.1).1 =
      ⟨(grammar.followSolution grammar.firstSolution.1).1, false⟩ := by
  rw [followPass_eq]
  exact SetEquation.pass_eq_self_of_settles (settles_followEquations grammar)

/-- The FOLLOW sets hold exactly what follows the nonterminals. -/
theorem mem_follow {name terminal : String} :
    terminal ∈ (Sets.ofGrammar grammar).follow.setOf name ↔ grammar.Follows name terminal := by
  show terminal ∈ (grammar.followSolution (first grammar)).1.setOf name ↔ _
  constructor
  · intro member
    rw [followSolution_eq] at member
    refine SetEquation.allowed_saturate followEquation_keeps_follows _ ?_ name terminal member
    intro name member present
    obtain ⟨listed, rfl, rfl⟩ := mem_followSeed.1 present
    exact .endMarker listed
  · have settles := settles_followEquations grammar
    have solved := SetEquation.solved_of_settles settles
    intro follows
    induction follows with
    | endMarker listed =>
        exact SetEquation.mem_of_settles settles (mem_followSeed.2 ⟨listed, rfl, rfl⟩)
    | @ahead production before behind name next terminal inProductions rhs starts =>
        have place : ⟨production.lhs, name, some next⟩ ∈ grammar.occurrences :=
          mem_occurrences.2 ⟨production, inProductions, rfl, before, next :: behind, rhs, rfl⟩
        apply solved _ (List.mem_map_of_mem place)
        exact mem_value_followEquation.2 (.inl ⟨next, rfl, mem_first.2 starts⟩)
    | @atEnd production before name terminal inProductions rhs _ inductionHypothesis =>
        have place : ⟨production.lhs, name, none⟩ ∈ grammar.occurrences :=
          mem_occurrences.2 ⟨production, inProductions, rfl, before, [], rhs, rfl⟩
        apply solved _ (List.mem_map_of_mem place)
        exact mem_value_followEquation.2 (.inr ⟨rfl, inductionHypothesis⟩)

end Grammar

end CanonicalLR
