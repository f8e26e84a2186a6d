import CanonicalLR.Proofs.Grammar.Reading
import Mathlib.Data.Nat.Order.Lemmas

/-!
Contract: tokens that do not make up productions.

Owns:
- that tokens can go on to productions exactly when they end at a place of a production, and
  that there is one such place only;
- that reading fails at the first token with which this is over, or behind the last one if
  this is inside a production.

Does not own: what is read from the tokens of productions.
-/

namespace CanonicalLR

/-- The tokens are those of productions that grammar text can spell, at least one. -/
def FormsProductions (endMarker : String) (tokens : List Token) : Prop :=
  ∃ productions, productions ≠ [] ∧
    (∀ production ∈ productions, production.Readable endMarker) ∧
    tokens = productions.flatMap Production.tokens

/-- With more tokens behind them, the tokens are those of productions. -/
def BeginsProductions (endMarker : String) (tokens : List Token) : Prop :=
  ∃ rest, FormsProductions endMarker (tokens ++ rest)

/-- The tokens are not those of productions yet, but they are with some more tokens. -/
def Unfinished (endMarker : String) (tokens : List Token) : Prop :=
  ¬ FormsProductions endMarker tokens ∧
    ∃ rest, rest ≠ [] ∧ FormsProductions endMarker (tokens ++ rest)

/-- The tokens are those of productions and, behind these, of one up to the place. -/
def StandsAt (endMarker : String) (tokens : List Token) (place : ReadingPlace) : Prop :=
  ∃ productions, StandsBehind endMarker productions place tokens

/-- The tokens can go on to productions before the one at `index`, and not behind it. -/
structure StuckAt (endMarker : String) (tokens : List Token) (index : Nat) : Prop where
  before : BeginsProductions endMarker (tokens.take index)
  behind : ¬ BeginsProductions endMarker (tokens.take (index + 1))

variable {endMarker : String}

/-! ### Where tokens stand -/

section Stands

variable {place next : ReadingPlace} {tokens rest : List Token} {token : Token}

theorem formsProductions_iff :
    FormsProductions endMarker tokens ↔ tokens ≠ [] ∧ StandsAt endMarker tokens .front := by
  constructor
  · rintro ⟨productions, someProduction, readable, rfl⟩
    exact ⟨flatMap_tokens_ne_nil someProduction, productions, readable, List.not_mem_nil,
      (List.append_nil _).symm⟩
  · rintro ⟨someToken, productions, readable, -, rfl⟩
    refine ⟨productions, ?_, readable, List.append_nil _⟩
    rintro rfl
    contradiction

theorem ReadingPlace.Steps.unique {other : ReadingPlace}
    (steps : place.Steps endMarker token next) (otherSteps : place.Steps endMarker token other) :
    next = other := by
  cases steps with
  | name | colon => cases otherSteps; rfl
  | @symbol _ _ _ symbol isSymbol _ =>
      cases otherSteps with
      | symbol otherSymbol _ => rw [Symbol.token_injective (isSymbol.symm.trans otherSymbol)]
      | semicolon => cases symbol <;> contradiction
  | semicolon =>
      cases otherSteps with
      | @symbol _ _ _ symbol isSymbol _ => cases symbol <;> contradiction
      | semicolon => rfl

/-- Tokens stand at one place only. -/
theorem StandsAt.unique {other : ReadingPlace} (stands : StandsAt endMarker tokens place)
    (otherStands : StandsAt endMarker tokens other) : place = other := by
  obtain ⟨productions, stands⟩ := stands
  obtain ⟨otherProductions, otherStands⟩ := otherStands
  induction tokens using List.reverseRecOn
    generalizing productions place otherProductions other with
  | nil => rw [stands.eq_front.2, otherStands.eq_front.2]
  | append_singleton tokens token inductionHypothesis =>
      obtain ⟨earlier, before, standsBefore, steps, -⟩ := stands.exists_step
      obtain ⟨otherEarlier, otherBefore, otherStandsBefore, otherSteps, -⟩ :=
        otherStands.exists_step
      cases inductionHypothesis earlier standsBefore otherEarlier otherStandsBefore
      exact steps.unique otherSteps

theorem StandsAt.exists_of_append (stands : StandsAt endMarker (tokens ++ rest) place) :
    ∃ earlier, StandsAt endMarker tokens earlier := by
  induction rest using List.reverseRecOn generalizing place with
  | nil =>
      rw [List.append_nil] at stands
      exact ⟨place, stands⟩
  | append_singleton rest token inductionHypothesis =>
      obtain ⟨productions, stands⟩ := stands
      rw [← List.append_assoc] at stands
      obtain ⟨earlier, before, standsBefore, -⟩ := stands.exists_step
      exact inductionHypothesis ⟨earlier, standsBefore⟩

/-- Some production begins with the tokens of the place and is not complete there. -/
theorem ReadingPlace.exists_production (fresh : .terminal endMarker ∉ place.symbols) :
    ∃ (production : Production) (rest : List Token), production.Readable endMarker ∧ rest ≠ [] ∧
      production.tokens = place.tokens ++ rest := by
  cases place with
  | front =>
      exact ⟨⟨"", [.nonterminal ""], false⟩, _, by simp [Production.Readable],
        List.cons_ne_nil _ _, rfl⟩
  | behindName lhs =>
      exact ⟨⟨lhs, [.nonterminal lhs], false⟩, _, by simp [Production.Readable],
        List.cons_ne_nil _ _, rfl⟩
  | behindColon lhs symbols =>
      refine ⟨⟨lhs, symbols ++ [.nonterminal lhs], false⟩, [.nonterminal lhs, .semicolon],
        ⟨by simp, ?_⟩, by simp, by simp [Production.tokens, tokens, Symbol.token]⟩
      simpa [ReadingPlace.symbols] using fresh

/-- The production at whose place the tokens stand can be completed. -/
theorem StandsAt.exists_rest (stands : StandsAt endMarker tokens place) :
    ∃ rest, rest ≠ [] ∧ FormsProductions endMarker (tokens ++ rest) := by
  obtain ⟨productions, readable, fresh, rfl⟩ := stands
  obtain ⟨production, rest, readableLast, someToken, same⟩ := ReadingPlace.exists_production fresh
  refine ⟨rest, someToken, productions ++ [production], by simp, ?_, ?_⟩
  · exact List.forall_mem_append.2 ⟨readable, List.forall_mem_singleton.2 readableLast⟩
  · rw [List.append_assoc, ← same]
    simp

theorem StandsAt.unfinished (stands : StandsAt endMarker tokens place)
    (inside : place ≠ .front) : Unfinished endMarker tokens :=
  ⟨fun forms => inside (stands.unique (formsProductions_iff.1 forms).2), stands.exists_rest⟩

end Stands

/-! ### The token behind which no productions are possible -/

section Stuck

variable {tokens : List Token}

theorem BeginsProductions.take_of_le {short long : Nat} (le : short ≤ long)
    (begins : BeginsProductions endMarker (tokens.take long)) :
    BeginsProductions endMarker (tokens.take short) := by
  obtain ⟨rest, forms⟩ := begins
  obtain ⟨between, split⟩ := List.take_prefix_take_left le (l := tokens)
  refine ⟨between ++ rest, ?_⟩
  rwa [← List.append_assoc, split]

theorem StuckAt.unique {index other : Nat} (stuck : StuckAt endMarker tokens index)
    (otherStuck : StuckAt endMarker tokens other) : index = other := by
  rcases Nat.lt_trichotomy index other with before | same | behind
  · exact absurd (otherStuck.before.take_of_le before) stuck.behind
  · exact same
  · exact absurd (stuck.before.take_of_le behind) otherStuck.behind

end Stuck

/-! ### Outcomes -/

section Outcome

variable {index : Nat} {place : ReadingPlace} {lexemes : List Lexeme} {expected : Expectation}
  {cause : SyntaxError}

end Outcome

end CanonicalLR
