import CanonicalLR.Grammar.Source
import CanonicalLR.Proofs.Outcome
import Mathlib.Data.List.Basic
import Mathlib.Data.List.Induction

/-!
Contract: reading productions from tokens.

Owns:
- the tokens of a production, and which productions have tokens that can be read;
- the places of a production where reading can stand, and what each token does there;
- that productions are read from their tokens, and from no other ones.

Does not own: the text between tokens, and why other tokens fail.
-/

namespace CanonicalLR

/-! ### Tokens of productions -/

def Symbol.token : Symbol → Token
  | terminal name => .terminal name
  | nonterminal name => .nonterminal name

theorem Symbol.token_injective : Function.Injective Symbol.token := by
  intro left right same
  cases left <;> cases right <;> cases same <;> rfl

namespace Production

/-- A right-hand side that grammar text can spell. -/
def Readable (endMarker : String) (production : Production) : Prop :=
  production.rhs ≠ [] ∧ .terminal endMarker ∉ production.rhs

def tokens (production : Production) : List Token :=
  .nonterminal production.lhs :: .colon :: (production.rhs.map Symbol.token ++ [.semicolon])

/-- The production without its start mark. -/
def unmarked (production : Production) : Production :=
  { production with isStart := false }

end Production

theorem flatMap_tokens_ne_nil {productions : List Production} (someProduction : productions ≠ []) :
    productions.flatMap Production.tokens ≠ [] := by
  obtain ⟨first, others, rfl⟩ := List.exists_cons_of_ne_nil someProduction
  exact List.cons_ne_nil _ _

/-! ### Places -/

/-- How far a production has been read: not at all, up to its left-hand side, or up to its colon
and some symbols. -/
inductive ReadingPlace where
  | front
  | behindName (lhs : String)
  | behindColon (lhs : String) (symbols : List Symbol)

namespace ReadingPlace

/-- The tokens of the production that have been read. -/
def tokens : ReadingPlace → List Token
  | front => []
  | behindName lhs => [.nonterminal lhs]
  | behindColon lhs symbols => .nonterminal lhs :: .colon :: symbols.map Symbol.token

/-- The symbols of the production that have been read. -/
def symbols : ReadingPlace → List Symbol
  | front => []
  | behindName _ => []
  | behindColon _ symbols => symbols

def expectation : ReadingPlace → Expectation
  | front => .nonterminal
  | behindName _ => .colon
  | behindColon _ _ => .symbolOrSemicolon

/-- The token takes reading from one place to the next one. -/
inductive Steps (endMarker : String) : ReadingPlace → Token → ReadingPlace → Prop where
  | name (lhs : String) : Steps endMarker front (.nonterminal lhs) (behindName lhs)
  | colon (lhs : String) : Steps endMarker (behindName lhs) .colon (behindColon lhs [])
  | symbol {lhs : String} {symbols : List Symbol} {token : Token} {symbol : Symbol}
      (isSymbol : token = symbol.token) (other : symbol ≠ .terminal endMarker) :
      Steps endMarker (behindColon lhs symbols) token (behindColon lhs (symbols ++ [symbol]))
  | semicolon {lhs : String} {symbols : List Symbol} (someSymbol : symbols ≠ []) :
      Steps endMarker (behindColon lhs symbols) .semicolon front

/-- The production that the token completes at the place, if it completes one. -/
def completed : ReadingPlace → Token → List Production
  | behindColon lhs symbols, .semicolon => [⟨lhs, symbols, false⟩]
  | _, _ => []

theorem completed_symbol (place : ReadingPlace) (symbol : Symbol) :
    place.completed symbol.token = [] := by
  cases place <;> cases symbol <;> rfl

end ReadingPlace

/-- Tokens of the kind that is expected. -/
def Expectation.Allows : Expectation → Token → Prop
  | nonterminal, token => ∃ name, token = .nonterminal name
  | colon, token => token = .colon
  | symbolOrSemicolon, token => (∃ symbol : Symbol, token = symbol.token) ∨ token = .semicolon

/-- The lexeme, which is the one at `index`, cannot stand at the place. -/
inductive Refuses (endMarker : String) (index : Nat) :
    ReadingPlace → Lexeme → SyntaxError → Prop where
  | unexpectedToken {place : ReadingPlace} {lexeme : Lexeme}
      (unfit : ¬ place.expectation.Allows lexeme.token) :
      Refuses endMarker index place lexeme
        (.unexpectedToken place.expectation lexeme.token index lexeme.offset)
  | emptyRightHandSide (lhs : String) (offset : Nat) :
      Refuses endMarker index (.behindColon lhs []) ⟨.semicolon, offset⟩
        (.emptyRightHandSide lhs index)
  | reservedTerminal (lhs : String) (symbols : List Symbol) (offset : Nat) :
      Refuses endMarker index (.behindColon lhs symbols) ⟨.terminal endMarker, offset⟩
        (.reservedTerminal endMarker offset)

/-- The tokens are those of the productions and, behind these, of one up to the place. -/
structure StandsBehind (endMarker : String) (productions : List Production) (place : ReadingPlace)
    (tokens : List Token) : Prop where
  readable : ∀ production ∈ productions, production.Readable endMarker
  fresh : .terminal endMarker ∉ place.symbols
  spelled : tokens = productions.flatMap Production.tokens ++ place.tokens

section Place

variable {endMarker : String} {place next : ReadingPlace} {productions : List Production}
  {tokens : List Token} {token : Token}

/-- At every place, a lexeme is a step to the next one or it cannot stand there. -/
theorem steps_or_refuses (endMarker : String) (index : Nat) (place : ReadingPlace)
    (lexeme : Lexeme) :
    (∃ next, place.Steps endMarker lexeme.token next) ∨
      ∃ cause, Refuses endMarker index place lexeme cause := by
  by_cases fits : place.expectation.Allows lexeme.token
  · obtain ⟨token, offset⟩ := lexeme
    cases place with
    | front =>
        obtain ⟨name, rfl⟩ := fits
        exact .inl ⟨_, .name name⟩
    | behindName lhs =>
        cases fits
        exact .inl ⟨_, .colon lhs⟩
    | behindColon lhs symbols =>
        rcases fits with ⟨symbol, rfl⟩ | rfl
        · by_cases reserved : symbol = .terminal endMarker
          · subst reserved
            exact .inr ⟨_, .reservedTerminal lhs symbols offset⟩
          · exact .inl ⟨_, .symbol rfl reserved⟩
        · cases symbols with
          | nil => exact .inr ⟨_, .emptyRightHandSide lhs offset⟩
          | cons first others => exact .inl ⟨_, .semicolon (List.cons_ne_nil _ _)⟩
  · exact .inr ⟨_, .unexpectedToken fits⟩

/-- Every place but the front is one step behind another one, which completes nothing. -/
theorem ReadingPlace.eq_front_or_exists_step (fresh : .terminal endMarker ∉ next.symbols) :
    next = .front ∨ ∃ (place : ReadingPlace) (token : Token),
      .terminal endMarker ∉ place.symbols ∧ place.Steps endMarker token next ∧
        place.completed token = [] ∧ next.tokens = place.tokens ++ [token] := by
  cases next with
  | front => exact .inl rfl
  | behindName lhs => exact .inr ⟨.front, _, List.not_mem_nil, .name lhs, rfl, rfl⟩
  | behindColon lhs symbols =>
      rcases List.eq_nil_or_concat' symbols with rfl | ⟨earlier, last, rfl⟩
      · exact .inr ⟨.behindName lhs, _, List.not_mem_nil, .colon lhs, rfl, rfl⟩
      · simp only [ReadingPlace.symbols, List.mem_append, List.mem_singleton, not_or] at fresh
        exact .inr ⟨.behindColon lhs earlier, _, fresh.1, .symbol rfl (Ne.symm fresh.2),
          completed_symbol _ last, by simp [ReadingPlace.tokens]⟩

theorem Production.tokens_eq (production : Production) :
    production.tokens =
      (ReadingPlace.behindColon production.lhs production.rhs).tokens ++ [.semicolon] := rfl

theorem standsBehind_nil : StandsBehind endMarker [] .front [] :=
  ⟨by simp, List.not_mem_nil, rfl⟩

theorem StandsBehind.eq_front (stands : StandsBehind endMarker productions place []) :
    productions = [] ∧ place = .front := by
  obtain ⟨nothing, atPlace⟩ := List.append_eq_nil_iff.1 stands.spelled.symm
  constructor
  · by_contra someProduction
    exact flatMap_tokens_ne_nil someProduction nothing
  · cases place with
    | front => rfl
    | behindName | behindColon => contradiction

theorem StandsBehind.step (stands : StandsBehind endMarker productions place tokens)
    (steps : place.Steps endMarker token next) :
    StandsBehind endMarker (productions ++ place.completed token) next (tokens ++ [token]) := by
  obtain ⟨readable, fresh, rfl⟩ := stands
  cases steps with
  | name | colon =>
      simp only [ReadingPlace.completed, List.append_nil]
      exact ⟨readable, List.not_mem_nil, by simp [ReadingPlace.tokens]⟩
  | @symbol lhs symbols _ symbol isSymbol other =>
      rw [isSymbol, ReadingPlace.completed_symbol, List.append_nil]
      refine ⟨readable, ?_, by simp [ReadingPlace.tokens]⟩
      simpa [ReadingPlace.symbols, other.symm] using fresh
  | @semicolon lhs symbols someSymbol =>
      refine ⟨?_, List.not_mem_nil, ?_⟩
      · exact List.forall_mem_append.2 ⟨readable, List.forall_mem_singleton.2 ⟨someSymbol, fresh⟩⟩
      · simp [ReadingPlace.tokens, ReadingPlace.completed, Production.tokens]

/-- The last token has been a step from the place where the tokens before it stand. -/
theorem StandsBehind.exists_step
    (stands : StandsBehind endMarker productions next (tokens ++ [token])) :
    ∃ earlier place, StandsBehind endMarker earlier place tokens ∧
      place.Steps endMarker token next ∧
      productions.map Production.unmarked =
        earlier.map Production.unmarked ++ place.completed token := by
  obtain ⟨readable, fresh, same⟩ := stands
  rcases ReadingPlace.eq_front_or_exists_step fresh with
    rfl | ⟨place, last, freshBefore, steps, nothing, split⟩
  -- At the front the last token is the semicolon of the last production.
  · rw [ReadingPlace.tokens, List.append_nil] at same
    rcases List.eq_nil_or_concat' productions with rfl | ⟨earlier, production, rfl⟩
    · simp at same
    · obtain ⟨readableEarlier, readableLast⟩ := List.forall_mem_append.1 readable
      obtain ⟨someSymbol, freshLast⟩ := readableLast production (List.mem_singleton_self _)
      rw [List.flatMap_append, List.flatMap_singleton, production.tokens_eq,
        ← List.append_assoc] at same
      obtain ⟨rfl, isSemicolon⟩ := List.append_inj' same rfl
      cases isSemicolon
      exact ⟨earlier, .behindColon production.lhs production.rhs,
        ⟨readableEarlier, freshLast, rfl⟩, .semicolon someSymbol, List.map_append⟩
  · rw [split, ← List.append_assoc] at same
    obtain ⟨rfl, isLast⟩ := List.append_inj' same rfl
    cases isLast
    exact ⟨productions, place, ⟨readable, freshBefore, rfl⟩, steps,
      by rw [nothing, List.append_nil]⟩

end Place

/-! ### Reading -/

/-- The productions of the remaining tokens, where reading stands at the place. -/
def readFrom (endMarker : String) (index : Nat) :
    ReadingPlace → List Lexeme → Except SyntaxError (List Production)
  | .front => readProductions endMarker index
  | .behindName lhs => readColon endMarker lhs index
  | .behindColon lhs symbols => readSymbols endMarker lhs symbols.reverse index

section Read

variable {endMarker : String} {index : Nat} {place next : ReadingPlace} {token : Token}
  {tokens : List Token} {lexeme : Lexeme} {earlier lexemes : List Lexeme}
  {productions result : List Production} {cause : SyntaxError}

theorem ReadingPlace.Steps.readFrom_eq (steps : place.Steps endMarker token next)
    (index offset : Nat) (rest : List Lexeme) :
    readFrom endMarker index place (⟨token, offset⟩ :: rest) =
      (readFrom endMarker (index + 1) next rest).map (place.completed token ++ ·) := by
  have nothing (outcome : Except SyntaxError (List Production)) :
      outcome.map ([] ++ ·) = outcome := by
    cases outcome <;> rfl
  cases steps with
  | name lhs =>
      rw [readFrom, readProductions]
      exact (nothing _).symm
  | colon lhs =>
      rw [readFrom, readColon]
      exact (nothing _).symm
  | @symbol lhs symbols _ symbol isSymbol other =>
      rw [isSymbol, completed_symbol, nothing, readFrom, readFrom, List.reverse_concat]
      cases symbol with
      | nonterminal name =>
          rw [Symbol.token, readSymbols]
      | terminal name =>
          have differs : name ≠ endMarker := fun same => other (same ▸ rfl)
          rw [Symbol.token, readSymbols, if_neg differs]
  | @semicolon lhs symbols someSymbol =>
      have someBefore : ¬ symbols.reverse.isEmpty = true := by simpa using someSymbol
      rw [readFrom, readFrom, readSymbols, if_neg someBefore, List.reverse_reverse]
      rfl

theorem Refuses.readFrom_eq (refuses : Refuses endMarker index place lexeme cause)
    (rest : List Lexeme) : readFrom endMarker index place (lexeme :: rest) = .error cause := by
  cases refuses with
  | unexpectedToken unfit =>
      obtain ⟨token, offset⟩ := lexeme
      cases place with
      | front =>
          cases token with
          | nonterminal name => exact absurd ⟨name, rfl⟩ unfit
          | terminal | colon | semicolon => rfl
      | behindName lhs =>
          cases token with
          | colon => exact absurd rfl unfit
          | nonterminal | terminal | semicolon => rfl
      | behindColon lhs symbols =>
          cases token with
          | nonterminal name => exact absurd (.inl ⟨.nonterminal name, rfl⟩) unfit
          | terminal name => exact absurd (.inl ⟨.terminal name, rfl⟩) unfit
          | semicolon => exact absurd (.inr rfl) unfit
          | colon => rfl
  | emptyRightHandSide lhs offset => rfl
  | reservedTerminal lhs symbols offset => rw [readFrom, readSymbols, if_pos rfl]

theorem readFrom_nil (inside : place ≠ .front) :
    readFrom endMarker index place [] = .error (.unexpectedEnd place.expectation) := by
  cases place with
  | front => contradiction
  | behindName | behindColon => rfl

/-- Reading gets to the place where the tokens stand, with the productions in front of it. -/
theorem StandsBehind.readProductions_append
    (stands : StandsBehind endMarker productions place (earlier.map Lexeme.token))
    (later : List Lexeme) :
    readProductions endMarker 0 (earlier ++ later) =
      (readFrom endMarker earlier.length place later).map
        (productions.map Production.unmarked ++ ·) := by
  -- Along the tokens that have been read, as these decide the place; `later` stays open
  -- because each step takes its token from it.
  induction earlier using List.reverseRecOn generalizing productions place later with
  | nil =>
      obtain ⟨rfl, rfl⟩ := stands.eq_front
      rw [List.nil_append, List.length_nil, readFrom, List.map_nil]
      cases readProductions endMarker 0 later <;> rfl
  | append_singleton earlier lexeme inductionHypothesis =>
      rw [List.map_append] at stands
      obtain ⟨front, before, standsBefore, steps, same⟩ := stands.exists_step
      rw [List.append_assoc, List.singleton_append, inductionHypothesis standsBefore,
        steps.readFrom_eq, same, List.length_append, List.length_singleton]
      cases readFrom endMarker (earlier.length + 1) place later with
      | error cause => rfl
      | ok rest => simp [Except.map]

/-- When reading succeeds, all tokens are those of productions. -/
theorem StandsBehind.exists_of_readFrom (stands : StandsBehind endMarker productions place tokens)
    (read : readFrom endMarker index place lexemes = .ok result) :
    ∃ others, StandsBehind endMarker others .front (tokens ++ lexemes.map Lexeme.token) := by
  induction lexemes generalizing index place tokens productions result with
  | nil =>
      by_cases atFront : place = .front
      · subst atFront
        exact ⟨productions, by simpa using stands⟩
      · rw [readFrom_nil atFront] at read
        contradiction
  | cons lexeme rest inductionHypothesis =>
      rcases steps_or_refuses endMarker index place lexeme with ⟨next, steps⟩ | ⟨cause, refuses⟩
      · rw [steps.readFrom_eq, map_eq_ok] at read
        obtain ⟨others, readRest, -⟩ := read
        have whole := inductionHypothesis (stands.step steps) readRest
        rwa [List.append_assoc] at whole
      · rw [refuses.readFrom_eq] at read
        contradiction

theorem parseProductions_of_ne_nil (someLexeme : lexemes ≠ []) :
    parseProductions endMarker lexemes = readProductions endMarker 0 lexemes := by
  rw [parseProductions, if_neg (by rwa [List.isEmpty_iff])]

/-- The tokens of readable productions are read back as these. -/
theorem parseProductions_of_tokens (someProduction : productions ≠ [])
    (readable : ∀ production ∈ productions, production.Readable endMarker)
    (spelled : lexemes.map Lexeme.token = productions.flatMap Production.tokens) :
    parseProductions endMarker lexemes = .ok (productions.map Production.unmarked) := by
  have someLexeme : lexemes ≠ [] := by
    rintro rfl
    exact flatMap_tokens_ne_nil someProduction spelled.symm
  have stands : StandsBehind endMarker productions .front (lexemes.map Lexeme.token) :=
    ⟨readable, List.not_mem_nil, spelled.trans (List.append_nil _).symm⟩
  rw [parseProductions_of_ne_nil someLexeme, ← lexemes.append_nil,
    stands.readProductions_append, readFrom, readProductions]
  simp [Except.map]

theorem parseProductions_eq_ok_iff :
    parseProductions endMarker lexemes = .ok productions ↔
      productions ≠ [] ∧ (∀ production ∈ productions, production.Readable endMarker) ∧
        productions.map Production.unmarked = productions ∧
        lexemes.map Lexeme.token = productions.flatMap Production.tokens := by
  constructor
  · intro parsed
    have someLexeme : lexemes ≠ [] := by
      rintro rfl
      contradiction
    have read : readFrom endMarker 0 .front lexemes = .ok productions :=
      (parseProductions_of_ne_nil someLexeme).symm.trans parsed
    obtain ⟨others, readable, -, spelled⟩ := standsBehind_nil.exists_of_readFrom read
    rw [List.nil_append, ReadingPlace.tokens, List.append_nil] at spelled
    have someProduction : others ≠ [] := by
      rintro rfl
      exact someLexeme (List.map_eq_nil_iff.1 spelled)
    cases parsed.symm.trans (parseProductions_of_tokens someProduction readable spelled)
    refine ⟨by simpa using someProduction, ?_, by simp [Production.unmarked], ?_⟩
    · exact List.forall_mem_map.2 readable
    · rw [spelled, List.flatMap_map]
      rfl
  · rintro ⟨someProduction, readable, unmarked, spelled⟩
    rw [parseProductions_of_tokens someProduction readable spelled, unmarked]

end Read

end CanonicalLR
