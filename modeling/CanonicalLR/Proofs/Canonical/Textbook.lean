import CanonicalLR.Proofs.Sets.First
import Mathlib.Data.Set.Basic

/-!
Contract: the canonical LR(1) collection as textbooks define it.

Owns:
- items with a single lookahead terminal, their closure and their moves;
- the sets that moves reach from the initial one, and their conflicts;
- FIRST of a form, by the symbols of the form when no right-hand side is empty.

Does not own: how the states of a table represent these sets.
-/

namespace CanonicalLR

/-- A production with a dot in its right-hand side and one terminal that may
follow. -/
structure Triple where
  production : Nat
  dot : Nat
  terminal : String
deriving DecidableEq

def Triple.advance (triple : Triple) : Triple :=
  { triple with dot := triple.dot + 1 }

namespace Grammar

/-- The symbols behind the dot. -/
def behind? (grammar : Grammar) (triple : Triple) : Option (List Symbol) :=
  (grammar.productions[triple.production]?).map fun production =>
    production.rhs.drop triple.dot

/-- The terminals that the forms derived from `form` can begin with. -/
def First (grammar : Grammar) (form : List Symbol) : Set String :=
  {terminal | ∃ rest, grammar.Derives form (.terminal terminal :: rest)}

/-- The least set that contains the seeds and, for each of its items
`A → α . B β, a`, the items `B → . γ, b` with `b` in FIRST of `β a`. -/
inductive InClosure (grammar : Grammar) (seeds : Set Triple) : Triple → Prop where
  | seed {triple : Triple} (member : triple ∈ seeds) : InClosure grammar seeds triple
  | call {caller : Triple} {called : Production} {index : Nat} {behind : List Symbol}
      {terminal : String} (inside : InClosure grammar seeds caller)
      (behindDot : grammar.behind? caller = some (.nonterminal called.lhs :: behind))
      (found : grammar.productions[index]? = some called)
      (ahead : terminal ∈ grammar.First (behind ++ [.terminal caller.terminal])) :
      InClosure grammar seeds ⟨index, 0, terminal⟩

def closureOf (grammar : Grammar) (seeds : Set Triple) : Set Triple :=
  {triple | grammar.InClosure seeds triple}

/-- The items with `symbol` behind the dot, moved over it. -/
def movedOver (grammar : Grammar) (set : Set Triple) (symbol : Symbol) : Set Triple :=
  {triple | ∃ origin ∈ set, ∃ behind,
    grammar.behind? origin = some (symbol :: behind) ∧ triple = origin.advance}

def gotoOf (grammar : Grammar) (set : Set Triple) (symbol : Symbol) : Set Triple :=
  grammar.closureOf (grammar.movedOver set symbol)

/-- The start production with the dot in front and the end of input behind it. -/
def startItems (grammar : Grammar) : Set Triple :=
  {triple | ∃ production, grammar.startProduction? = some (triple.production, production) ∧
    triple.dot = 0 ∧ triple.terminal = grammar.endMarker}

def initialSet (grammar : Grammar) : Set Triple :=
  grammar.closureOf grammar.startItems

inductive InCollection (grammar : Grammar) : Set Triple → Prop where
  | initial : InCollection grammar grammar.initialSet
  | goto {set : Set Triple} (symbol : Symbol) (member : InCollection grammar set)
      (nonempty : (grammar.gotoOf set symbol).Nonempty) :
      InCollection grammar (grammar.gotoOf set symbol)

/-- The canonical LR(1) collection. -/
def collection (grammar : Grammar) : Set (Set Triple) :=
  {set | grammar.InCollection set}

/-- A complete item of the set shares its terminal with a terminal behind a dot or
with a complete item of another production. -/
def HasConflict (grammar : Grammar) (set : Set Triple) : Prop :=
  ∃ reduced ∈ set, grammar.behind? reduced = some [] ∧
    ((∃ shifted ∈ set, ∃ behind,
        grammar.behind? shifted = some (.terminal reduced.terminal :: behind)) ∨
      ∃ other ∈ set, grammar.behind? other = some [] ∧ other.terminal = reduced.terminal ∧
        other.production ≠ reduced.production)

variable {grammar : Grammar}

/-! ### FIRST -/

theorem mem_First_append (nonempty : ∀ production ∈ grammar.productions, production.rhs ≠ [])
    {behind : List Symbol} {next terminal : String} :
    terminal ∈ grammar.First (behind ++ [.terminal next]) ↔
      behind = [] ∧ terminal = next ∨
        ∃ first others, behind = first :: others ∧ grammar.Starts first terminal := by
  constructor
  · rintro ⟨rest, derives⟩
    obtain ⟨first, others, same, starts⟩ := starts_of_derives nonempty derives
    cases behind with
    | nil =>
        cases same
        cases starts
        exact .inl ⟨rfl, rfl⟩
    | cons head tail =>
        obtain ⟨sameHead, -⟩ := List.cons.inj same
        exact .inr ⟨head, tail, rfl, sameHead ▸ starts⟩
  · rintro (⟨rfl, rfl⟩ | ⟨first, others, rfl, starts⟩)
    · exact ⟨[], .refl⟩
    · obtain ⟨rest, derives⟩ := starts.derives
      exact ⟨_, derives.context [] (others ++ [.terminal next])⟩

/-! ### Closure -/

/-- Moves lead from nothing to nothing. -/
theorem closureOf_eq_empty {seeds : Set Triple} (empty : seeds = ∅) :
    grammar.closureOf seeds = ∅ := by
  rw [Set.eq_empty_iff_forall_notMem]
  intro triple inside
  induction inside with
  | seed member => simp [empty] at member
  | call _ _ _ _ inductionHypothesis => exact inductionHypothesis

end Grammar

end CanonicalLR
