import CanonicalLR.GenerationError
import CanonicalLR.Grammar.Basic

/-!
Contract: the conditions on the productions of a grammar.

Owns:
- the search for an undefined nonterminal and for a repeated right-hand side,
  each in the order of the productions.

Does not own: conflicts, which only show in the parse table.
-/

namespace CanonicalLR.Grammar

/-- The left-hand side of each production with each nonterminal on its
right-hand side, in the order of the text. -/
def uses (grammar : Grammar) : List (String × String) :=
  grammar.productions.flatMap fun production =>
    (production.rhs.filterMap Symbol.nonterminal?).map (production.lhs, ·)

/-- Every right-hand side counts, also one that the start production never
reaches. -/
def checkDefined (grammar : Grammar) : Except GenerationError Unit :=
  match grammar.uses.find? fun (_, nonterminal) => !grammar.isDefined nonterminal with
  | some (lhs, nonterminal) => .error (.undefinedNonterminal nonterminal lhs)
  | none => .ok ()

/-- The first element that is equal to an earlier one. -/
def firstRepeated? {α : Type} [DecidableEq α] (earlier : List α) : List α → Option α
  | [] => none
  | head :: rest =>
      if head ∈ earlier then some head else firstRepeated? (head :: earlier) rest

/-- The indices of the productions with the right-hand side `rhs`. -/
def indicesOf (grammar : Grammar) (rhs : List Symbol) : List Nat :=
  (grammar.productions.zipIdx.filter fun (production, _) => production.rhs = rhs).map Prod.snd

def checkDistinctRightHandSides (grammar : Grammar) : Except GenerationError Unit :=
  match firstRepeated? [] (grammar.productions.map Production.rhs) with
  | some rhs => .error (.duplicateRightHandSide rhs (grammar.indicesOf rhs))
  | none => .ok ()

end CanonicalLR.Grammar
