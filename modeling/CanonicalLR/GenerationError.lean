import CanonicalLR.Action
import CanonicalLR.SyntaxError

/-!
Contract: the reasons why a grammar has no parse table.

Owns:
- the causes and their wording.

Does not own: the checks that find them.
-/

namespace CanonicalLR

inductive GenerationError where
  | malformedText (cause : SyntaxError)
  | missingStartProduction
  | undefinedNonterminal (nonterminal lhs : String)
  | duplicateRightHandSide (rhs : List Symbol) (productions : List Nat)
  | ambiguity (conflict : Conflict)
deriving DecidableEq

def GenerationError.message : GenerationError → String
  | malformedText cause => s!"syntax error: {cause.message}"
  | missingStartProduction => "grammar has no start production"
  | undefinedNonterminal nonterminal lhs =>
      s!"nonterminal <{nonterminal}> is used in a production of <{lhs}> but never defined"
  | duplicateRightHandSide rhs productions =>
      let indices := ", ".intercalate (productions.map toString)
      let symbols := " ".intercalate (rhs.map Symbol.text)
      s!"productions [{indices}] share the right-hand side `{symbols}`"
  | ambiguity conflict => s!"grammar is ambiguous: {conflict.text}"

end CanonicalLR
