import CanonicalLR.Symbol

/-!
Contract: productions and their written form.

Owns:
- the two sides of a production, its start mark and its text.

Does not own: which production of a grammar carries the start mark.
-/

namespace CanonicalLR

structure Production where
  lhs : String
  rhs : List Symbol
  isStart : Bool
deriving DecidableEq

/-- The left-hand side, a colon, the symbols and a semicolon, each after one
space. This is grammar text: reading it gives the production back. -/
def Production.text (production : Production) : String :=
  "<" ++ production.lhs ++ "> :" ++ spacedText production.rhs ++ " ;"

end CanonicalLR
