import CanonicalLR.Pattern.Fault

/-!
Contract: how deeply the parts of a written pattern are nested.

Owns:
- the first part at each depth, and the limit of depths.

Does not own: which parts there are.
-/

namespace CanonicalLR

/-- The span of the first part at each depth, the outermost depth first. -/
abbrev Nesting := List Span

namespace Nesting

/-- The parts with one more around all of them. -/
def around (inner : Nesting) (span : Span) : Nesting :=
  span :: inner

/-- Parts of which those on the left come first. -/
def before : Nesting → Nesting → Nesting
  | first :: lefts, _ :: rights => first :: before lefts rights
  | [], rights => rights
  | lefts, [] => lefts

/-- Parts one after the other. -/
def inOrder (nestings : List Nesting) : Nesting :=
  nestings.foldr before []

/-- How many parts may be nested. -/
def limit : Nat := 250

/-- The first part beyond the limit. -/
def excess? (nesting : Nesting) : Option Span :=
  nesting[limit]?

end Nesting

end CanonicalLR
