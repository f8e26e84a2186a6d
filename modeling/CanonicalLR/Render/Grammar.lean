import CanonicalLR.Render.Grid
import CanonicalLR.Sets

/-!
Contract: the written forms of a grammar and its sets.

Owns:
- the grid of the numbered productions and the grid of the sets.

Does not own: the drawing of grids.
-/

namespace CanonicalLR

/-- The numbered productions; those with the start mark are pointed out. -/
def Grammar.productionGrid (grammar : Grammar) : Grid :=
  let row (production : Production) (index : Nat) : List String :=
    [toString index, production.text ++ if production.isStart then " (start)" else ""]
  ⟨["#", "Production"] :: grammar.productions.zipIdx.map fun (production, index) =>
    row production index⟩

/-- The sets of the nonterminals that the grammar lists, in that order. -/
def Sets.grid (sets : Sets) (grammar : Grammar) : Grid :=
  let row (name : String) : List String :=
    ["<" ++ name ++ ">", (sets.first.setOf name).text, (sets.follow.setOf name).text]
  ⟨["Nonterminal", "FIRST", "FOLLOW"] :: grammar.nonterminals.names.map row⟩

end CanonicalLR
