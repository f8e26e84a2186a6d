import CanonicalLR.Render.Grid
import CanonicalLR.Table.Basic

/-!
Contract: the written forms of parse tables.

Owns:
- the cells of a state, the grid with item closures and the grid of entries;
- the compact form with one line per state.

Does not own: the drawing of grids and the graph of the states.

Columns stand in the order of the grammar's names: terminals, then
nonterminals. An entry for a name that the grammar does not list is not shown.
-/

namespace CanonicalLR.ParseTable

/-- The action for each terminal and the target for each nonterminal; an empty
text stands for no entry. -/
def cells (table : ParseTable) (state : Nat) : List String :=
  (table.grammar.terminals.names.map fun name =>
    ((table.action? state name).map Action.text).getD "") ++
  table.grammar.nonterminals.names.map fun name =>
    ((table.goto? state name).map toString).getD ""

/-- The states with their items, and the table entries next to them. -/
def closureGrid (table : ParseTable) : Grid :=
  let title :=
    ["#", "LR(1) item closure", "Lookahead"] ++
      (table.grammar.terminals.names.map fun name => "[" ++ name ++ "]") ++
      table.grammar.nonterminals.names.map fun name => "<" ++ name ++ ">"
  let row (state : State) : List String :=
    [toString state.id,
      "\n".intercalate (state.items.items.map fun item => item.toCore.text),
      "\n".intercalate (state.items.items.map fun item => item.lookahead.text)] ++
      table.cells state.id
  ⟨title :: table.states.toList.map row⟩

/-- The table entries alone, one row per state. -/
def entryGrid (table : ParseTable) : Grid :=
  let title := "state" :: (table.grammar.terminals.names ++ table.grammar.nonterminals.names)
  let row (state : State) : List String := ("state " ++ toString state.id) :: table.cells state.id
  ⟨title :: table.states.toList.map row⟩

/-- The entries of a state, each with the symbol that it is for. -/
def entryTexts (table : ParseTable) (state : Nat) : List String :=
  (table.grammar.terminals.names.filterMap fun name =>
    (table.action? state name).map fun action => "[" ++ name ++ "]=" ++ action.text) ++
  table.grammar.nonterminals.names.filterMap fun name =>
    (table.goto? state name).map fun target => "<" ++ name ++ ">=" ++ toString target

/-- One line per state with its entries, separated by a comma and a space. -/
def compactText (table : ParseTable) : String :=
  "\n".intercalate (table.states.toList.map fun state =>
    ", ".intercalate (table.entryTexts state.id))

end CanonicalLR.ParseTable
