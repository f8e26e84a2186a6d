import CanonicalLR.Render.Escape
import CanonicalLR.Table.Basic

/-!
Contract: the graph of the states in the DOT language.

Owns:
- a node per state, which shows its items, and an edge per transition.

Does not own: the escapes of labels.
-/

namespace CanonicalLR

namespace Graph

/-- The lookahead of an item: underlined when the item is complete, and an empty
set sign when it is empty otherwise. -/
def lookaheadLabel (item : Item) : String :=
  let label := escapeMarkup item.lookahead.text
  if item.isComplete then "<U>" ++ label ++ "</U>"
  else if label.isEmpty then "∅"
  else label

def itemRow (item : Item) : String :=
  "      <TR><TD ALIGN=\"LEFT\">" ++ escapeMarkup item.toCore.text ++ "</TD><TD>" ++
    lookaheadLabel item ++ "</TD></TR>"

def node (state : State) : String :=
  let id := toString state.id
  "  State" ++ id ++ " [shape=plain label=<\n" ++
    "    <TABLE BORDER=\"0\" CELLBORDER=\"1\" CELLSPACING=\"0\">\n" ++
    "      <TR><TD><B>State #" ++ id ++ "</B></TD><TD><B>Lookahead</B></TD></TR>\n" ++
    "\n".intercalate (state.items.items.map itemRow) ++ "\n" ++
    "    </TABLE>\n" ++
    "  >];"

/-- The edge from one state to another, with the text of a symbol whose name is
escaped. -/
def edge (source target : Nat) (opening name closing : String) : String :=
  "  State" ++ toString source ++ " -> State" ++ toString target ++ " [label=\"" ++ opening ++
    escapeQuoted name ++ closing ++ "\"];"

def gotoEdges (source : Nat) (row : Row) : List String :=
  row.gotos.entries.map fun (name, target) => edge source target "<" name ">"

def shiftEdges (source : Nat) (row : Row) : List String :=
  row.actions.entries.filterMap fun (name, action) =>
    match action with
    | .shift target => some (edge source target "[" name "]")
    | .reduce _ => none

end Graph

/-- The nodes in the order of the states, each followed by its edges in the
order of their names: GOTO entries, then shifts. -/
def ParseTable.graph (table : ParseTable) : String :=
  let describe (state : State) : List String :=
    Graph.node state ::
      match table.rows[state.id]? with
      | some row => Graph.gotoEdges state.id row ++ Graph.shiftEdges state.id row
      | none => []
  "\n".intercalate ("digraph lr1_states \x7b" :: table.states.toList.flatMap describe ++ ["\x7d"])

end CanonicalLR
