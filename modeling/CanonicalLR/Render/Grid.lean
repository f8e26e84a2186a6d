import CanonicalLR.Render.Width
import CanonicalLR.TextLines

/-!
Contract: grids of text cells.

Owns:
- the drawing of a grid with rules around every cell;
- the grid as comma-separated values.

Does not own: what the cells say, the lines of a text, and the width of characters.

All rows of a grid have the same number of cells.
-/

namespace CanonicalLR

/-- The cells of each row, from top to bottom and from left to right. -/
structure Grid where
  rows : List (List String)
deriving DecidableEq

namespace Grid

/-- The larger entry at each position; a missing entry yields to the other one. -/
def widest : List Nat → List Nat → List Nat
  | [], right => right
  | left, [] => left
  | leftHead :: left, rightHead :: right => max leftHead rightHead :: widest left right

/-- The width of a cell's widest line. -/
def cellWidth (lines : List String) : Nat :=
  (lines.map Display.width).foldl max 0

/-- The width of each column. -/
def columnWidths (rows : List (List (List String))) : List Nat :=
  rows.foldl (fun widths row => widest widths (row.map cellWidth)) []

/-- The rule between two rows. -/
def rule (widths : List Nat) : String :=
  "+" ++ String.join (widths.map fun width =>
    String.ofList (List.replicate (width + 2) '-') ++ "+") ++ "\n"

/-- The drawn lines of a row. It is as high as its highest cell, and at least
one line high; cells are filled up with blank lines. -/
def drawRow (widths : List Nat) (row : List (List String)) : String :=
  let height := (row.map List.length).foldl max 1
  String.join ((List.range height).map fun index =>
    let cells := List.zipWith
      (fun width lines => " " ++ Display.padRight width (lines[index]?.getD "") ++ " |")
      widths row
    "|" ++ String.join cells ++ "\n")

/-- The grid with a rule above each row and below the last one. -/
def draw (grid : Grid) : String :=
  let rows := grid.rows.map fun row => row.map TextLines.split
  let widths := columnWidths rows
  String.join (rows.map fun row => rule widths ++ drawRow widths row) ++ rule widths

/-- A field with a comma, a quote or a line break is quoted, the quotes in it
doubled. -/
def quoteField (field : String) : String :=
  let special (character : Char) : Bool :=
    character = ',' || character = '"' || character = '\r' || character = '\n'
  if field.toList.any special then
    "\"" ++ String.ofList (field.toList.flatMap fun character =>
      if character = '"' then ['"', '"'] else [character]) ++ "\""
  else
    field

/-- The rows as comma-separated values, one record per row. Line ends inside of
a cell become line feeds, and one at its end is dropped. -/
def csv (grid : Grid) : String :=
  String.join (grid.rows.map fun row =>
    ",".intercalate (row.map fun cell =>
      quoteField ("\n".intercalate (TextLines.split cell))) ++ "\n")

end Grid

end CanonicalLR
