import ScatterGather.Text.Width
/-!
Tables of text between rules, each column as wide as its widest line.
-/
namespace ScatterGather.Text

structure Table where
  header : List String
  rows : List (List String)

namespace Table

/-- A cell is as wide as its widest line. -/
def cellWidth (cell : String) : Nat := ((cell.splitOn "\n").map width).foldl max 0

/-- The width of each column. -/
def widths (t : Table) : List Nat :=
  t.rows.foldl (fun ws row => List.zipWith (fun w cell => max w (cellWidth cell)) ws row)
    (t.header.map cellWidth)

def pad (w : Nat) (line : String) : String :=
  line ++ String.ofList (List.replicate (w - width line) ' ')

def rule (ws : List Nat) : String :=
  let bars := ws.map fun w => String.ofList (List.replicate (w + 2) '-')
  "+" ++ "+".intercalate bars ++ "+"

/-- The lines of a row; lines that a cell does not have are blank. -/
def rowLines (ws : List Nat) (row : List String) : List String :=
  let cells := row.map fun cell => cell.splitOn "\n"
  let height := (cells.map List.length).foldl max 0
  (List.range height).map fun i =>
    let parts := List.zipWith (fun w lines => pad w ((lines[i]?).getD "")) ws cells
    "| " ++ " | ".intercalate parts ++ " |"

def lines (t : Table) : List String :=
  let ws := t.widths
  rule ws :: rowLines ws t.header ++ rule ws :: t.rows.flatMap (rowLines ws) ++ [rule ws]

end Table
end ScatterGather.Text
