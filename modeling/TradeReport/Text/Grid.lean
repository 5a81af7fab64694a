import TradeReport.Text.Width
/-!
# Grids of text

A grid is a list of rows of cells. Its columns are as wide as their widest cell, every cell has a blank on
either side, and a cell with line breaks stretches its row over several lines.
-/

namespace TradeReport

/-- The parts of a text between line breaks; a text without one is a single part. -/
def splitAtBreaks (text : List Char) : List (List Char) :=
  text.foldr
    (fun c parts =>
      match parts with
      | [] => if c = '\n' then [[], []] else [[c]]
      | part :: rest => if c = '\n' then [] :: part :: rest else (c :: part) :: rest)
    [[]]

/-- Parts put together with a separator between them. -/
def joinWith (separator : List Char) : List (List Char) → List Char
  | [] => []
  | [part] => part
  | part :: rest => part ++ separator ++ joinWith separator rest

namespace Grid

/-- The lines of one cell. -/
abbrev Cell := List (List Char)

def cell (text : String) : Cell :=
  splitAtBreaks text.toList

def cellWidth (lines : Cell) : Nat :=
  (lines.map Width.columns).foldl max 0

def columnWidth (rows : List (List Cell)) (column : Nat) : Nat :=
  (rows.map fun row => (row[column]?).elim 0 cellWidth).foldl max 0

/-- A line of a cell between two blanks, filled up to the width of its column. -/
def padded (width : Nat) (text : List Char) : List Char :=
  ' ' :: text ++ List.replicate (width - Width.columns text) ' ' ++ [' ']

/-- One line of a row: the line of that number of each cell. -/
def rowLine (widths : List Nat) (row : List Cell) (number : Nat) : List Char :=
  (widths.zip row).flatMap fun (width, lines) => padded width (lines.getD number [])

def rowLines (widths : List Nat) (row : List Cell) : List (List Char) :=
  (List.range ((row.map List.length).foldl max 0)).map (rowLine widths row)

/-- The lines of a grid, each behind the given margin. -/
def lines (margin : List Char) (rows : List (List String)) : List (List Char) :=
  let cells := rows.map fun row => row.map cell
  let count := (rows.map List.length).foldl max 0
  let widths := (List.range count).map (columnWidth cells)
  (cells.flatMap (rowLines widths)).map (margin ++ ·)

end Grid

end TradeReport
