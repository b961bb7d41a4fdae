import FormulaSheet.Grid.Column

/-!
# Positions in the grid

A position is a row and a column, both counted from 0. Its name is the column's name followed by the
row counted from 1, and positions are ordered by row and then by column.
-/

namespace FormulaSheet

/-- A place in the grid, counted from 0. -/
structure Position where
  row : Nat
  col : Nat
  deriving Repr, DecidableEq

namespace Position

/-- The name of the cell at a position: `A1` for row 0 and column 0. -/
def name (p : Position) : String :=
  String.ofList (columnLetters (p.col + 1) (Nat.toDigits 10 (p.row + 1)))

/-- Row by row, and in a row by column. -/
def le (p q : Position) : Bool := p.row < q.row || (p.row == q.row && p.col ≤ q.col)

/-- The positions in ascending order. -/
def sort (positions : List Position) : List Position := positions.mergeSort le

end Position

end FormulaSheet
