import FormulaSheet.Formula.Eval
import FormulaSheet.Number.ValueText
import FormulaSheet.Sheet.Name

/-!
# Sheets

A sheet keeps cells under the normal forms of their names, in ascending order. A cell appears when
its formula is set for the first time and is never removed. Setting a formula leaves the value as it
is, and setting a value leaves the formula.
-/

namespace FormulaSheet

/-- The formula of a cell as last set, and its value as last computed. -/
structure Cell where
  formula : String := ""
  value : Float := 0
  deriving DecidableEq

/-- Cells by the normal forms of their names, in ascending order. -/
structure Sheet where
  cells : List (String × Cell) := []
  deriving DecidableEq

/-- Puts a cell under a key into entries in ascending order, in the place of any cell that is there
under that key. -/
def putCell (key : String) (cell : Cell) : List (String × Cell) → List (String × Cell)
  | [] => [(key, cell)]
  | (other, present) :: later =>
    if key < other then (key, cell) :: (other, present) :: later
    else if key = other then (key, cell) :: later
    else (other, present) :: putCell key cell later

namespace Sheet

/-- The sheet without cells. -/
def empty : Sheet := {}

/-! ## Looking up -/

/-- The cell of a name. -/
def get? (sheet : Sheet) (name : String) : Option Cell := sheet.cells.lookup (normalName name)

/-- Whether there is a cell of a name. -/
def contains (sheet : Sheet) (name : String) : Bool := (sheet.get? name).isSome

/-- The number of cells. -/
def size (sheet : Sheet) : Nat := sheet.cells.length

/-- Whether there are no cells. -/
def isEmpty (sheet : Sheet) : Bool := sheet.cells.isEmpty

/-- The formula of a cell, empty if there is no cell. -/
def formula (sheet : Sheet) (name : String) : String := ((sheet.get? name).map (·.formula)).getD ""

/-- The value of a cell. -/
def value? (sheet : Sheet) (name : String) : Option Float := (sheet.get? name).map (·.value)

/-- The text of a cell's value, empty if there is no cell. -/
def valueText (sheet : Sheet) (name : String) : String :=
  ((sheet.value? name).map FormulaSheet.valueText).getD ""

/-- The value of a cell, or the fault that there is none. -/
def lookup (sheet : Sheet) (name : String) : Except Fault Float :=
  match sheet.value? name with
  | some value => .ok value
  | none => .error (.unknownCell (normalName name))

/-! ## Changing -/

/-- Sets the formula of a cell, which appears with the value 0 if there is none yet, and gives the
formula that the cell had before. -/
def setFormula (sheet : Sheet) (name text : String) : String × Sheet :=
  let cell := (sheet.get? name).getD {}
  (cell.formula, ⟨putCell (normalName name) { cell with formula := text } sheet.cells⟩)

/-- Sets the value of a cell, if there is one. -/
def setValue (sheet : Sheet) (name : String) (value : Float) : Sheet :=
  match sheet.get? name with
  | none => sheet
  | some cell => ⟨putCell (normalName name) { cell with value } sheet.cells⟩

end Sheet

end FormulaSheet
