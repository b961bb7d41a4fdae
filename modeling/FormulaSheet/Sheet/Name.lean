import FormulaSheet.Text.UpperCase

/-!
# Names of cells

Any text names a cell, and the case of its letters does not matter: cells are kept under names in
upper case, their normal form.
-/

namespace FormulaSheet

/-- The normal form of a name. -/
def normalName (name : String) : String := String.ofList (upperCaseText name.toList)

end FormulaSheet
