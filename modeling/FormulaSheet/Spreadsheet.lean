import FormulaSheet.Sheet.Recalculation

/-!
# Spreadsheets

A spreadsheet is a sheet together with the settings that its formulas are evaluated with.
-/

namespace FormulaSheet

/-- A sheet and its settings. -/
structure Spreadsheet where
  sheet : Sheet := .empty
  settings : Settings := {}
  deriving DecidableEq

namespace Spreadsheet

/-- The spreadsheet without cells. -/
def empty (settings : Settings) : Spreadsheet := { settings }

/-- Sets the formula of a cell, which is not read before the next recalculation. -/
def setFormula (spreadsheet : Spreadsheet) (name text : String) : Spreadsheet :=
  { spreadsheet with sheet := (spreadsheet.sheet.setFormula name text).2 }

/-- The value of a formula at the values that the cells have now. -/
def evaluate (spreadsheet : Spreadsheet) (text : String) : Except FormulaError Float :=
  spreadsheet.sheet.evaluate spreadsheet.settings text

/-- Recomputes every cell, and gives the log. -/
def recalculate (spreadsheet : Spreadsheet) : List LogEntry × Spreadsheet :=
  let result := spreadsheet.sheet.recalculate spreadsheet.settings
  (result.log, { spreadsheet with sheet := result.sheet })

end Spreadsheet

end FormulaSheet
