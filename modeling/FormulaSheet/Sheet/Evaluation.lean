import FormulaSheet.Formula.Parse
import FormulaSheet.Sheet.Basic

/-!
# Evaluating formulas in a sheet

A formula is evaluated at the values that the sheet holds at the moment, without recomputing the
cells that it refers to. A cell whose formula is blank gets the value 0, though blank text by itself
has no value.
-/

namespace FormulaSheet

/-- What evaluation depends on besides the sheet. -/
structure Settings where
  /-- Numbers that differ by less than this are equal to `=`. -/
  tolerance : Float := 1e-6
  deriving Repr, DecidableEq

/-- Why a formula has no value. -/
inductive FormulaError where
  | parse (error : ParseError)
  | fault (fault : Fault)
  deriving Repr, DecidableEq

/-- The message of an error. -/
def FormulaError.message : FormulaError → String
  | parse e => e.message
  | fault f => f.message

namespace Sheet

/-- The value of a formula. -/
def evaluate (settings : Settings) (sheet : Sheet) (text : String) : Except FormulaError Float :=
  match parse text with
  | .error error => .error (.parse error)
  | .ok e =>
    match e.eval settings.tolerance sheet.lookup with
    | .error fault => .error (.fault fault)
    | .ok value => .ok value

/-- The value that a cell with this formula gets. -/
def evaluateCell (settings : Settings) (sheet : Sheet) (text : String) :
    Except FormulaError Float :=
  if allBlank text.toList then .ok 0 else evaluate settings sheet text

end Sheet

end FormulaSheet
