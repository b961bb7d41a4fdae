import FormulaSheet.Sheet.Evaluation

/-!
# Recalculation

A recalculation visits all cells in ascending order of their names and stores the value of each
before it goes on to the next. A formula that refers to a cell further on therefore sees the value
that cell had before. A cell whose formula fails gets the value that is not a number, and its
failure goes into the log.
-/

namespace FormulaSheet

/-- A cell whose formula failed. -/
structure Failure where
  name : String
  error : FormulaError
  deriving DecidableEq

/-- What a recalculation makes of a sheet. -/
structure Recalculation where
  sheet : Sheet
  /-- The failures in the order of the visits. -/
  failures : List Failure
  deriving DecidableEq

namespace Sheet

/-- Visits cells, given by name and formula. -/
def recalculateCells (settings : Settings) (sheet : Sheet) : List (String × String) → Recalculation
  | [] => ⟨sheet, []⟩
  | (name, text) :: later =>
    match sheet.evaluateCell settings text with
    | .ok value => (sheet.setValue name value).recalculateCells settings later
    | .error error =>
      let result := (sheet.setValue name notANumber).recalculateCells settings later
      { result with failures := ⟨name, error⟩ :: result.failures }

/-- Visits all cells. -/
def recalculate (settings : Settings) (sheet : Sheet) : Recalculation :=
  sheet.recalculateCells settings (sheet.cells.map fun (name, cell) => (name, cell.formula))

end Sheet

/-! ## The log -/

/-- How much detail a log entry gives. -/
inductive LogLevel where
  | trace
  | debug
  deriving Repr, DecidableEq

/-- The name of a level. -/
def LogLevel.name : LogLevel → String
  | trace => "trace"
  | debug => "debug"

/-- An entry in the log of a recalculation. -/
inductive LogEntry where
  | failed (failure : Failure)
  | finished (cells failures : Nat)
  deriving DecidableEq

/-- The level of an entry. -/
def LogEntry.level : LogEntry → LogLevel
  | failed _ => .trace
  | finished .. => .debug

/-- The text of an entry. -/
def LogEntry.text : LogEntry → String
  | failed failure => "cell " ++ failure.name ++ " failed to evaluate: " ++ failure.error.message
  | finished cells failures =>
    "recalculated " ++ cells.repr ++ " cells, " ++ failures.repr ++ " failed to evaluate"

/-- The log of a recalculation: an entry for each failure and one for the whole. -/
def Recalculation.log (r : Recalculation) : List LogEntry :=
  r.failures.map .failed ++ [.finished r.sheet.size r.failures.length]

end FormulaSheet
