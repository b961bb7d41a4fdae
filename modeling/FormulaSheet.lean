import FormulaSheet.Grid.Position
import FormulaSheet.Spreadsheet
import FormulaSheet.Proofs.ReaderLaws
import FormulaSheet.Proofs.Sentences
import FormulaSheet.Proofs.TokenReaders
import FormulaSheet.Proofs.Phrases
import FormulaSheet.Proofs.ParseSound
import FormulaSheet.Proofs.ParseComplete
import FormulaSheet.Proofs.Cursor
import FormulaSheet.Proofs.Tracking
import FormulaSheet.Proofs.OperandTracking
import FormulaSheet.Proofs.WordTracking
import FormulaSheet.Proofs.Obstacles
import FormulaSheet.Proofs.Viability
import FormulaSheet.Proofs.Expectations
import FormulaSheet.Proofs.Names
import FormulaSheet.Proofs.SheetLaws
import FormulaSheet.Proofs.Recalculation
import FormulaSheet.Proofs.Runs
import FormulaSheet.Proofs.History
import FormulaSheet.Proofs.Convergence
import FormulaSheet.Proofs.FloatBits
import FormulaSheet.Proofs.Rounding
import FormulaSheet.Proofs.DecimalText
import FormulaSheet.Proofs.ValueText
import FormulaSheet.Proofs.WellShaped
import FormulaSheet.Proofs.Writer
import FormulaSheet.Proofs.Locality
import FormulaSheet.Proofs.FailureLog
import FormulaSheet.Proofs.ColumnNames
import FormulaSheet.Proofs.PositionNames
import FormulaSheet.Proofs.FinalErrors
import FormulaSheet.Proofs.Padding
import FormulaSheet.Proofs.Nearest
import FormulaSheet.Proofs.FloatValue
import FormulaSheet.Proofs.Literals
import FormulaSheet.Proofs.ShortestDecimal
import FormulaSheet.Proofs.ShortestText
import FormulaSheet.Proofs.LetterCase
import FormulaSheet.Proofs.CaseOfRuns
import FormulaSheet.Proofs.ColumnNumbering
import FormulaSheet.Proofs.NotANumber
import FormulaSheet.Proofs.FloatOrder
import FormulaSheet.Proofs.Propositions
import FormulaSheet.Proofs.Extrema
import FormulaSheet.Proofs.MissingCells
import FormulaSheet.Proofs.Notes
import FormulaSheet.Proofs.Progress
import FormulaSheet.Proofs.Nesting
import FormulaSheet.Proofs.Messages
