import FormulaSheet.Formula.Expr
import FormulaSheet.Formula.Reader
import FormulaSheet.Number.Binary64
import FormulaSheet.Text.Letter

/-!
# The grammar of formulas

One reader for each rule, from the loosest operator to the atoms:

    formula     := disjunction END
    disjunction := conjunction ("or" conjunction)*
    conjunction := comparison ("and" comparison)*
    comparison  := sum (("=" | "<" | ">") sum)?
    sum         := product (("+" | "-") product)*
    product     := signed (("*" | "/") signed)*
    signed      := ("not" | "-")* atom
    atom        := number | "(" disjunction ")"
                 | ("max" | "min") "(" disjunction "," disjunction ")" | reference
    number      := digit+ ("." digit*)? | "." digit+
    reference   := letter (letter | numeral)*

White space may stand around every token. Keywords are read letter by letter in either case of the
ASCII letters, and a word may go on after a keyword. The rules for what may stand inside parentheses
take its reader as a parameter, and `expression` closes the circle to a given depth of nesting.
-/

namespace FormulaSheet

namespace Grammar

open Reader

/-! ## Tokens -/

/-- Reads the letters of a word in either case. -/
def letters : List Char → Reader Unit
  | [] => pure ()
  | letter :: word => do
    let _ ← kind (·.toLower == letter)
    letters word

/-- Reads a keyword, given in lower case, that stands for a value. -/
def keyword (word : String) (value : α) : Reader α := do
  padded (letters word.toList)
  return value

/-- Reads a character that stands for a value. -/
def mark (c : Char) (value : α) : Reader α := do
  let _ ← padded (character c)
  return value

/-- Reads an ASCII digit. -/
def digit : Reader Char := kind Char.isDigit

/-- Reads the digits of a number and its point, which may be missing or stand last or first. -/
def decimal : Reader Decimal :=
  (do
    let whole ← many1 digit
    let fraction ← optionally (do let _ ← character '.'; many digit)
    return Decimal.ofDigits whole (fraction.getD [])) <|>
  (do
    let _ ← character '.'
    let fraction ← many1 digit
    return Decimal.ofDigits [] fraction)

/-- Reads a number, which has no sign and no exponent. -/
def number : Reader Expr := do
  let d ← padded decimal
  return .number d.toFloat

/-- Reads the name of a cell. -/
def cellName : Reader String := do
  let first ← kind isLetter
  let rest ← many (kind isLetterOrNumeral)
  return String.ofList (first :: rest)

/-- Reads a reference to a cell. -/
def reference : Reader Expr := do
  let name ← padded cellName
  return .cell name

/-! ## Atoms -/

/-- Reads an expression in parentheses. -/
def group (inner : Reader Expr) : Reader Expr := do
  mark '(' ()
  let e ← inner
  mark ')' ()
  return e

/-- Reads the name of a function. -/
def functionName : Reader Builtin :=
  keyword "max" .max <|> keyword "min" .min

/-- Reads a call with two arguments. -/
def call (inner : Reader Expr) : Reader Expr := do
  let function ← functionName
  mark '(' ()
  let first ← inner
  mark ',' ()
  let second ← inner
  mark ')' ()
  return .call function [first, second]

/-- Reads an operand without operators outside parentheses. -/
def atom (inner : Reader Expr) : Reader Expr :=
  number <|> group inner <|> call inner <|> reference

/-! ## Operators -/

/-- Reads the operators before an atom, of which the last applies first. -/
def signed (inner : Reader Expr) : Reader Expr := do
  let ops ← many (keyword "not" UnaryOp.not <|> mark '-' UnaryOp.neg)
  let operand ← atom inner
  return ops.foldr .unary operand

/-- Reads an operator and its right operand. -/
def operation (op : Reader BinaryOp) (operand : Reader Expr) : Reader (BinaryOp × Expr) := do
  let op ← op
  let right ← operand
  return (op, right)

/-- Reads operands with operators between them, of which the first applies first. -/
def chain (op : Reader BinaryOp) (operand : Reader Expr) : Reader Expr := do
  let first ← operand
  let operations ← many (operation op operand)
  return operations.foldl (fun left (op, right) => .binary op left right) first

/-- Reads factors with `*` and `/` between them. -/
def product (inner : Reader Expr) : Reader Expr :=
  chain (mark '*' .mul <|> mark '/' .div) (signed inner)

/-- Reads terms with `+` and `-` between them. -/
def sum (inner : Reader Expr) : Reader Expr :=
  chain (mark '+' .add <|> mark '-' .sub) (product inner)

/-- Reads a sum that is compared with at most one other. -/
def comparison (inner : Reader Expr) : Reader Expr := do
  let left ← sum inner
  let op := mark '=' .eq <|> mark '<' .lt <|> mark '>' .gt
  match ← optionally (operation op (sum inner)) with
  | none => return left
  | some (op, right) => return .binary op left right

/-- Reads comparisons with `and` between them. -/
def conjunction (inner : Reader Expr) : Reader Expr :=
  chain (keyword "and" .and) (comparison inner)

/-- Reads conjunctions with `or` between them. -/
def disjunction (inner : Reader Expr) : Reader Expr :=
  chain (keyword "or" .or) (conjunction inner)

/-! ## Nesting -/

/-- Reads an expression whose parentheses are nested less deep than `depth`. -/
def expression : Nat → Reader Expr
  | 0 => stuck
  | depth + 1 => ⟨fun text => (disjunction (expression depth)).run text⟩

/-- Reads a whole text as an expression. No text nests deeper than it has characters. -/
def formula : Reader Expr :=
  ⟨fun text =>
    (do
      let e ← expression (text.length + 1)
      ending
      return e : Reader Expr).run text⟩

end Grammar

end FormulaSheet
