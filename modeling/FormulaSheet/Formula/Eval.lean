import FormulaSheet.Formula.Expr

/-!
# Evaluating expressions

`Expr.eval` computes the value of an expression from the values of cells. All operands are
evaluated, from left to right, and the first fault ends the evaluation: a cell without a value, or a
call with the wrong number of arguments. Arithmetic itself never fails. Every number but zero counts
as true, and the operators that decide something give 1 or 0.
-/

namespace FormulaSheet

/-- Why an expression has no value. -/
inductive Fault where
  /-- A cell that does not exist, under the name that it would be kept under. -/
  | unknownCell (name : String)
  /-- A call with another number of arguments than the function takes. -/
  | arity (function : Builtin) (expected found : Nat)
  deriving Repr, DecidableEq

/-- The message of a fault. -/
def Fault.message : Fault → String
  | unknownCell name => "unknown cell `" ++ name ++ "`"
  | arity function expected found =>
    "`" ++ function.name ++ "` takes " ++ expected.repr ++ " arguments, got " ++ found.repr

/-- The value that is not a number. -/
def notANumber : Float := Float.ofBits 0x7FF8000000000000

/-- Whether a number counts as true. -/
def truthy (x : Float) : Bool := x != 0

/-- The number that stands for a truth value. -/
def truthValue (b : Bool) : Float := if b then 1 else 0

/-- The value of an operator at its operand. -/
def UnaryOp.apply : UnaryOp → Float → Float
  | neg, x => -x
  | not, x => truthValue (x == 0)

/-- The value of an operator at its operands, where numbers are equal that differ by less than
`tolerance`. -/
def BinaryOp.apply (tolerance : Float) : BinaryOp → Float → Float → Float
  | add, x, y => x + y
  | sub, x, y => x - y
  | mul, x, y => x * y
  | div, x, y => x / y
  | eq, x, y => truthValue ((x - y).abs < tolerance)
  | lt, x, y => truthValue (x < y)
  | gt, x, y => truthValue (y < x)
  | and, x, y => truthValue (truthy x && truthy y)
  | or, x, y => truthValue (truthy x || truthy y)

/-- The value of a function at two numbers: the greater or the smaller of them, and not a number if
one of them is none. -/
def Builtin.apply (function : Builtin) (x y : Float) : Float :=
  if x.isNaN || y.isNaN then notANumber
  else
    match function with
    | max => if x < y then y else x
    | min => if y < x then y else x

/-- The value of an expression, where `lookup` gives the values of cells by the names as written. -/
def Expr.eval (tolerance : Float) (lookup : String → Except Fault Float) :
    Expr → Except Fault Float
  | number value => .ok value
  | cell name => lookup name
  | unary op operand => do
    let x ← eval tolerance lookup operand
    return op.apply x
  | binary op left right => do
    let x ← eval tolerance lookup left
    let y ← eval tolerance lookup right
    return op.apply tolerance x y
  | call function [first, second] => do
    let x ← eval tolerance lookup first
    let y ← eval tolerance lookup second
    return function.apply x y
  | call function arguments => .error (.arity function function.arity arguments.length)

end FormulaSheet
