/-!
# Expressions

The expressions that formulas stand for. Cells are named as written, in any case of letters, and a
call holds any number of arguments; both are judged when the expression is evaluated.
-/

namespace FormulaSheet

/-- The functions a formula can call. -/
inductive Builtin where
  | max
  | min
  deriving Repr, DecidableEq

/-- The name of a function in formulas. -/
def Builtin.name : Builtin → String
  | max => "max"
  | min => "min"

/-- The number of arguments that a function takes. -/
def Builtin.arity : Builtin → Nat
  | max | min => 2

/-- The operators before one operand. -/
inductive UnaryOp where
  | neg
  | not
  deriving Repr, DecidableEq

/-- The operators between two operands. -/
inductive BinaryOp where
  | add
  | sub
  | mul
  | div
  | eq
  | lt
  | gt
  | and
  | or
  deriving Repr, DecidableEq

/-- An expression. -/
inductive Expr where
  | number (value : Float)
  | cell (name : String)
  | unary (op : UnaryOp) (operand : Expr)
  | binary (op : BinaryOp) (left right : Expr)
  | call (function : Builtin) (arguments : List Expr)
  deriving Repr

end FormulaSheet
