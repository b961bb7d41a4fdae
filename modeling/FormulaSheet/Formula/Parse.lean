import FormulaSheet.Formula.Grammar

/-!
# Parsing formulas

`parse` gives the expression of a text or says why it has none: the text ends too early, or some
character cannot stand where it does. The character is the one at the furthest place where the
grammar was tested, and the error lists what the tests there would have let pass.
-/

namespace FormulaSheet

/-- Why a text is no formula. -/
inductive ParseError where
  /-- The text, or all but the white space at its end, is the beginning of a formula. -/
  | unexpectedEnd
  /-- The character that was found where only other things can stand. -/
  | unexpected (found : Char) (expected : List Expectation)
  deriving Repr, DecidableEq

/-- What an expectation is called. -/
def Expectation.text : Expectation → String
  | character c => "'" ++ String.singleton c ++ "'"
  | kind => "something else"
  | ending => "end of input"

/-- The members of a list after its first. -/
def Expectation.furtherText : List Expectation → String
  | [] => ""
  | [last] => ", or " ++ last.text
  | next :: further => ", " ++ next.text ++ furtherText further

/-- A list of expectations in words. -/
def Expectation.listText : List Expectation → String
  | [] => ""
  | first :: further => first.text ++ furtherText further

namespace ParseError

/-- The error for a text that is blocked by an obstacle. -/
def ofObstacle (obstacle : Obstacle) : ParseError :=
  match obstacle.rest with
  | [] => unexpectedEnd
  | found :: rest =>
    if allBlank (found :: rest) then unexpectedEnd else unexpected found obstacle.expected

/-- The message of an error. -/
def message : ParseError → String
  | unexpectedEnd => "unexpected end of formula"
  | unexpected found expected =>
    "syntax error: found " ++ (Expectation.character found).text ++ " expected " ++
      Expectation.listText expected

end ParseError

/-- The expression that a text stands for. -/
def parse (text : String) : Except ParseError Expr :=
  match Grammar.formula.run text.toList with
  | .read e _ _ => .ok e
  | .blocked obstacle => .error (.ofObstacle obstacle)

end FormulaSheet
