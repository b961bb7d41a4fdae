import FormulaSheet.Number.Shortest

/-!
# The text of a value

A finite value is written by the shortest decimal fraction that reads back as it, without an
exponent; the other values have names.
-/

namespace FormulaSheet

/-- The characters of a value's text. -/
def valueChars (x : Float) : List Char :=
  if x.isNaN then "NaN".toList
  else
    let sign := if Binary64.isNegative x then ['-'] else []
    let code := Binary64.magnitudeCode x
    if code = Binary64.infinityCode then sign ++ "Infinity".toList
    else sign ++ (Binary64.shortest code).chars

/-- The text of a value. -/
def valueText (x : Float) : String := String.ofList (valueChars x)

end FormulaSheet
