/-!
# Decimal fractions

A decimal fraction is a natural number of units of its last place. It is read from the digits before
and after a point, and written positionally: no exponent, no needless zero before the point, none at
the end of the fraction, and no point without a fraction.
-/

namespace FormulaSheet

/-- The decimal fraction `digits / 10 ^ places`. -/
structure Decimal where
  digits : Nat
  places : Nat
  deriving Repr, DecidableEq

namespace Decimal

/-- The fraction that has these digits before and after its point. -/
def ofDigits (whole fraction : List Char) : Decimal :=
  ⟨Nat.ofDigitChars 10 (whole ++ fraction) 0, fraction.length⟩

/-- The number of units of the last place that make 1. -/
def one (d : Decimal) : Nat := Nat.pow 10 d.places

/-- The digits before the point. -/
def wholeDigits (d : Decimal) : List Char := Nat.toDigits 10 (d.digits / d.one)

/-- The digits of the part below 1, filled up with zeros to the number of places. -/
def placeDigits (d : Decimal) : List Char :=
  let digits := Nat.toDigits 10 (d.digits % d.one)
  List.replicate (d.places - digits.length) '0' ++ digits

/-- The digits after the point, up to the last that is not zero. -/
def fractionDigits (d : Decimal) : List Char :=
  (d.placeDigits.reverse.dropWhile (· == '0')).reverse

/-- The positional text. -/
def chars (d : Decimal) : List Char :=
  match d.fractionDigits with
  | [] => d.wholeDigits
  | fraction => d.wholeDigits ++ '.' :: fraction

end Decimal

end FormulaSheet
