import FormulaSheet.Number.Decimal

/-!
# Magnitudes of binary64 numbers

The non-negative binary64 numbers in ascending order are numbered by their bit patterns: the number
of a magnitude is its `code`. All finite magnitudes are multiples of `2 ^ -1074`, the least positive
one, and `units` counts how many. `nearestCode` rounds any fraction of such units to the nearest
magnitude, and a tie to the one with the even code.
-/

namespace FormulaSheet

namespace Binary64

/-- The number of magnitudes in each binade, `2 ^ 52`. -/
def binadeSize : Nat := 1 <<< 52

/-- The code of infinity, one past the codes of the finite magnitudes. -/
def infinityCode : Nat := 2047 * binadeSize

/-- The weight of the last bit of a magnitude, as a power of two of units: 0 for the subnormal
magnitudes and for the least binade of the normal ones, and one more for each further binade. -/
def scale (code : Nat) : Nat := code / binadeSize - 1

/-- A magnitude in multiples of its last bit. -/
def significand (code : Nat) : Nat := code - scale code * binadeSize

/-- A magnitude in multiples of `2 ^ -1074`. -/
def units (code : Nat) : Nat := significand code <<< scale code

/-- The natural number nearest to `num / den`, the even one of two that are equally near. -/
def roundHalfEven (num den : Nat) : Nat :=
  let quotient := num / den
  let twice := 2 * (num % den)
  if twice < den then quotient
  else if den < twice then quotient + 1
  else quotient + quotient % 2

/-- The scale of the binade that holds a magnitude with this whole number of units. -/
def scaleOfUnits (whole : Nat) : Nat := whole.log2 - 52

/-- The code of the magnitude nearest to `num / den` units, the even one of two that are equally
near. A significand that is rounded up to the next binade gives that binade's first code, and all
beyond the greatest finite magnitude is infinity. -/
def nearestCode (num den : Nat) : Nat :=
  let s := scaleOfUnits (num / den)
  min (s * binadeSize + roundHalfEven num (den <<< s)) infinityCode

/-- The number that has this code as its bits, with the sign bit clear. -/
def ofCode (code : Nat) : Float := Float.ofBits (UInt64.ofNat code)

/-- The weight of the sign bit, `2 ^ 63`. -/
def signBit : Nat := 1 <<< 63

/-- Whether the sign bit is set. -/
def isNegative (x : Float) : Bool := signBit ≤ x.toBits.toNat

/-- The code of the magnitude of a number. -/
def magnitudeCode (x : Float) : Nat := x.toBits.toNat % signBit

end Binary64

namespace Decimal

/-- The code of the magnitude nearest to a decimal fraction. -/
def nearestCode (d : Decimal) : Nat := Binary64.nearestCode (d.digits <<< 1074) d.one

/-- The binary64 number nearest to a decimal fraction. -/
def toFloat (d : Decimal) : Float := Binary64.ofCode d.nearestCode

end Decimal

end FormulaSheet
