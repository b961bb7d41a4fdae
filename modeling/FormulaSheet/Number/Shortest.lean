import FormulaSheet.Number.Binary64

/-!
# Shortest decimal fractions

`Binary64.shortest` is the decimal fraction with the fewest digits among those whose nearest
magnitude is the given one, and among the fractions with that many digits the closest. Every finite
magnitude has an exact decimal expansion; the search rounds it to one digit, to two digits and so on
until a rounding reads back.
-/

namespace FormulaSheet

namespace Binary64

/-- The exact decimal expansion of a finite magnitude. A magnitude of `s * 2 ^ k` units is
`s * 2 ^ (k - 1074)` if it is whole, and else `s * 5 ^ (1074 - k) / 10 ^ (1074 - k)`. -/
def exactDecimal (code : Nat) : Decimal :=
  ⟨(significand code <<< (scale code - 1074)) * Nat.pow 5 (1074 - scale code), 1074 - scale code⟩

end Binary64

namespace Decimal

/-- The multiples of `10 ^ dropped` units of the last place that stand on either side of a fraction,
the closer one first, and the greater one first if they are equally close. -/
def roundings (d : Decimal) (dropped : Nat) : List Decimal :=
  let step := Nat.pow 10 dropped
  let lost := d.digits % step
  let below : Decimal := { d with digits := d.digits - lost }
  let above : Decimal := { d with digits := d.digits - lost + step }
  if 2 * lost < step then [below, above] else [above, below]

/-- The first rounding of a fraction that satisfies `accept` when fewer and fewer digits are
dropped: one less than given, then two less and so on down to none. If none does, it is the
fraction. -/
def roundingWith (accept : Decimal → Bool) (d : Decimal) : Nat → Decimal
  | 0 => d
  | dropped + 1 =>
    match (d.roundings dropped).find? accept with
    | some rounded => rounded
    | none => roundingWith accept d dropped

end Decimal

namespace Binary64

/-- The decimal fraction with the fewest digits whose nearest magnitude has this code. -/
def shortest (code : Nat) : Decimal :=
  let exact := exactDecimal code
  exact.roundingWith (fun d => d.nearestCode == code) (Nat.toDigits 10 exact.digits).length

end Binary64

end FormulaSheet
