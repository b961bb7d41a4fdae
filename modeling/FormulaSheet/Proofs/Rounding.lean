import FormulaSheet.Number.Shortest
import Mathlib.Tactic.Ring

/-!
# Rounding to the nearest magnitude

The magnitude nearest to a fraction depends on the value of the fraction only
(`Binary64.nearestCode_mul_right`), and the magnitude nearest to a magnitude is that magnitude
(`Binary64.nearestCode_units`). So the exact expansion of a magnitude reads back, and the search for
the shortest decimal fraction cannot miss (`Binary64.nearestCode_shortest`).
-/

namespace FormulaSheet

namespace Binary64

variable {num den code : Nat}

/-! ## Fractions of the same value -/

/-- To shift a product is to shift a factor. -/
theorem mul_shiftLeft (m n k : Nat) : (m * n) <<< k = m <<< k * n := by
  rw [Nat.shiftLeft_eq, Nat.shiftLeft_eq, Nat.mul_right_comm]

/-- Rounding depends on the quotient only. -/
theorem roundHalfEven_mul_right {c : Nat} (hc : 0 < c) :
    roundHalfEven (num * c) (den * c) = roundHalfEven num den := by
  have hlow : 2 * (num % den * c) < den * c ↔ 2 * (num % den) < den := by
    rw [← Nat.mul_assoc, Nat.mul_lt_mul_right hc]
  have hhigh : den * c < 2 * (num % den * c) ↔ den < 2 * (num % den) := by
    rw [← Nat.mul_assoc, Nat.mul_lt_mul_right hc]
  simp only [roundHalfEven, Nat.mul_div_mul_right _ _ hc, Nat.mul_mod_mul_right, hlow, hhigh]

/-- The nearest magnitude depends on the quotient only. -/
theorem nearestCode_mul_right {c : Nat} (hc : 0 < c) :
    nearestCode (num * c) (den * c) = nearestCode num den := by
  simp only [nearestCode, Nat.mul_div_mul_right _ _ hc, mul_shiftLeft, roundHalfEven_mul_right hc]

/-- A quotient without a remainder is rounded to itself. -/
theorem roundHalfEven_mul (hden : 0 < den) (q : Nat) : roundHalfEven (q * den) den = q := by
  rw [roundHalfEven, Nat.mul_mod_left, Nat.mul_div_cancel q hden]
  exact if_pos (by omega)

/-! ## Magnitudes -/

/-- The code of a magnitude by its binade and its place there. The two binades of scale 0 have their
code for significand; each further one begins with the same significand as the second. -/
theorem scale_and_significand (code : Nat) :
    (scale code = 0 ∧ significand code = code ∧ code < 2 * binadeSize) ∨
    (0 < scale code ∧ code = scale code * binadeSize + significand code ∧
      binadeSize ≤ significand code ∧ significand code < 2 * binadeSize) := by
  have hdiv : binadeSize * (code / binadeSize) + code % binadeSize = code := Nat.div_add_mod ..
  have hmod : code % binadeSize < binadeSize := Nat.mod_lt _ (by decide)
  rw [significand, scale]
  cases hq : code / binadeSize with
  | zero =>
    left
    rw [hq] at hdiv
    omega
  | succ q =>
    rw [hq, Nat.mul_succ] at hdiv
    rw [Nat.add_sub_cancel, Nat.mul_comm q]
    obtain rfl | hpos := Nat.eq_zero_or_pos q
    · left
      omega
    · right
      omega

/-- A magnitude is given back by its scale and significand. -/
theorem scale_mul_add_significand (code : Nat) :
    scale code * binadeSize + significand code = code := by
  obtain ⟨hscale, hsignificand, -⟩ | ⟨-, hcode, -⟩ := scale_and_significand code
  · rw [hscale, hsignificand, Nat.zero_mul, Nat.zero_add]
  · exact hcode.symm

/-- The scale of a magnitude can be read off its units. -/
theorem scaleOfUnits_units (code : Nat) : scaleOfUnits (units code) = scale code := by
  have hbinade : binadeSize = 2 ^ 52 := rfl
  rw [scaleOfUnits, units, Nat.shiftLeft_eq]
  obtain ⟨hscale, hsignificand, hlt⟩ | ⟨-, -, hle, hlt⟩ := scale_and_significand code
  · rw [hscale, hsignificand, Nat.pow_zero, Nat.mul_one]
    obtain rfl | hne := Nat.eq_zero_or_pos code
    · rfl
    · have hlog : code.log2 < 53 := (Nat.log2_lt hne.ne').2 (by omega)
      omega
  · have hne : significand code ≠ 0 := by omega
    have hlog : (significand code).log2 = 52 := (Nat.log2_eq_iff hne).2 (by omega)
    have hshift : (significand code * 2 ^ scale code).log2 = 52 + scale code := by
      refine (Nat.log2_eq_iff (Nat.mul_ne_zero hne (Nat.two_pow_pos _).ne')).2 ?_
      obtain ⟨hlow, hhigh⟩ := (Nat.log2_eq_iff hne).1 hlog
      rw [Nat.pow_add, Nat.add_right_comm, Nat.pow_add]
      exact ⟨Nat.mul_le_mul_right _ hlow, Nat.mul_lt_mul_of_pos_right hhigh (Nat.two_pow_pos _)⟩
    rw [hshift, Nat.add_sub_cancel_left]

/-- A finite magnitude is the nearest to itself. -/
theorem nearestCode_units (hcode : code < infinityCode) (hden : 0 < den) :
    nearestCode (units code * den) den = code := by
  have hrounded : roundHalfEven (units code * den) (den <<< scale code) = significand code := by
    rw [units, Nat.shiftLeft_eq, Nat.shiftLeft_eq, Nat.mul_assoc, Nat.mul_comm (2 ^ _) den]
    exact roundHalfEven_mul (Nat.mul_pos hden (Nat.two_pow_pos _)) _
  rw [nearestCode, Nat.mul_div_cancel _ hden, scaleOfUnits_units, hrounded,
    scale_mul_add_significand]
  exact Nat.min_eq_left hcode.le

end Binary64

/-! ## Decimal fractions -/

namespace Decimal

variable {d d' : Decimal}

/-- The unit of a fraction is positive. -/
theorem one_pos (d : Decimal) : 0 < d.one := Nat.pow_pos (by decide)

/-- Zeros at the end of a decimal fraction do not change its nearest magnitude. -/
theorem nearestCode_eq_of_zeros {zeros : Nat} (hdigits : d'.digits = d.digits * 10 ^ zeros)
    (hplaces : d'.places = d.places + zeros) : d'.nearestCode = d.nearestCode := by
  have hone : d'.one = d.one * 10 ^ zeros := by
    rw [one, hplaces]
    exact Nat.pow_add ..
  rw [nearestCode, nearestCode, hdigits, hone, Binary64.mul_shiftLeft]
  exact Binary64.nearestCode_mul_right (Nat.pow_pos (by decide))

/-- A search that accepts the fraction itself ends with a fraction that it accepts. -/
theorem accept_roundingWith (accept : Decimal → Bool) (h : accept d = true) (dropped : Nat) :
    accept (roundingWith accept d dropped) = true := by
  induction dropped with
  | zero => exact h
  | succ dropped ih =>
    rw [roundingWith]
    split
    · next rounded hfound => exact List.find?_some hfound
    · exact ih

end Decimal

namespace Binary64

variable {code : Nat}

/-- Where halves are written as fives of a lower place, a value keeps its size. -/
theorem five_pow_shiftLeft (m k places : Nat) :
    ((m <<< (k - places)) * 5 ^ (places - k)) <<< places = m <<< k * 10 ^ (places - k) := by
  have htwo : 2 ^ (k - places) * 2 ^ places = 2 ^ k * 2 ^ (places - k) := by
    rw [← Nat.pow_add, ← Nat.pow_add]
    congr 1
    omega
  have hten : 10 ^ (places - k) = 2 ^ (places - k) * 5 ^ (places - k) := by
    rw [← Nat.mul_pow]
  rw [Nat.shiftLeft_eq, Nat.shiftLeft_eq, Nat.shiftLeft_eq, hten]
  calc m * 2 ^ (k - places) * 5 ^ (places - k) * 2 ^ places
      = m * (2 ^ (k - places) * 2 ^ places) * 5 ^ (places - k) := by ring
    _ = m * 2 ^ k * (2 ^ (places - k) * 5 ^ (places - k)) := by rw [htwo]; ring

/-- The exact expansion of a magnitude has its value. -/
theorem exactDecimal_units (code : Nat) :
    (exactDecimal code).digits <<< 1074 = units code * (exactDecimal code).one :=
  five_pow_shiftLeft (significand code) (scale code) 1074

/-- The exact decimal of a finite magnitude is rounded to that magnitude. -/
theorem nearestCode_exactDecimal (hcode : code < infinityCode) :
    (exactDecimal code).nearestCode = code := by
  rw [Decimal.nearestCode, exactDecimal_units]
  exact nearestCode_units hcode (exactDecimal code).one_pos

/-- The shortest decimal fraction reads back. -/
theorem nearestCode_shortest (hcode : code < infinityCode) :
    (shortest code).nearestCode = code := by
  have haccept : (shortest code).nearestCode == code :=
    Decimal.accept_roundingWith (fun d => d.nearestCode == code)
      (beq_iff_eq.2 (nearestCode_exactDecimal hcode)) _
  exact beq_iff_eq.1 haccept

end Binary64

end FormulaSheet
