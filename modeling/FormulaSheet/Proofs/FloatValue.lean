import FormulaSheet.Proofs.FloatBits
import FormulaSheet.Proofs.Nearest

/-!
# The values of finite numbers

`value` is the rational number that a finite binary64 number stands for: its units with its sign
(`Binary64.value_eq`). `RoundsTo` is the rule of rounding to the nearest such number. It amounts to
the nearest magnitude (`RoundsTo.of_nearest`, `RoundsTo.nearest_magnitudeCode`), and decimal
fractions are rounded by it (`Decimal.roundsTo_toFloat`).
-/

namespace FormulaSheet

namespace Binary64

open Float.Model Float.Model.UnpackedFloat

variable {x y : Float} {b c : BitVec Format.binary64.numBits} {code : Nat} {q a : ℚ}

/-! ## Values -/

/-- The number that sign, mantissa and exponent stand for, if there are any. -/
def unpackedValue : UnpackedFloat → ℚ
  | .finite sign mantissa exponent _ => sign.apply mantissa * 2 ^ exponent
  | .zero _ | .infinity _ | .notANumber => 0

/-- The number that a finite binary64 number stands for. -/
def value (x : Float) : ℚ := unpackedValue x.toModel.unpack

/-- A number or its negation. -/
def signed (negative : Bool) (q : ℚ) : ℚ := if negative then -q else q

/-- Negation negates the value. -/
theorem unpackedValue_neg (u : UnpackedFloat) : unpackedValue u.neg = -unpackedValue u := by
  cases u with
  | finite sign mantissa exponent =>
    cases sign
    · change ((mantissa : ℤ) : ℚ) * _ = -(((-(mantissa : ℤ) : ℤ) : ℚ) * _)
      push_cast
      ring
    · change ((-(mantissa : ℤ) : ℤ) : ℚ) * _ = -(((mantissa : ℤ) : ℚ) * _)
      push_cast
      ring
  | zero | infinity | notANumber => exact neg_zero.symm

/-- What is finite is given by its sign, mantissa and exponent. -/
theorem finite_congr {sign : Sign} {m m' : Nat} {e e' : Int} {hm : 0 < m} (hm' : 0 < m')
    (hmantissa : m = m') (hexponent : e = e') :
    finite sign m e hm = finite sign m' e' hm' := by
  subst hmantissa hexponent
  rfl

/-- The fields of the bits of a magnitude are its significand and its scale. -/
theorem unpack_of_pos (hpos : 0 < b.toNat) (h : b.toNat < infinityCode) :
    ∃ hsignificand, UnpackedFloat.unpack .binary64 b =
      .finite .positive (significand b.toNat) (scale b.toNat - 1074) hsignificand := by
  have hcode := scale_and_significand b.toNat
  have hsignificand : 0 < significand b.toNat := by
    rw [binadeSize_eq] at hcode
    omega
  refine ⟨hsignificand, ?_⟩
  rw [infinityCode_eq] at h
  have hexponent : (unpackExponent b).toNat = b.toNat / 2 ^ 52 := by
    rw [toNat_unpackExponent]
    omega
  have hmantissa : (unpackMantissa b).toNat = b.toNat % 2 ^ 52 := toNat_unpackMantissa
  have hsign : Sign.ofBitVec (unpackSign b) = .positive := by
    refine if_pos (BitVec.eq_of_toNat_eq ?_)
    rw [toNat_unpackSign]
    change b.toNat / 2 ^ 63 % 2 = 0
    omega
  have hfinite : unpackExponent b ≠ -1#11 := by
    intro hones
    have : b.toNat / 2 ^ 52 = 2047 := hexponent.symm.trans (congrArg BitVec.toNat hones)
    omega
  have hscale : scale b.toNat = b.toNat / 2 ^ 52 - 1 := rfl
  have hbias : (Format.binary64.exponentBias : Int) + Format.binary64.mantissaBitsWithoutImplicit =
    1075 := rfl
  rw [UnpackedFloat.unpack, if_neg hfinite]
  split
  · next hzero =>
    have hexponent' : b.toNat / 2 ^ 52 = 0 := hexponent.symm.trans (congrArg BitVec.toNat hzero)
    have hne : unpackMantissa b ≠ 0#_ := by
      intro hnone
      have : b.toNat % 2 ^ 52 = 0 := hmantissa.symm.trans (congrArg BitVec.toNat hnone)
      omega
    rw [dif_neg hne, hsign, hbias]
    refine finite_congr hsignificand ?_ ?_
    · rw [hmantissa]
      omega
    · rw [hexponent]
      omega
  · next hnormal =>
    have hexponent' : 0 < b.toNat / 2 ^ 52 := by
      rw [← hexponent, Nat.pos_iff_ne_zero]
      exact fun hzero => hnormal (BitVec.eq_of_toNat_eq hzero)
    have himplicit : (1#1 ++ unpackMantissa b).toNat = 2 ^ 52 + b.toNat % 2 ^ 52 := by
      rw [BitVec.toNat_append, ← Nat.shiftLeft_add_eq_or_of_lt (unpackMantissa b).isLt, hmantissa]
      rfl
    rw [hsign, hbias]
    refine finite_congr hsignificand ?_ ?_
    · rw [himplicit, significand, hscale, binadeSize_eq]
      omega
    · rw [hexponent, hscale]
      omega

/-- The fields of the bits of a magnitude give its units. -/
theorem unpackedValue_unpack (h : b.toNat < infinityCode) :
    unpackedValue (UnpackedFloat.unpack .binary64 b) = units b.toNat / 2 ^ 1074 := by
  obtain hzero | hpos := Nat.eq_zero_or_pos b.toNat
  · obtain rfl : b = 0#_ := BitVec.eq_of_toNat_eq hzero
    have hunpack : UnpackedFloat.unpack .binary64 0#_ = .zero .positive := rfl
    rw [hunpack, hzero, units_zero, Nat.cast_zero, zero_div]
    rfl
  · obtain ⟨hsignificand, hunpack⟩ := unpack_of_pos hpos h
    rw [hunpack, units, cast_shiftLeft, mul_div_assoc]
    change ((significand b.toNat : ℤ) : ℚ) * 2 ^ ((scale b.toNat : ℤ) - 1074) = _
    rw [zpow_sub₀ two_ne_zero, Int.cast_natCast, zpow_natCast, zpow_ofNat]

/-- The value of a finite number is its magnitude with its sign. -/
theorem value_eq (h : x.isFinite = true) :
    value x = signed (isNegative x) (units (magnitudeCode x) / 2 ^ 1074) := by
  rw [isFinite_iff] at h
  cases hsign : isNegative x with
  | false =>
    rw [isNegative, decide_eq_false_iff_not, Nat.not_le] at hsign
    have hcode : magnitudeCode x = x.toBits.toBitVec.toNat := Nat.mod_eq_of_lt hsign
    rw [hcode] at h ⊢
    exact unpackedValue_unpack h
  | true =>
    have hcode : (UInt64.ofNat (magnitudeCode x)).toBitVec.toNat = magnitudeCode x :=
      toNat_ofNat_magnitudeCode x
    change unpackedValue (UnpackedFloat.unpack .binary64 x.toBits.toBitVec) = _
    rw [unpack_of_isNegative hsign, unpackedValue_neg, unpackedValue_unpack (by rwa [hcode]), hcode]
    rfl

/-! ## Rounding -/

/-- A finite number is what another number is rounded to: that one is not beyond the middle behind
the greatest finite number, no finite number is nearer to it, and if one of another value is as
near, the significand is even. -/
structure RoundsTo (q : ℚ) (x : Float) : Prop where
  finite : x.isFinite = true
  bounded : |q| < 2 ^ 1024 - 2 ^ 970
  nearest : ∀ y : Float, y.isFinite = true → |q - value x| ≤ |q - value y|
  even : ∀ y : Float, y.isFinite = true → value y ≠ value x → |q - value y| = |q - value x| →
    significand (magnitudeCode x) % 2 = 0

/-- The last bit of a magnitude is the last one of its significand. -/
theorem significand_mod_two (code : Nat) : significand code % 2 = code % 2 := by
  have hcode := scale_mul_add_significand code
  rw [binadeSize_eq] at hcode
  omega

/-- The border of overflow in units. -/
theorem overflow_eq : overflow = (2 ^ 1024 - 2 ^ 970) * 2 ^ 1074 := by
  rw [overflow, sub_mul, ← pow_add, ← pow_add]

/-- A sign that is set twice is cleared. -/
theorem signed_signed (negative : Bool) (q : ℚ) : signed negative (signed negative q) = q := by
  cases negative
  · rfl
  · exact neg_neg q

/-- A number under both signs is negated. -/
theorem signed_not_signed (negative : Bool) (q : ℚ) :
    signed (!negative) (signed negative q) = -q := by
  cases negative <;> rfl

/-- A sign does not change the absolute value. -/
theorem abs_signed (negative : Bool) (q : ℚ) : |signed negative q| = |q| := by
  cases negative
  · rfl
  · exact abs_neg q

/-- A sign can be moved from one end of a distance to the other. -/
theorem abs_sub_signed (negative : Bool) (q a : ℚ) :
    |q - signed negative a| = |signed negative q - a| := by
  cases negative
  · rfl
  · change |q - -a| = |-q - a|
    rw [← neg_add', abs_neg, sub_neg_eq_add]

theorem unit_pos : (0 : ℚ) < 2 ^ 1074 := pow_pos two_pos 1074

/-- How far it is to a finite number, counted in units on the side of its sign. -/
theorem abs_sub_value (hx : x.isFinite = true) (q : ℚ) : |q - value x| =
    |signed (isNegative x) q * 2 ^ 1074 - units (magnitudeCode x)| / 2 ^ 1074 := by
  have hunit := unit_pos
  rw [value_eq hx, abs_sub_signed]
  generalize (2 : ℚ) ^ 1074 = unit at *
  rw [← abs_of_pos hunit, ← abs_div, abs_of_pos hunit, sub_div, mul_div_cancel_right₀ _ hunit.ne']

/-- A finite number is zero if its magnitude is. -/
theorem value_eq_zero_iff (hx : x.isFinite = true) : value x = 0 ↔ magnitudeCode x = 0 := by
  rw [← abs_eq_zero, value_eq hx, abs_signed, abs_eq_zero, div_eq_zero_iff,
    or_iff_left unit_pos.ne', units_eq_zero_iff]

/-- Finite numbers of one sign have one value if they have one magnitude. -/
theorem value_eq_value_iff (hx : x.isFinite = true) (hy : y.isFinite = true)
    (hsign : isNegative y = isNegative x) :
    value y = value x ↔ magnitudeCode y = magnitudeCode x := by
  constructor
  · intro heq
    rw [value_eq hx, value_eq hy, hsign] at heq
    have hunits := (signed_signed _ _).symm.trans (congrArg (signed _) heq)
    rw [signed_signed, div_left_inj' unit_pos.ne', Nat.cast_inj] at hunits
    exact strictMono_units.injective hunits
  · intro hcode
    rw [value_eq hx, value_eq hy, hsign, hcode]

/-- On one side of zero distances are counted in units. -/
theorem abs_signed_sub_value {negative : Bool} (hy : y.isFinite = true)
    (hsign : isNegative y = negative) (q : ℚ) : |signed negative q - value y| =
      |q * 2 ^ 1074 - units (magnitudeCode y)| / 2 ^ 1074 := by
  rw [abs_sub_value hy, hsign, signed_signed]

/-- A number of the other sign is farther away than zero. -/
theorem abs_signed_sub_value_of_ne {negative : Bool} (hy : y.isFinite = true)
    (hsign : isNegative y ≠ negative) (hq : 0 ≤ q) : |signed negative q - value y| =
      (q * 2 ^ 1074 + units (magnitudeCode y)) / 2 ^ 1074 := by
  have hsum : 0 ≤ q * 2 ^ 1074 + units (magnitudeCode y) :=
    add_nonneg (mul_nonneg hq unit_pos.le) (Nat.cast_nonneg _)
  rw [abs_sub_value hy, Bool.eq_not_of_ne hsign, signed_not_signed, neg_mul, ← neg_add', abs_neg,
    abs_of_nonneg hsum]

/-- The nearest magnitude with the sign of a number is what the number is rounded to. -/
theorem RoundsTo.of_nearest (hx : x.isFinite = true) (hq : 0 ≤ q) (hbound : q < 2 ^ 1024 - 2 ^ 970)
    (h : Nearest (q * 2 ^ 1074) (magnitudeCode x)) : RoundsTo (signed (isNegative x) q) x := by
  have hunit := unit_pos
  have hself := abs_signed_sub_value hx rfl q
  have hzero : |q * 2 ^ 1074 - units (magnitudeCode x)| ≤ q * 2 ^ 1074 := by
    have hle := h.le 0
    rwa [units_zero, Nat.cast_zero, sub_zero, abs_of_nonneg (mul_nonneg hq hunit.le)] at hle
  have hbounded : |signed (isNegative x) q| < 2 ^ 1024 - 2 ^ 970 := by
    rw [abs_signed, abs_of_nonneg hq]
    exact hbound
  refine ⟨hx, hbounded, ?_, ?_⟩
  · intro y hy
    by_cases hsign : isNegative y = isNegative x
    · rw [hself, abs_signed_sub_value hy hsign]
      exact div_le_div_of_nonneg_right (h.le _) hunit.le
    · rw [hself, abs_signed_sub_value_of_ne hy hsign hq]
      exact div_le_div_of_nonneg_right
        (hzero.trans (le_add_of_nonneg_right (Nat.cast_nonneg _))) hunit.le
  · intro y hy hne heq
    rw [significand_mod_two]
    by_cases hsign : isNegative y = isNegative x
    · rw [hself, abs_signed_sub_value hy hsign, div_left_inj' hunit.ne'] at heq
      exact h.even _ (mt (value_eq_value_iff hx hy hsign).2 hne) heq
    · -- only zero is as near, and then `x` is not zero
      rw [hself, abs_signed_sub_value_of_ne hy hsign hq, div_left_inj' hunit.ne'] at heq
      have hunits : (units (magnitudeCode y) : ℚ) ≤ 0 :=
        (add_le_iff_nonpos_right _).1 (heq.trans_le hzero)
      have hy0 := units_eq_zero_iff.1 (hunits.antisymm (Nat.cast_nonneg _))
      have hx0 : 0 ≠ magnitudeCode x := by
        intro hx0
        rw [(value_eq_zero_iff hy).2 hy0, (value_eq_zero_iff hx).2 hx0.symm] at hne
        exact hne rfl
      refine h.even 0 hx0 ?_
      rw [← heq, hy0, units_zero, Nat.cast_zero, sub_zero, add_zero,
        abs_of_nonneg (mul_nonneg hq hunit.le)]

/-- What a number is rounded to has the nearest magnitude on the side of its sign. -/
theorem RoundsTo.nearest_magnitudeCode (h : RoundsTo q x) :
    Nearest (signed (isNegative x) q * 2 ^ 1074) (magnitudeCode x) := by
  have hunit := unit_pos
  have hbound : signed (isNegative x) q * 2 ^ 1074 < overflow := by
    rw [overflow_eq, mul_lt_mul_iff_left₀ hunit]
    exact (le_abs_self _).trans_lt ((abs_signed _ q).trans_lt h.bounded)
  have hdist := fun y hy => @abs_sub_value y hy q
  generalize hq : signed (isNegative x) q = a at *
  generalize (2 : ℚ) ^ 1074 = unit at *
  have hself := hdist x h.finite
  rw [hq] at hself
  -- every finite magnitude belongs to a number of the sign of `x`
  have hsame : ∀ other < infinityCode, ∃ y : Float, y.isFinite = true ∧
      isNegative y = isNegative x ∧ magnitudeCode y = other ∧
      |q - value y| = |a * unit - units other| / unit := by
    intro other hother
    obtain ⟨y, hsign, rfl⟩ := exists_of_magnitude (isNegative x) hother.le
    have hy := isFinite_iff.2 hother
    exact ⟨y, hy, hsign, rfl, by rw [hdist y hy, hsign, hq]⟩
  refine .of_finite hbound ?_ ?_
  · intro other hother
    obtain ⟨y, hy, -, -, hvalue⟩ := hsame other hother
    have hle := h.nearest y hy
    rwa [hself, hvalue, div_le_div_iff_of_pos_right hunit] at hle
  · intro other hother hne heq
    obtain ⟨y, hy, hsign, rfl, hvalue⟩ := hsame other hother
    rw [← significand_mod_two]
    exact h.even y hy (mt (value_eq_value_iff h.finite hy hsign).1 hne)
      (by rw [hself, hvalue, heq])

/-- A number is rounded to no more than one number of either sign. -/
theorem RoundsTo.unique (hx : RoundsTo q x) (hy : RoundsTo q y)
    (hsign : isNegative x = isNegative y) : x = y := by
  have hnearest := hy.nearest_magnitudeCode
  rw [← hsign] at hnearest
  exact eq_of_magnitudeCode_eq hsign (hx.nearest_magnitudeCode.unique hnearest)

/-! ## Order -/

/-- A number is at most another if their comparison says so. -/
theorem le_iff_compare :
    x ≤ y ↔ (x.toModel.unpack.compare y.toModel.unpack).any (·.isLE) = true :=
  decide_eq_true_iff

/-- A positive finite magnitude unpacks to its significand and scale. -/
theorem unpack_ofCode_of_pos (hpos : 0 < code) (h : code < infinityCode) :
    ∃ hsignificand, (ofCode code).toModel.unpack =
      .finite .positive (significand code) (scale code - 1074) hsignificand := by
  have hcode : (ofCode code).toBits.toBitVec.toNat = code := toNat_toBits_ofCode h.le
  have hunpack := @unpack_of_pos (ofCode code).toBits.toBitVec
  rw [hcode] at hunpack
  exact hunpack hpos h

/-- Numbers that have greater codes are greater. -/
theorem ofCode_le_ofCode (hle : code ≤ other) (h : other ≤ infinityCode) :
    ofCode code ≤ ofCode other := by
  rw [le_iff_compare]
  have hzero : (ofCode 0).toModel.unpack = .zero .positive := by rfl
  have hinfinity : (ofCode infinityCode).toModel.unpack = .infinity .positive := by rfl
  obtain rfl | hpos := Nat.eq_zero_or_pos code
  · rw [hzero]
    obtain rfl | hpos := Nat.eq_zero_or_pos other
    · rw [hzero]
      rfl
    · obtain rfl | hlt := Nat.eq_or_lt_of_le h
      · rw [hinfinity]
        rfl
      · obtain ⟨_, hother⟩ := unpack_ofCode_of_pos hpos hlt
        rw [hother]
        rfl
  · obtain rfl | hlt := Nat.eq_or_lt_of_le h
    · obtain rfl | hlt := Nat.eq_or_lt_of_le hle
      · rw [hinfinity]
        rfl
      · obtain ⟨_, hcode⟩ := unpack_ofCode_of_pos hpos hlt
        rw [hcode, hinfinity]
        rfl
    · obtain ⟨_, hcode⟩ := unpack_ofCode_of_pos hpos (hle.trans_lt hlt)
      obtain ⟨_, hother⟩ := unpack_ofCode_of_pos (hpos.trans_le hle) hlt
      rw [hcode, hother]
      change ((compare ((scale code : ℤ) - 1074) (scale other - 1074)).then
        (compare (significand code) (significand other))).isLE = true
      have hscale : scale code ≤ scale other := Nat.sub_le_sub_right (Nat.div_le_div_right hle) 1
      rw [Ordering.isLE_then_iff_or, Int.compare_eq_lt, Int.compare_eq_eq, Nat.isLE_compare]
      refine (Nat.lt_or_eq_of_le hscale).imp (fun hlt => by omega) fun heq => ⟨by omega, ?_⟩
      rw [significand, significand, heq]
      exact Nat.sub_le_sub_right hle _
end Binary64

/-! ## Decimal fractions -/

namespace Decimal

open Binary64

variable {d d' : Decimal} {code : Nat}

/-- The number that a decimal fraction stands for. -/
def value (d : Decimal) : ℚ := d.digits / 10 ^ d.places

/-- The value of a fraction is its digits over its unit. -/
theorem value_eq (d : Decimal) : d.value = d.digits / d.one := by
  rw [value, one]
  exact congrArg (_ / ·) (Nat.cast_pow 10 d.places).symm

/-- No fraction is negative. -/
theorem value_nonneg (d : Decimal) : 0 ≤ d.value := by
  rw [value]
  positivity

/-- The value in units. -/
theorem value_mul_unit (d : Decimal) :
    d.value * (2 : ℚ) ^ 1074 = (d.digits <<< 1074 : Nat) / d.one := by
  rw [value_eq, cast_shiftLeft, div_mul_eq_mul_div]

/-- The nearest magnitude is infinity at most. -/
theorem nearestCode_le (d : Decimal) : d.nearestCode ≤ infinityCode := Binary64.nearestCode_le _ _

/-- A fraction becomes the number of the nearest magnitude. -/
theorem magnitudeCode_toFloat (d : Decimal) : magnitudeCode d.toFloat = d.nearestCode :=
  magnitudeCode_ofCode d.nearestCode_le

/-- A fraction becomes a number whose sign bit is clear. -/
theorem isNegative_toFloat (d : Decimal) : isNegative d.toFloat = false :=
  isNegative_ofCode d.nearestCode_le

/-- A fraction becomes infinite from the middle behind the greatest finite number on. -/
theorem nearestCode_eq_infinityCode_iff :
    d.nearestCode = infinityCode ↔ 2 ^ 1024 - 2 ^ 970 ≤ d.value := by
  rw [nearestCode, Binary64.nearestCode_eq_infinityCode_iff d.one_pos, ← value_mul_unit,
    overflow_eq, mul_le_mul_iff_left₀ unit_pos]

/-- A fraction stays finite below the middle behind the greatest finite number. -/
theorem nearestCode_lt_infinityCode_iff :
    d.nearestCode < infinityCode ↔ d.value < 2 ^ 1024 - 2 ^ 970 := by
  rw [d.nearestCode_le.lt_iff_ne, ne_eq, nearestCode_eq_infinityCode_iff, not_le]

/-- A fraction becomes zero up to half of the least number. -/
theorem nearestCode_eq_zero_iff : d.nearestCode = 0 ↔ d.value ≤ 1 / 2 ^ 1075 := by
  have hunit : (2 : ℚ) ^ 1075 = 2 ^ 1074 * 2 := pow_succ 2 1074
  rw [nearestCode, Binary64.nearestCode_eq_zero_iff d.one_pos, ← value_mul_unit,
    ← le_div_iff₀ unit_pos, div_div, hunit, mul_comm]

/-- Decimal fractions of greater values are not rounded to smaller magnitudes. -/
theorem nearestCode_le_nearestCode (h : d.value ≤ d'.value) : d.nearestCode ≤ d'.nearestCode := by
  refine Binary64.nearestCode_le_nearestCode d.one_pos d'.one_pos ?_
  rw [← value_mul_unit, ← value_mul_unit, mul_le_mul_iff_left₀ unit_pos]
  exact h

/-- A decimal fraction is rounded to a finite magnitude just if that is the nearest one. -/
theorem nearestCode_eq_iff (hcode : code < infinityCode) :
    d.nearestCode = code ↔ Nearest (d.value * 2 ^ 1074) code := by
  rw [nearestCode, Binary64.nearestCode_eq_iff d.one_pos hcode, ← value_mul_unit]

/-- A decimal fraction that is not too great is rounded to its nearest number. -/
theorem roundsTo_toFloat (h : d.value < 2 ^ 1024 - 2 ^ 970) : RoundsTo d.value d.toFloat := by
  have hlt := nearestCode_lt_infinityCode_iff.2 h
  have hfinite : d.toFloat.isFinite = true := isFinite_iff.2 (d.magnitudeCode_toFloat.trans_lt hlt)
  have hnearest := (nearestCode_eq_iff hlt).1 rfl
  rw [← magnitudeCode_toFloat] at hnearest
  have hrounds := RoundsTo.of_nearest hfinite d.value_nonneg h hnearest
  rwa [isNegative_toFloat] at hrounds

end Decimal

end FormulaSheet
