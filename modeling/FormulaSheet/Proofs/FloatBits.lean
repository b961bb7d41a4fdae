import FormulaSheet.Number.ValueText
import Mathlib

/-!
# The bits of a number

A number is its magnitude or, if its sign bit is set, the negation of its magnitude
(`Binary64.ofCode_magnitudeCode`, `Binary64.neg_ofCode_magnitudeCode`). The magnitudes of the finite
numbers are those below infinity, and the numbers that are not finite are the infinities and the one
that is not a number.
-/

namespace FormulaSheet

namespace Binary64

open Float.Model Float.Model.UnpackedFloat

variable {x : Float} {b c : BitVec Format.binary64.numBits}

/-! ## Fields of bits -/

/-- The exponent is the eleven bits below the sign. -/
theorem toNat_unpackExponent : (unpackExponent b).toNat = b.toNat / 2 ^ 52 % 2 ^ 11 := by
  rw [unpackExponent_def, BitVec.extractLsb'_toNat, Nat.shiftRight_eq_div_pow]

/-- The mantissa is the lowest 52 bits. -/
theorem toNat_unpackMantissa : (unpackMantissa b).toNat = b.toNat % 2 ^ 52 := by
  rw [unpackMantissa_def, BitVec.extractLsb'_toNat, Nat.shiftRight_zero]

/-- The sign is the highest bit. -/
theorem toNat_unpackSign : (unpackSign b).toNat = b.toNat / 2 ^ 63 % 2 := by
  rw [unpackSign_def, BitVec.extractLsb'_toNat, Nat.shiftRight_eq_div_pow]
  rfl

/-- What unpacks to a number is packed and unpacked again without a change, though a number that is
none has many bit patterns. -/
theorem unpack_pack_unpack : UnpackedFloat.unpack .binary64
    (UnpackedFloat.pack .binary64 (UnpackedFloat.unpack .binary64 b)) =
      UnpackedFloat.unpack .binary64 b := by
  rw [pack_unpack]
  split
  · next hnan =>
    rw [isNaNBits, decide_eq_true_eq] at hnan
    rw [unpack_packedNaN, UnpackedFloat.unpack, if_pos hnan.1, if_neg hnan.2]
  · rfl

/-- Bits that differ in the sign bit only stand for a number and its negation. -/
theorem unpack_eq_neg (h : b.toNat = c.toNat + 2 ^ 63) :
    UnpackedFloat.unpack .binary64 b = (UnpackedFloat.unpack .binary64 c).neg := by
  have hb : b.toNat < 2 ^ 64 := b.isLt
  have hexponent : unpackExponent b = unpackExponent c := by
    refine BitVec.eq_of_toNat_eq ?_
    rw [toNat_unpackExponent, toNat_unpackExponent]
    omega
  have hmantissa : unpackMantissa b = unpackMantissa c := by
    refine BitVec.eq_of_toNat_eq ?_
    rw [toNat_unpackMantissa, toNat_unpackMantissa]
    omega
  have hset : unpackSign b = 1#1 := by
    refine BitVec.eq_of_toNat_eq ?_
    rw [toNat_unpackSign, BitVec.toNat_ofNat]
    omega
  have hclear : unpackSign c = 0#1 := by
    refine BitVec.eq_of_toNat_eq ?_
    rw [toNat_unpackSign, BitVec.toNat_ofNat]
    omega
  simp only [UnpackedFloat.unpack, hexponent, hmantissa, hset, hclear]
  split_ifs <;> rfl

/-! ## Sign and magnitude -/

theorem signBit_eq : signBit = 2 ^ 63 := rfl

theorem infinityCode_eq : infinityCode = 2047 * 2 ^ 52 := rfl

/-- A magnitude lies below the sign bit. -/
theorem magnitudeCode_lt (x : Float) : magnitudeCode x < 2 ^ 63 := Nat.mod_lt _ (by decide)

/-- A magnitude fits into a word. -/
theorem toNat_ofNat_magnitudeCode (x : Float) :
    (UInt64.ofNat (magnitudeCode x)).toNat = magnitudeCode x := by
  have hlt := magnitudeCode_lt x
  exact UInt64.toNat_ofNat_of_lt' (by rw [UInt64.size]; omega)

/-- A number whose sign bit is clear is its magnitude. -/
theorem ofCode_magnitudeCode (h : isNegative x = false) : ofCode (magnitudeCode x) = x := by
  rw [isNegative, decide_eq_false_iff_not, Nat.not_le] at h
  rw [magnitudeCode, Nat.mod_eq_of_lt h, ofCode, UInt64.ofNat_toNat, Float.ofBits_toBits]

/-- If the sign bit is set, the bits of the magnitude unpack to the negation. -/
theorem unpack_of_isNegative (h : isNegative x = true) :
    UnpackedFloat.unpack .binary64 x.toBits.toBitVec =
      (UnpackedFloat.unpack .binary64 (UInt64.ofNat (magnitudeCode x)).toBitVec).neg := by
  rw [isNegative, decide_eq_true_iff, signBit_eq] at h
  have hlt : x.toBits.toNat < 2 ^ 64 := x.toBits.toBitVec.isLt
  have hbits : x.toBits.toNat = (UInt64.ofNat (magnitudeCode x)).toNat + 2 ^ 63 := by
    rw [toNat_ofNat_magnitudeCode, magnitudeCode, signBit_eq]
    omega
  exact unpack_eq_neg hbits

/-- A number whose sign bit is set is the negation of its magnitude. -/
theorem neg_ofCode_magnitudeCode (h : isNegative x = true) : -ofCode (magnitudeCode x) = x := by
  have hneg := unpack_of_isNegative h
  change (⟨Float.Model.pack (UnpackedFloat.unpack .binary64 (UnpackedFloat.pack .binary64
    (UnpackedFloat.unpack .binary64 (UInt64.ofNat (magnitudeCode x)).toBitVec))).neg⟩ : Float) = x
  rw [unpack_pack_unpack, ← hneg]
  exact Float.ofBits_toBits x

/-- Sign and magnitude make up a number. -/
theorem eq_of_magnitudeCode_eq {y : Float} (hsign : isNegative x = isNegative y)
    (hcode : magnitudeCode x = magnitudeCode y) : x = y := by
  cases h : isNegative x with
  | false => rw [← ofCode_magnitudeCode h, hcode, ofCode_magnitudeCode (hsign ▸ h)]
  | true => rw [← neg_ofCode_magnitudeCode h, hcode, neg_ofCode_magnitudeCode (hsign ▸ h)]

/-- Bits whose magnitude is not beyond infinity are the bits of the number that they stand for. -/
theorem toNat_toBits_ofBits {bits : Nat} (h : bits % signBit ≤ infinityCode) (hlt : bits < 2 ^ 64) :
    (Float.ofBits (UInt64.ofNat bits)).toBits.toNat = bits := by
  rw [infinityCode_eq, signBit_eq] at h
  have hnat : (UInt64.ofNat bits).toBitVec.toNat = bits := UInt64.toNat_ofNat_of_lt' hlt
  have hnumber : ¬ @isNaNBits .binary64 (UInt64.ofNat bits).toBitVec = true := by
    rw [isNaNBits, decide_eq_true_eq]
    rintro ⟨hexponent, hmantissa⟩
    refine hmantissa (BitVec.eq_of_toNat_eq ?_)
    have hones : (@unpackExponent .binary64 (UInt64.ofNat bits).toBitVec).toNat = 2047 :=
      congrArg BitVec.toNat hexponent
    rw [toNat_unpackExponent, hnat] at hones
    rw [toNat_unpackMantissa, hnat]
    change bits % 2 ^ 52 = 0
    omega
  have hbits : UnpackedFloat.pack .binary64
      (UnpackedFloat.unpack .binary64 (UInt64.ofNat bits).toBitVec) =
        (UInt64.ofNat bits).toBitVec := by
    rw [pack_unpack, if_neg hnumber]
  exact (congrArg BitVec.toNat hbits).trans hnat

/-- The bits of a magnitude up to infinity are that magnitude. -/
theorem toNat_toBits_ofCode {code : Nat} (h : code ≤ infinityCode) :
    (ofCode code).toBits.toNat = code := by
  rw [infinityCode_eq] at h
  exact toNat_toBits_ofBits ((Nat.mod_le ..).trans h) (by omega)

/-- There is a number of either sign and every magnitude. -/
theorem exists_of_magnitude (negative : Bool) {code : Nat} (h : code ≤ infinityCode) :
    ∃ x, isNegative x = negative ∧ magnitudeCode x = code := by
  rw [infinityCode_eq] at h
  have hbits : (code + if negative then signBit else 0) % signBit = code := by
    rw [signBit_eq]
    split <;> omega
  have htoBits := toNat_toBits_ofBits (hbits.trans_le h)
    (by rw [signBit_eq]; split <;> omega)
  refine ⟨_, ?_, by rw [magnitudeCode, htoBits, hbits]⟩
  rw [isNegative, htoBits, signBit_eq]
  cases negative <;> simp
  omega

/-- A code up to infinity is its own magnitude. -/
theorem magnitudeCode_ofCode {code : Nat} (h : code ≤ infinityCode) :
    magnitudeCode (ofCode code) = code := by
  rw [magnitudeCode, toNat_toBits_ofCode h, signBit_eq]
  rw [infinityCode_eq] at h
  omega

/-- A code up to infinity has its sign bit clear. -/
theorem isNegative_ofCode {code : Nat} (h : code ≤ infinityCode) :
    isNegative (ofCode code) = false := by
  rw [isNegative, toNat_toBits_ofCode h, decide_eq_false_iff_not, signBit_eq]
  rw [infinityCode_eq] at h
  omega

/-! ## Kinds of numbers -/

/-- The exponent has all bits set if the magnitude is infinity or more. -/
theorem unpackExponent_eq_iff (x : Float) :
    @unpackExponent .binary64 x.toBits.toBitVec = -1#11 ↔
      infinityCode ≤ magnitudeCode x := by
  have hones : (-1#11).toNat = 2047 := rfl
  rw [← BitVec.toNat_inj, toNat_unpackExponent, hones, infinityCode_eq, magnitudeCode, signBit_eq]
  change x.toBits.toNat / 2 ^ 52 % 2 ^ 11 = 2047 ↔ _
  omega

/-- From infinity on, the mantissa is zero for infinity only. -/
theorem unpackMantissa_eq_iff (h : infinityCode ≤ magnitudeCode x) :
    @unpackMantissa .binary64 x.toBits.toBitVec = 0#52 ↔ magnitudeCode x = infinityCode := by
  have hzero : (0#52).toNat = 0 := rfl
  rw [← BitVec.toNat_inj, toNat_unpackMantissa, hzero]
  rw [infinityCode_eq, magnitudeCode, signBit_eq] at h ⊢
  change x.toBits.toNat % 2 ^ 52 = 0 ↔ _
  omega

/-- Magnitudes from infinity on stand for infinity or for no number. -/
theorem unpack_of_le (h : infinityCode ≤ magnitudeCode x) :
    x.toModel.unpack = if magnitudeCode x = infinityCode then
      .infinity (.ofBitVec (@unpackSign .binary64 x.toBits.toBitVec)) else .notANumber := by
  change UnpackedFloat.unpack .binary64 x.toBits.toBitVec = _
  rw [UnpackedFloat.unpack, if_pos ((unpackExponent_eq_iff x).2 h)]
  simp only [← unpackMantissa_eq_iff h]

/-- A magnitude below infinity unpacks to something finite. -/
theorem isFinite_unpack_of_lt (h : magnitudeCode x < infinityCode) :
    x.toModel.unpack.isFinite = true := by
  change (UnpackedFloat.unpack .binary64 x.toBits.toBitVec).isFinite = true
  rw [UnpackedFloat.unpack, if_neg (mt (unpackExponent_eq_iff x).1 (Nat.not_le.2 h))]
  split_ifs <;> rfl

/-- The finite numbers are those whose magnitude is below infinity. -/
theorem isFinite_iff : x.isFinite = true ↔ magnitudeCode x < infinityCode := by
  constructor
  · intro hfinite
    refine Nat.not_le.1 ?_
    intro hle
    change x.toModel.unpack.isFinite = true at hfinite
    rw [unpack_of_le hle] at hfinite
    split_ifs at hfinite <;> cases hfinite
  · exact isFinite_unpack_of_lt

/-- A finite number is neither infinite nor not a number. -/
theorem isNaN_isInf_of_isFinite {u : UnpackedFloat} (h : u.isFinite = true) :
    u.isNaN = false ∧ u.isInf = false := by
  cases u with
  | zero | finite => exact ⟨rfl, rfl⟩
  | notANumber | infinity => cases h

/-- What is not a number has a magnitude beyond infinity. -/
theorem isNaN_iff : x.isNaN = true ↔ infinityCode < magnitudeCode x := by
  change x.toModel.unpack.isNaN = true ↔ _
  obtain hlt | hle := Nat.lt_or_ge (magnitudeCode x) infinityCode
  · simp [isNaN_isInf_of_isFinite (isFinite_unpack_of_lt hlt), hlt.le]
  · rw [unpack_of_le hle]
    split_ifs with heq
    · simp [UnpackedFloat.isNaN, heq]
    · simp [UnpackedFloat.isNaN, lt_of_le_of_ne hle (Ne.symm heq)]

/-- The infinities are those whose magnitude is infinity. -/
theorem isInf_iff : x.isInf = true ↔ magnitudeCode x = infinityCode := by
  change x.toModel.unpack.isInf = true ↔ _
  obtain hlt | hle := Nat.lt_or_ge (magnitudeCode x) infinityCode
  · simp [isNaN_isInf_of_isFinite (isFinite_unpack_of_lt hlt), hlt.ne]
  · rw [unpack_of_le hle]
    split_ifs with heq <;> simp [UnpackedFloat.isInf, heq]

end Binary64

end FormulaSheet
