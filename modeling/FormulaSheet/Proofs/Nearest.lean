import FormulaSheet.Proofs.Rounding
import Mathlib

/-!
# The nearest magnitude

`Nearest` says what rounding has to do, without a word on how: no magnitude is nearer to a number,
and of two that are equally near the one with the even code is taken. There is at most one such code
(`Nearest.unique`), it does not go down when the number goes up (`Nearest.le_of_le`), and
`nearestCode` finds it for every fraction (`nearestCode_eq_iff`), unless it is beyond the finite
ones (`nearestCode_eq_infinityCode_iff`). All numbers are counted in units here.
-/

namespace FormulaSheet

namespace Binary64

variable {num den code other m s : Nat} {q q' a b : ℚ}

/-! ## Distances -/

/-- Squares of distances differ by how far the number is from the middle. -/
theorem sq_sub_sq_sub (q a b : ℚ) :
    (q - a) ^ 2 - (q - b) ^ 2 = (b - a) * (2 * q - (a + b)) := by
  ring

/-- The greater of two numbers is the nearer one from their middle on. -/
theorem greater_nearer_iff (h : a < b) : |q - b| ≤ |q - a| ↔ a + b ≤ 2 * q := by
  rw [← sq_le_sq, ← sub_nonneg, sq_sub_sq_sub, mul_nonneg_iff_of_pos_left (sub_pos.2 h), sub_nonneg]

/-- The smaller of two numbers is as near as the other up to the middle. -/
theorem smaller_nearer_iff (h : a < b) : |q - a| ≤ |q - b| ↔ 2 * q ≤ a + b := by
  have hsq : (q - b) ^ 2 - (q - a) ^ 2 = (b - a) * (a + b - 2 * q) := by ring
  rw [← sq_le_sq, ← sub_nonneg, hsq, mul_nonneg_iff_of_pos_left (sub_pos.2 h), sub_nonneg]

/-- Two numbers are equally near to their middle. -/
theorem equally_near_iff (h : a < b) : |q - b| = |q - a| ↔ a + b = 2 * q := by
  rw [eq_comm, ← sq_eq_sq_iff_abs_eq_abs, ← sub_eq_zero, sq_sub_sq_sub, mul_eq_zero,
    or_iff_right (sub_pos.2 h).ne', sub_eq_zero, eq_comm]

/-! ## Rounding to a natural number -/

/-- A number rounded half to even is at most a half away, and if it is, it is even. -/
theorem roundHalfEven_spec (num : Nat) (hden : 0 < den) :
    2 * |(num : ℚ) / den - roundHalfEven num den| ≤ 1 ∧
    (2 * |(num : ℚ) / den - roundHalfEven num den| = 1 → roundHalfEven num den % 2 = 0) := by
  have hden' : (0 : ℚ) < den := by exact_mod_cast hden
  set quotient := num / den
  set lost : ℚ := (num % den : Nat) / den with hlost
  have hnum : (num : ℚ) / den = quotient + lost := by
    have hdiv : ((den * quotient + num % den : Nat) : ℚ) = num := by rw [Nat.div_add_mod]
    rw [hlost, ← hdiv]
    push_cast
    field_simp
  have hnonneg : 0 ≤ lost := by positivity
  have hlow : 2 * (num % den) < den ↔ 2 * lost < 1 := by
    rw [hlost, ← mul_div_assoc, div_lt_one hden']
    exact_mod_cast Iff.rfl
  have hhigh : den < 2 * (num % den) ↔ 1 < 2 * lost := by
    rw [hlost, ← mul_div_assoc, one_lt_div hden']
    exact_mod_cast Iff.rfl
  have hlt : lost < 1 := (div_lt_one hden').2 (by exact_mod_cast Nat.mod_lt num hden)
  rw [hnum, roundHalfEven]
  split
  · next h =>
    rw [hlow] at h
    rw [add_sub_cancel_left, abs_of_nonneg hnonneg]
    exact ⟨h.le, fun heq => absurd heq h.ne⟩
  · split
    · next h =>
      rw [hhigh] at h
      push_cast
      rw [add_sub_add_left_eq_sub, abs_of_neg (by linarith)]
      exact ⟨by linarith, fun heq => by linarith⟩
    · next h h' =>
      rw [hlow] at h
      rw [hhigh] at h'
      have hhalf : lost = 1 / 2 := by linarith
      have hdist : |1 / 2 - ((quotient % 2 : Nat) : ℚ)| = 1 / 2 := by
        rcases Nat.mod_two_eq_zero_or_one quotient with hmod | hmod <;> rw [hmod] <;> norm_num
      rw [Nat.cast_add, add_sub_add_left_eq_sub, hhalf, hdist]
      exact ⟨by norm_num, fun _ => by omega⟩

/-- Of two natural numbers no more than one is less than a half away. -/
theorem one_sub_le_abs_sub {k : Nat} (h : k ≠ m) : 1 - |q - m| ≤ |q - k| := by
  have hone : (1 : ℚ) ≤ |(k : ℚ) - m| := by
    have hne : (k : ℤ) - m ≠ 0 := by omega
    exact_mod_cast Int.one_le_abs hne
  have htriangle := abs_sub_le (k : ℚ) q m
  rw [abs_sub_comm (k : ℚ) q] at htriangle
  linarith

/-- No natural number is nearer than one that is at most a half away. -/
theorem abs_sub_le_of_half (h : 2 * |q - m| ≤ 1) (k : Nat) : |q - m| ≤ |q - k| := by
  by_cases hk : k = m
  · rw [hk]
  · linarith [one_sub_le_abs_sub (q := q) hk]

/-! ## The units of magnitudes -/

/-- To shift by bits is to multiply by a power of two. -/
theorem cast_shiftLeft (m k : Nat) : ((m <<< k : Nat) : ℚ) = m * 2 ^ k := by
  rw [Nat.shiftLeft_eq, Nat.cast_mul, Nat.cast_pow, Nat.cast_ofNat]

theorem binadeSize_eq : binadeSize = 4503599627370496 := rfl

/-- The units of a magnitude that is given by a scale and a multiple of the last bit. The end of a
binade is the beginning of the next. -/
theorem units_mul_add (hs : s = 0 ∨ binadeSize ≤ m) (hm : m ≤ 2 * binadeSize) :
    units (s * binadeSize + m) = m * 2 ^ s := by
  rw [binadeSize_eq] at *
  rcases Nat.lt_or_eq_of_le hm with hlt | rfl
  · have hscale : scale (s * 4503599627370496 + m) = s := by
      rw [scale, binadeSize_eq]
      omega
    rw [units, significand, hscale, binadeSize_eq, Nat.add_sub_cancel_left, Nat.shiftLeft_eq]
  · have hscale : scale (s * 4503599627370496 + 2 * 4503599627370496) = s + 1 := by
      rw [scale, binadeSize_eq]
      omega
    have hrest : s * 4503599627370496 + 2 * 4503599627370496 - (s + 1) * 4503599627370496 =
        4503599627370496 := by
      omega
    rw [units, significand, hscale, binadeSize_eq, hrest, Nat.shiftLeft_eq, Nat.pow_succ]
    ring

/-- The next magnitude is greater by the weight of the last bit. -/
theorem units_succ (code : Nat) : units (code + 1) = units code + 2 ^ scale code := by
  have hcode := scale_mul_add_significand code
  have hbounds : (scale code = 0 ∨ binadeSize ≤ significand code) ∧
      significand code + 1 ≤ 2 * binadeSize := by
    obtain ⟨hscale, hsignificand, hlt⟩ | ⟨-, -, hle, hlt⟩ := scale_and_significand code
    · exact ⟨.inl hscale, by rw [hsignificand]; exact hlt⟩
    · exact ⟨.inr hle, hlt⟩
  have hnext : units (code + 1) = (significand code + 1) * 2 ^ scale code := by
    rw [← units_mul_add (hbounds.1.imp_right fun h => by omega) hbounds.2, ← Nat.add_assoc, hcode]
  rw [hnext, units, Nat.shiftLeft_eq, Nat.succ_mul]

/-- A greater magnitude is more units. -/
theorem strictMono_units : StrictMono units := by
  refine strictMono_nat_of_lt_succ ?_
  intro code
  rw [units_succ]
  exact Nat.lt_add_of_pos_right (Nat.two_pow_pos _)

/-- Magnitudes compare as their units. -/
theorem units_lt_units {c d : Nat} : (units c : ℚ) < units d ↔ c < d := by
  rw [Nat.cast_lt, strictMono_units.lt_iff_lt]

/-- Magnitudes compare as their units, equal ones included. -/
theorem units_le_units {c d : Nat} : (units c : ℚ) ≤ units d ↔ c ≤ d := by
  rw [Nat.cast_le, strictMono_units.le_iff_le]

theorem units_zero : units 0 = 0 := rfl

/-- Only the magnitude zero has no units. -/
theorem units_eq_zero_iff : (units code : ℚ) = 0 ↔ code = 0 := by
  rw [Nat.cast_eq_zero, strictMono_units.injective.eq_iff' units_zero]

/-! ## The nearest code -/

/-- Of all magnitudes none is nearer to a number of units than that of a code, and if another one is
as near, the code is even. Codes beyond that of infinity count as if exponents had no end. -/
structure Nearest (q : ℚ) (code : Nat) : Prop where
  le : ∀ other, |q - units code| ≤ |q - units other|
  even : ∀ other, other ≠ code → |q - units other| = |q - units code| → code % 2 = 0

/-- The nearest code is beyond another just from the middle to the next one on, where the middle
counts if the other one is odd. -/
theorem Nearest.lt_iff (h : Nearest q code) (other : Nat) : other < code ↔
    (units other + units (other + 1) : ℚ) < 2 * q ∨
    (units other + units (other + 1) : ℚ) = 2 * q ∧ other % 2 = 1 := by
  have hnext : (units other : ℚ) < units (other + 1) := units_lt_units.2 (Nat.lt_succ_self other)
  constructor
  · intro hlt
    have hle : (units (other + 1) : ℚ) ≤ units code := units_le_units.2 hlt
    have hmiddle := (greater_nearer_iff (units_lt_units.2 hlt)).1 (h.le other)
    rcases (show (units other + units (other + 1) : ℚ) ≤ 2 * q by linarith).lt_or_eq with hq | hq
    · exact .inl hq
    · -- in the middle, the next code is the nearest one because it is even
      have hcode : code = other + 1 := by
        refine strictMono_units.injective ?_
        have : (units code : ℚ) = units (other + 1) := by linarith
        exact_mod_cast this
      have heven := h.even other hlt.ne
        (by rw [hcode]; exact ((equally_near_iff hnext).2 hq).symm)
      exact .inr ⟨hq, by omega⟩
  · intro hq
    by_contra hge
    have hle : (units code : ℚ) ≤ units other := units_le_units.2 (Nat.not_lt.1 hge)
    have hmiddle := (smaller_nearer_iff (hle.trans_lt hnext)).1 (h.le (other + 1))
    rcases hq with hq | ⟨hq, hodd⟩
    · linarith
    · have hcode : code = other := by
        refine strictMono_units.injective ?_
        have : (units code : ℚ) = units other := by linarith
        exact_mod_cast this
      have heven := h.even (other + 1) (by omega)
        (by rw [hcode]; exact (equally_near_iff hnext).2 hq)
      omega

/-- The nearest code does not go down when the number goes up. -/
theorem Nearest.le_of_le (h : Nearest q code) (h' : Nearest q' other) (hq : q ≤ q') :
    code ≤ other := by
  by_contra hlt
  refine lt_irrefl other ((h'.lt_iff other).2 ?_)
  rcases (h.lt_iff other).1 (Nat.not_le.1 hlt) with hmiddle | ⟨hmiddle, hodd⟩
  · exact .inl (by linarith)
  · rcases hq.lt_or_eq with hq | rfl
    · exact .inl (by linarith)
    · exact .inr ⟨hmiddle, hodd⟩

/-- Between two numbers whose nearest code is the same, it is the nearest to all. -/
theorem ordConnected_nearest (code : Nat) : {q | Nearest q code}.OrdConnected := by
  refine ⟨fun a ha b hb q hq => ⟨?_, ?_⟩⟩
  · intro other
    obtain hlt | rfl | hlt := Nat.lt_trichotomy other code
    · have hmiddle := (greater_nearer_iff (units_lt_units.2 hlt)).1 (ha.le other)
      exact (greater_nearer_iff (units_lt_units.2 hlt)).2 (by linarith [hq.1])
    · exact le_rfl
    · have hmiddle := (smaller_nearer_iff (units_lt_units.2 hlt)).1 (hb.le other)
      exact (smaller_nearer_iff (units_lt_units.2 hlt)).2 (by linarith [hq.2])
  · -- only the ends can be in the middle between the code and another
    intro other hne heq
    obtain hlt | hlt := Nat.lt_or_gt_of_ne hne
    · have hmiddle := (greater_nearer_iff (units_lt_units.2 hlt)).1 (ha.le other)
      have hq' := (equally_near_iff (units_lt_units.2 hlt)).1 heq.symm
      obtain rfl : a = q := by linarith [hq.1]
      exact ha.even other hne heq
    · have hmiddle := (smaller_nearer_iff (units_lt_units.2 hlt)).1 (hb.le other)
      have hq' := (equally_near_iff (units_lt_units.2 hlt)).1 heq
      obtain rfl : b = q := by linarith [hq.2]
      exact hb.even other hne heq

/-- There is no more than one nearest magnitude. -/
theorem Nearest.unique (h : Nearest q code) (h' : Nearest q other) : code = other :=
  Nat.le_antisymm (h.le_of_le h' le_rfl) (h'.le_of_le h le_rfl)

/-! ## Rounding a fraction -/

/-- The code that a fraction is rounded to if exponents have no end. -/
def unboundedCode (num den : Nat) : Nat :=
  let s := scaleOfUnits (num / den)
  s * binadeSize + roundHalfEven num (den <<< s)

/-- Rounding stops at infinity. -/
theorem nearestCode_eq (num den : Nat) :
    nearestCode num den = min (unboundedCode num den) infinityCode := rfl

/-- Rounding moves a quotient up by no more than one. -/
theorem div_le_roundHalfEven (num den : Nat) :
    num / den ≤ roundHalfEven num den ∧ roundHalfEven num den ≤ num / den + 1 := by
  have hparity := Nat.mod_lt (num / den) (show 0 < 2 by decide)
  rw [roundHalfEven]
  split
  · omega
  · split <;> omega

/-- In multiples of the last bit of its scale, a fraction lies in the binade of the scale. -/
theorem div_shiftLeft_scaleOfUnits (num den : Nat) :
    (scaleOfUnits (num / den) = 0 ∨ binadeSize ≤ num / (den <<< scaleOfUnits (num / den))) ∧
    num / (den <<< scaleOfUnits (num / den)) < 2 * binadeSize := by
  have hbinade : binadeSize = 2 ^ 52 := rfl
  rw [Nat.shiftLeft_eq, ← Nat.div_div_eq_div_mul]
  generalize num / den = whole
  have hpos := Nat.two_pow_pos (scaleOfUnits whole)
  constructor
  · rw [Nat.le_div_iff_mul_le hpos, hbinade, ← Nat.pow_add]
    refine or_iff_not_imp_left.2 fun hscale => ?_
    have hlog : 52 + scaleOfUnits whole = whole.log2 := by
      rw [scaleOfUnits] at hscale ⊢
      omega
    have hwhole : whole ≠ 0 := by
      rintro rfl
      exact hscale rfl
    rw [hlog]
    exact Nat.log2_self_le hwhole
  · rw [Nat.div_lt_iff_lt_mul hpos, hbinade, ← Nat.pow_succ', ← Nat.pow_add]
    refine Nat.lt_log2_self.trans_le (Nat.pow_le_pow_right (by decide) ?_)
    rw [scaleOfUnits]
    omega

/-- The units of the code that a fraction is rounded to. -/
theorem units_unboundedCode (num den : Nat) : units (unboundedCode num den) =
    roundHalfEven num (den <<< scaleOfUnits (num / den)) * 2 ^ scaleOfUnits (num / den) := by
  obtain ⟨hlow, hhigh⟩ := div_shiftLeft_scaleOfUnits num den
  obtain ⟨hle, hge⟩ := div_le_roundHalfEven num (den <<< scaleOfUnits (num / den))
  exact units_mul_add (hlow.imp_right fun h => h.trans hle) (by omega)

/-- The magnitudes of a binade and of those above it are multiples of its last bit. -/
theorem exists_units_eq_mul (h : s ≤ scale code) : ∃ k, units code = k * 2 ^ s := by
  refine ⟨significand code * 2 ^ (scale code - s), ?_⟩
  rw [Nat.mul_assoc, ← Nat.pow_add, Nat.sub_add_cancel h, units, Nat.shiftLeft_eq]

/-- The magnitudes below a binade are less than its first one. -/
theorem units_lt_of_scale_lt (h : scale code < s) : units code < binadeSize * 2 ^ s := by
  have hsignificand : significand code < 2 * binadeSize := by
    obtain ⟨-, hsignificand, hlt⟩ | ⟨-, -, -, hlt⟩ := scale_and_significand code
    · rwa [hsignificand]
    · exact hlt
  calc units code = significand code * 2 ^ scale code := by rw [units, Nat.shiftLeft_eq]
    _ < 2 * binadeSize * 2 ^ scale code := Nat.mul_lt_mul_of_pos_right hsignificand (by positivity)
    _ = binadeSize * 2 ^ (scale code + 1) := by ring
    _ ≤ binadeSize * 2 ^ s := Nat.mul_le_mul_left _ (Nat.pow_le_pow_right (by decide) h)

/-- The nearest of the multiples of a last bit is the nearest of all magnitudes, for no magnitude
below the binade is nearer than the binade's first. -/
theorem Nearest.of_round (hhalf : 2 * |q - m| ≤ 1) (heven : 2 * |q - m| = 1 → code % 2 = 0)
    (hlow : s = 0 ∨ (binadeSize : ℚ) ≤ q) (hcode : units code = m * 2 ^ s) :
    Nearest (q * 2 ^ s) code := by
  have hpos : (0 : ℚ) < 2 ^ s := by positivity
  have hdist : ∀ {c k : Nat}, units c = k * 2 ^ s →
      |q * 2 ^ s - units c| = |q - k| * 2 ^ s := by
    intro c k hc
    rw [hc]
    push_cast
    rw [← sub_mul, abs_mul, abs_of_pos hpos]
  have hbelow : ∀ other, scale other < s →
      |q * 2 ^ s - units code| < |q * 2 ^ s - units other| := by
    intro other hscale
    have hother : (units other : ℚ) < binadeSize * 2 ^ s := by
      exact_mod_cast units_lt_of_scale_lt hscale
    have hq := hlow.resolve_left (Nat.ne_zero_of_lt hscale)
    have hbinade : (binadeSize : ℚ) * 2 ^ s ≤ q * 2 ^ s := by gcongr
    calc |q * 2 ^ s - units code| = |q - m| * 2 ^ s := hdist hcode
      _ ≤ |q - binadeSize| * 2 ^ s :=
        mul_le_mul_of_nonneg_right (abs_sub_le_of_half hhalf _) hpos.le
      _ = q * 2 ^ s - binadeSize * 2 ^ s := by rw [abs_of_nonneg (sub_nonneg.2 hq), sub_mul]
      _ < q * 2 ^ s - units other := by linarith
      _ ≤ |q * 2 ^ s - units other| := le_abs_self _
  constructor
  · intro other
    rcases Nat.lt_or_ge (scale other) s with hscale | hscale
    · exact (hbelow other hscale).le
    · obtain ⟨k, hk⟩ := exists_units_eq_mul hscale
      rw [hdist hcode, hdist hk]
      exact mul_le_mul_of_nonneg_right (abs_sub_le_of_half hhalf k) hpos.le
  · intro other hne heq
    rcases Nat.lt_or_ge (scale other) s with hscale | hscale
    · exact absurd heq (hbelow other hscale).ne'
    · obtain ⟨k, hk⟩ := exists_units_eq_mul hscale
      have hkm : k ≠ m := by
        rintro rfl
        exact hne (strictMono_units.injective (hk.trans hcode.symm))
      rw [hdist hcode, hdist hk] at heq
      have hdistance := one_sub_le_abs_sub (q := q) hkm
      rw [mul_right_cancel₀ hpos.ne' heq] at hdistance
      exact heven (by linarith)

/-- A fraction is rounded to the nearest code. -/
theorem nearest_unboundedCode (num : Nat) (hden : 0 < den) :
    Nearest (num / den) (unboundedCode num den) := by
  have hcode := units_unboundedCode num den
  obtain ⟨hlow, -⟩ := div_shiftLeft_scaleOfUnits num den
  have hparity : unboundedCode num den % 2 =
      roundHalfEven num (den <<< scaleOfUnits (num / den)) % 2 := by
    rw [unboundedCode, binadeSize_eq]
    omega
  generalize scaleOfUnits (num / den) = s at *
  have hden' : 0 < den <<< s := by
    rw [Nat.shiftLeft_eq]
    positivity
  obtain ⟨hhalf, heven⟩ := roundHalfEven_spec num hden'
  have hfraction : (num : ℚ) / den = num / (den <<< s : Nat) * 2 ^ s := by
    rw [Nat.shiftLeft_eq]
    push_cast
    field_simp
  rw [hfraction]
  refine .of_round hhalf (fun h => hparity.trans (heven h)) (hlow.imp_right fun h => ?_) hcode
  calc (binadeSize : ℚ) ≤ (num / (den <<< s) : Nat) := by exact_mod_cast h
    _ ≤ num / (den <<< s : Nat) := Nat.cast_div_le

/-! ## Infinity and zero -/

/-- A fraction is rounded to more than a finite code just from the middle to the next one on, where
the middle counts if the code is odd. -/
theorem lt_nearestCode_iff (hden : 0 < den) (hcode : code < infinityCode) :
    code < nearestCode num den ↔
      (units code + units (code + 1) : ℚ) < 2 * (num / den) ∨
      (units code + units (code + 1) : ℚ) = 2 * (num / den) ∧ code % 2 = 1 := by
  rw [nearestCode_eq, lt_min_iff, and_iff_left hcode, (nearest_unboundedCode num hden).lt_iff]

/-- The nearest magnitude is infinity at most. -/
theorem nearestCode_le (num den : Nat) : nearestCode num den ≤ infinityCode := Nat.min_le_right ..

/-- The middle between the greatest finite magnitude and the next power of two, in units. -/
def overflow : ℚ := 2 ^ 2098 - 2 ^ 2044

/-- Infinity stands where the next power of two would. -/
theorem units_infinityCode : units infinityCode = 2 ^ 2098 := by
  have hcode : infinityCode = 2045 * binadeSize + 2 * binadeSize := rfl
  have hbinade : binadeSize = 2 ^ 52 := rfl
  rw [hcode, units_mul_add (.inr (by omega)) le_rfl, hbinade,
    show 2098 = 1 + 52 + 2045 from rfl, Nat.pow_add, Nat.pow_add, Nat.pow_one]

/-- The code of the greatest finite magnitude. -/
def greatestCode : Nat := infinityCode - 1

/-- Infinity comes next after the greatest finite magnitude. -/
theorem greatestCode_succ : greatestCode + 1 = infinityCode := rfl

/-- The greatest finite magnitude lies one unit of its binade before the next power of two. -/
theorem units_greatestCode : units greatestCode + 2 ^ 2045 = 2 ^ 2098 := by
  have hscale : scale greatestCode = 2045 := rfl
  rw [← units_infinityCode, ← greatestCode_succ, units_succ, hscale]

/-- The border of overflow is the middle between the greatest finite magnitude and infinity. -/
theorem units_greatestCode_add : (units greatestCode + units infinityCode : ℚ) = 2 * overflow := by
  have hgreatest := congrArg (Nat.cast : Nat → ℚ) units_greatestCode
  have hhalf : (2 : ℚ) ^ 2045 = 2 * 2 ^ 2044 := pow_succ' 2 2044
  rw [Nat.cast_add, Nat.cast_pow, Nat.cast_pow, Nat.cast_ofNat, hhalf] at hgreatest
  rw [units_infinityCode, overflow, Nat.cast_pow, Nat.cast_ofNat]
  generalize (2 : ℚ) ^ 2098 = top at *
  generalize (2 : ℚ) ^ 2044 = half at *
  linarith

/-- Before the middle behind the greatest finite magnitude, only finite magnitudes can be near. -/
theorem Nearest.of_finite (hq : q < overflow)
    (hle : ∀ other < infinityCode, |q - units code| ≤ |q - units other|)
    (heven : ∀ other < infinityCode, other ≠ code → |q - units other| = |q - units code| →
      code % 2 = 0) : Nearest q code := by
  have hfar : ∀ other, infinityCode ≤ other → |q - units code| < |q - units other| := by
    intro other hother
    have hsucc := greatestCode_succ
    have hgreatest : (units greatestCode : ℚ) < units other := units_lt_units.2 (by omega)
    have hinfinity : (units infinityCode : ℚ) ≤ units other := units_le_units.2 hother
    have hmiddle := units_greatestCode_add
    refine (hle greatestCode (by omega)).trans_lt (lt_of_not_ge fun hge => ?_)
    have := (greater_nearer_iff hgreatest).1 hge
    linarith
  constructor
  · intro other
    rcases Nat.lt_or_ge other infinityCode with hother | hother
    · exact hle other hother
    · exact (hfar other hother).le
  · intro other hne heq
    rcases Nat.lt_or_ge other infinityCode with hother | hother
    · exact heven other hother hne heq
    · exact absurd heq (hfar other hother).ne'

/-- A fraction is rounded to infinity just from the middle behind the greatest finite magnitude
on. -/
theorem nearestCode_eq_infinityCode_iff (hden : 0 < den) :
    nearestCode num den = infinityCode ↔ overflow ≤ num / den := by
  have hiff : greatestCode < nearestCode num den ↔ _ :=
    lt_nearestCode_iff hden (Nat.lt_of_succ_le greatestCode_succ.le)
  rw [greatestCode_succ, units_greatestCode_add, and_iff_left (show greatestCode % 2 = 1 from rfl),
    ← le_iff_lt_or_eq, mul_le_mul_iff_right₀ two_pos] at hiff
  have hle := nearestCode_le num den
  have hsucc := greatestCode_succ
  rw [← hiff]
  omega

/-- A fraction is rounded to a finite code just if that is the nearest code. -/
theorem nearestCode_eq_iff (hden : 0 < den) (hcode : code < infinityCode) :
    nearestCode num den = code ↔ Nearest (num / den) code := by
  have hnearest := nearest_unboundedCode num hden
  rw [nearestCode_eq]
  constructor
  · intro h
    have heq : unboundedCode num den = code := by omega
    rwa [heq] at hnearest
  · intro h
    rw [hnearest.unique h, min_eq_left hcode.le]

/-- A greater fraction is not rounded to a smaller code. -/
theorem nearestCode_le_nearestCode {num' den' : Nat} (hden : 0 < den) (hden' : 0 < den')
    (h : (num / den : ℚ) ≤ num' / den') : nearestCode num den ≤ nearestCode num' den' := by
  have hle := (nearest_unboundedCode num hden).le_of_le (nearest_unboundedCode num' hden') h
  rw [nearestCode_eq, nearestCode_eq]
  exact min_le_min_right infinityCode hle

/-- A fraction is rounded to zero just up to half a unit. -/
theorem nearestCode_eq_zero_iff (hden : 0 < den) :
    nearestCode num den = 0 ↔ (num : ℚ) / den ≤ 1 / 2 := by
  have hmiddle : (units 0 + units (0 + 1) : ℚ) = 1 := by
    rw [units_zero, show units (0 + 1) = 1 from rfl]
    norm_num
  have hiff : 0 < nearestCode num den ↔ _ := lt_nearestCode_iff hden (by decide)
  rw [hmiddle, or_iff_left (by simp)] at hiff
  rw [← Nat.le_zero_eq, ← Nat.not_lt, hiff, not_lt, le_div_iff₀' two_pos]

end Binary64

end FormulaSheet
