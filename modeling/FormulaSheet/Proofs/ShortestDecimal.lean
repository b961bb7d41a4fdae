import FormulaSheet.Proofs.FloatValue

/-!
# The digits of shortest decimal fractions

A decimal with few significant digits cannot lie strictly between a fraction with more digits and
the two roundings of the fraction to as few digits (`Decimal.exists_rounding_between`). All numbers
between two that are rounded to a magnitude are rounded to it. So where the search finds nothing,
no decimal with as few digits is rounded to the magnitude, and what it finds first is the closest
(`Binary64.shortest_spec`).
-/

namespace FormulaSheet

namespace Decimal

variable {p q r : ℚ} {n k dropped : Nat} {d : Decimal} {accept : Decimal → Bool}

/-! ## Significant digits -/

/-- A number is a decimal with at most this many significant digits. -/
def HasDigits (n : Nat) (q : ℚ) : Prop := ∃ m e : ℤ, |m| < 10 ^ n ∧ q = m * 10 ^ e

/-- No number but zero needs no digits. -/
theorem HasDigits.eq_zero (h : HasDigits 0 q) : q = 0 := by
  obtain ⟨m, e, hm, rfl⟩ := h
  rw [pow_zero, Int.abs_lt_one_iff] at hm
  rw [hm, Int.cast_zero, zero_mul]

/-- A power of ten does not change the digits of a number. -/
theorem HasDigits.mul_pow (h : HasDigits n q) (e : ℤ) : HasDigits n (q * 10 ^ e) := by
  obtain ⟨m, e', hm, rfl⟩ := h
  exact ⟨m, e' + e, hm, by rw [zpow_add₀ (by norm_num), mul_assoc]⟩

/-- A sign does not change the digits of a number. -/
theorem HasDigits.signed (h : HasDigits n q) (negative : Bool) :
    HasDigits n (Binary64.signed negative q) := by
  cases negative with
  | false => exact h
  | true =>
    obtain ⟨m, e, hm, rfl⟩ := h
    exact ⟨-m, e, by rwa [abs_neg], by rw [Int.cast_neg, neg_mul]; rfl⟩

/-- A natural number up to a power of ten has as many digits as the power has zeros, if there are
any. -/
theorem hasDigits_of_le {m : Nat} (hn : 0 < n) (hm : m ≤ 10 ^ n) : HasDigits n m := by
  obtain hlt | rfl := Nat.lt_or_eq_of_le hm
  · exact ⟨m, 0, by rw [Nat.abs_cast]; exact_mod_cast hlt, by rw [zpow_zero, mul_one]; rfl⟩
  · exact ⟨1, n, by rw [abs_one]; exact one_lt_pow₀ (by decide) hn.ne',
      by rw [zpow_natCast, Int.cast_one, one_mul, Nat.cast_pow]; rfl⟩

/-- A number with few digits is not strictly between the multiples of a power of ten on either side
of a number with more digits. -/
theorem HasDigits.le_or_le (h : HasDigits (n + 1) q) {m : Nat} (hm : 10 ^ (n + k) ≤ m) :
    q ≤ (m / 10 ^ k : Nat) * 10 ^ k ∨ ((m / 10 ^ k : Nat) + 1) * 10 ^ k ≤ q := by
  obtain ⟨z, e, hz, rfl⟩ := h
  have hz' : (z : ℚ) < 10 ^ (n + 1) := by exact_mod_cast (le_abs_self z).trans_lt hz
  have hdiv : 10 ^ n ≤ m / 10 ^ k := by
    rwa [Nat.le_div_iff_mul_le (by positivity), ← Nat.pow_add]
  have hdiv' : (10 : ℚ) ^ n ≤ (m / 10 ^ k : Nat) := by exact_mod_cast hdiv
  generalize m / 10 ^ k = b at *
  obtain hlt | hle := lt_or_ge e k
  · -- the number has fewer digits before the point than the multiples
    left
    calc (z : ℚ) * 10 ^ e ≤ 10 ^ (n + 1) * 10 ^ e :=
          mul_le_mul_of_nonneg_right hz'.le (by positivity)
      _ = 10 ^ n * 10 ^ (1 + e) := by
          rw [pow_succ, mul_assoc, zpow_one_add₀ (by norm_num)]
      _ ≤ 10 ^ n * 10 ^ (k : ℤ) := by
          gcongr
          · norm_num
          · omega
      _ ≤ b * 10 ^ k := by
          rw [zpow_natCast]
          gcongr
  · -- the number is a multiple itself
    obtain ⟨t, rfl⟩ := Int.le.dest hle
    have hq : (z : ℚ) * 10 ^ ((k : ℤ) + t) = (z * 10 ^ t : ℤ) * 10 ^ k := by
      rw [zpow_add₀ (by norm_num), zpow_natCast, zpow_natCast]
      push_cast
      ring
    rw [hq]
    obtain hle | hlt := lt_or_ge (b : ℤ) (z * 10 ^ t)
    · right
      gcongr
      exact_mod_cast hle
    · left
      gcongr
      exact_mod_cast hlt

/-! ## Roundings -/

/-- The multiple of `10 ^ dropped` units of the last place below a fraction. -/
def below (d : Decimal) (dropped : Nat) : Decimal :=
  { d with digits := d.digits - d.digits % 10 ^ dropped }

/-- The next such multiple. -/
def above (d : Decimal) (dropped : Nat) : Decimal :=
  { d with digits := d.digits - d.digits % 10 ^ dropped + 10 ^ dropped }

/-- The nearer of the two roundings is tried first. -/
theorem roundings_eq (d : Decimal) (dropped : Nat) : d.roundings dropped =
    if 2 * (d.digits % 10 ^ dropped) < 10 ^ dropped then [d.below dropped, d.above dropped]
    else [d.above dropped, d.below dropped] := rfl

/-- A rounding is the one below or the one above. -/
theorem mem_roundings {r : Decimal} :
    r ∈ d.roundings dropped ↔ r = d.below dropped ∨ r = d.above dropped := by
  rw [roundings_eq]
  split
  · simp
  · simp [or_comm]

/-- A number without its last digits is less by what they count. -/
theorem cast_div_mul (m k : Nat) :
    ((m / 10 ^ k : Nat) : ℚ) * 10 ^ k = m - (m % 10 ^ k : Nat) := by
  rw [eq_sub_iff_add_eq]
  exact_mod_cast Nat.div_add_mod' m (10 ^ k)

/-- The rounding below leaves out the last digits. -/
theorem value_below (d : Decimal) (dropped : Nat) :
    (d.below dropped).value = (d.digits - (d.digits % 10 ^ dropped : Nat)) / 10 ^ d.places := by
  rw [value, below, Nat.cast_sub (Nat.mod_le ..)]

/-- The rounding above is one unit of its last digit greater than the one below. -/
theorem value_above (d : Decimal) (dropped : Nat) : (d.above dropped).value =
    (d.digits - (d.digits % 10 ^ dropped : Nat) + 10 ^ dropped) / 10 ^ d.places := by
  rw [value, above, Nat.cast_add, Nat.cast_sub (Nat.mod_le ..), Nat.cast_pow, Nat.cast_ofNat]

/-- The rounding below is at most the fraction. -/
theorem below_le (d : Decimal) (dropped : Nat) : (d.below dropped).value ≤ d.value := by
  rw [value_below, value]
  gcongr
  exact sub_le_self _ (Nat.cast_nonneg _)

/-- The rounding above is at least the fraction. -/
theorem le_above (d : Decimal) (dropped : Nat) : d.value ≤ (d.above dropped).value := by
  have hlost : ((d.digits % 10 ^ dropped : Nat) : ℚ) ≤ 10 ^ dropped := by
    exact_mod_cast (Nat.mod_lt _ (by positivity)).le
  rw [value_above, value]
  gcongr
  linarith

/-- The closer one of the roundings comes first. -/
theorem pairwise_roundings (d : Decimal) (dropped : Nat) :
    (d.roundings dropped).Pairwise fun r s => |r.value - d.value| ≤ |s.value - d.value| := by
  have hbelow : |(d.below dropped).value - d.value| =
      (d.digits % 10 ^ dropped : Nat) / 10 ^ d.places := by
    rw [abs_of_nonpos (sub_nonpos.2 (d.below_le dropped)), value_below, value]
    ring
  have habove : |(d.above dropped).value - d.value| =
      (10 ^ dropped - (d.digits % 10 ^ dropped : Nat)) / 10 ^ d.places := by
    rw [abs_of_nonneg (sub_nonneg.2 (d.le_above dropped)), value_above, value]
    ring
  rw [roundings_eq]
  split
  · next h =>
    have h' : (2 * (d.digits % 10 ^ dropped : Nat) : ℚ) < 10 ^ dropped := by exact_mod_cast h
    rw [List.pairwise_pair, hbelow, habove]
    gcongr
    linarith
  · next h =>
    have h' : (10 ^ dropped : ℚ) ≤ 2 * (d.digits % 10 ^ dropped : Nat) := by
      exact_mod_cast Nat.not_lt.1 h
    rw [List.pairwise_pair, hbelow, habove]
    gcongr
    linarith

/-- A number with few digits has a rounding between it and the fraction. -/
theorem exists_rounding_between (hp : HasDigits (n + 1) p) (hd : 10 ^ (n + dropped) ≤ d.digits) :
    ∃ r ∈ d.roundings dropped, r.value ∈ Set.uIcc d.value p := by
  have hpos : (0 : ℚ) < 10 ^ d.places := by positivity
  have hp' := hp.mul_pow d.places
  rw [zpow_natCast] at hp'
  obtain hle | hle := hp'.le_or_le hd
  · refine ⟨d.below dropped, mem_roundings.2 (.inl rfl), ?_⟩
    refine Set.mem_uIcc.2 (.inr ⟨?_, d.below_le dropped⟩)
    rwa [value_below, le_div_iff₀ hpos, ← cast_div_mul]
  · refine ⟨d.above dropped, mem_roundings.2 (.inr rfl), ?_⟩
    refine Set.mem_uIcc.2 (.inl ⟨d.le_above dropped, ?_⟩)
    rwa [value_above, div_le_iff₀ hpos, ← cast_div_mul, ← add_one_mul]

/-- A rounding has as many digits fewer than the fraction as are dropped. -/
theorem hasDigits_rounding {r : Decimal} (hr : r ∈ d.roundings dropped) (hn : 0 < n)
    (hd : d.digits < 10 ^ (n + dropped)) : HasDigits n r.value := by
  have hlt : d.digits / 10 ^ dropped < 10 ^ n := by
    rwa [Nat.div_lt_iff_lt_mul (by positivity), ← Nat.pow_add]
  have hmultiple : ∀ m : Nat, m ≤ 10 ^ n →
      HasDigits n ((m * 10 ^ dropped : ℚ) / 10 ^ d.places) := by
    intro m hm
    have hdigits := (hasDigits_of_le hn hm).mul_pow (dropped - d.places)
    rwa [zpow_sub₀ (by norm_num), zpow_natCast, zpow_natCast, ← mul_div_assoc] at hdigits
  obtain rfl | rfl := mem_roundings.1 hr
  · rw [value_below, ← cast_div_mul]
    exact hmultiple _ hlt.le
  · rw [value_above, ← cast_div_mul, ← add_one_mul, ← Nat.cast_add_one]
    exact hmultiple _ hlt

/-! ## The search -/

/-- A fraction that is accepted is found before digits are dropped. -/
theorem find?_roundings_zero (h : accept d = true) : (d.roundings 0).find? accept = some d := by
  rw [roundings_eq, if_pos (by rw [pow_zero, Nat.mod_one]; decide), below, pow_zero, Nat.mod_one,
    Nat.sub_zero]
  exact List.find?_cons_of_pos h

/-- The search ends with the first rounding that is accepted where the most digits are dropped of
which one is accepted. -/
theorem roundingWith_eq (accept : Decimal → Bool) (h : accept d = true) {digits : Nat}
    (hpos : 0 < digits) : ∃ dropped < digits,
      (d.roundings dropped).find? accept = some (d.roundingWith accept digits) ∧
      ∀ k, dropped < k → k < digits → ∀ r ∈ d.roundings k, ¬ accept r = true := by
  induction digits with
  | zero => exact absurd hpos (Nat.lt_irrefl 0)
  | succ digits ih =>
    rw [roundingWith]
    split
    · next rounded hfound => exact ⟨digits, Nat.lt_succ_self _, hfound, fun k _ _ => by omega⟩
    · next hnone =>
      have hpos : 0 < digits := by
        rw [Nat.pos_iff_ne_zero]
        rintro rfl
        rw [find?_roundings_zero h] at hnone
        cases hnone
      obtain ⟨dropped, hlt, hfound, hmore⟩ := ih hpos
      refine ⟨dropped, Nat.lt_succ_of_lt hlt, hfound, ?_⟩
      intro k hk hk'
      obtain hlt | rfl := Nat.lt_succ_iff_lt_or_eq.1 hk'
      · exact hmore k hk hlt
      · exact List.find?_eq_none.1 hnone

/-- No accepted rounding is closer than the first. -/
theorem abs_sub_le_of_find? {r s : Decimal} (hfound : (d.roundings dropped).find? accept = some r)
    (hs : s ∈ d.roundings dropped) (haccept : accept s = true) :
    |r.value - d.value| ≤ |s.value - d.value| := by
  obtain ⟨-, before, after, hsplit, hbefore⟩ := List.find?_eq_some_iff_append.1 hfound
  have hpairwise := d.pairwise_roundings dropped
  rw [hsplit] at hs hpairwise
  obtain hs | hs := List.mem_append.1 hs
  · have hnot := hbefore s hs
    rw [haccept] at hnot
    cases hnot
  · obtain rfl | hs := List.mem_cons.1 hs
    · exact le_rfl
    · exact (List.pairwise_cons.1 (List.pairwise_append.1 hpairwise).2.1).1 s hs

end Decimal

namespace Binary64

open Decimal

variable {code n dropped : Nat} {p : ℚ}

/-- The exact decimal has the value of its magnitude. -/
theorem value_exactDecimal (code : Nat) : (exactDecimal code).value * 2 ^ 1074 = units code := by
  rw [value_mul_unit, exactDecimal_units, Nat.cast_mul,
    mul_div_cancel_right₀ _ (Nat.cast_ne_zero.2 (exactDecimal code).one_pos.ne')]

/-- The exact decimal of a positive magnitude has digits. -/
theorem digits_exactDecimal_ne_zero (hpos : 0 < code) : (exactDecimal code).digits ≠ 0 := by
  intro hzero
  have hunits := value_exactDecimal code
  rw [Decimal.value, hzero, Nat.cast_zero, zero_div, zero_mul, eq_comm, units_eq_zero_iff] at hunits
  exact hpos.ne' hunits

/-- The powers of ten around the digits of a magnitude. -/
theorem digits_exactDecimal_bounds (hpos : 0 < code)
    (hn : n + 1 = (Nat.toDigits 10 (exactDecimal code).digits).length) :
    10 ^ n ≤ (exactDecimal code).digits ∧ (exactDecimal code).digits < 10 ^ (n + 1) := by
  constructor
  · obtain rfl | hn' := Nat.eq_zero_or_pos n
    · exact Nat.one_le_iff_ne_zero.2 (digits_exactDecimal_ne_zero hpos)
    · refine Nat.not_lt.1 (mt (Nat.length_toDigits_le_iff (by decide) hn').2 ?_)
      omega
  · exact (Nat.length_toDigits_le_iff (by decide) n.succ_pos).1 hn.ge

/-- If a number with few digits is rounded to a magnitude, so is a rounding of the magnitude that is
as close. -/
theorem exists_rounding (hcode : code < infinityCode) (hp : HasDigits (n + 1) p)
    (hd : 10 ^ (n + dropped) ≤ (exactDecimal code).digits) (h : Nearest (p * 2 ^ 1074) code) :
    ∃ r ∈ (exactDecimal code).roundings dropped, r.nearestCode = code ∧
      |r.value - (exactDecimal code).value| ≤ |p - (exactDecimal code).value| := by
  obtain ⟨r, hr, hbetween⟩ := exists_rounding_between hp hd
  refine ⟨r, hr, ?_, Set.abs_sub_left_of_mem_uIcc hbetween⟩
  have hexact := (Decimal.nearestCode_eq_iff hcode).1 (nearestCode_exactDecimal hcode)
  have hmono := fun a b (hab : a ≤ b) => mul_le_mul_of_nonneg_right hab unit_pos.le
  have hbetween' : r.value * 2 ^ 1074 ∈
      Set.uIcc ((exactDecimal code).value * 2 ^ 1074) (p * 2 ^ 1074) :=
    Set.mem_uIcc.2 ((Set.mem_uIcc.1 hbetween).imp (And.imp (hmono _ _) (hmono _ _))
      (And.imp (hmono _ _) (hmono _ _)))
  exact (Decimal.nearestCode_eq_iff hcode).2
    ((ordConnected_nearest code).uIcc_subset hexact h hbetween')

/-- No decimal with fewer digits than the shortest is rounded to the magnitude, and none with as
many digits that is rounded to it is closer to the magnitude. -/
theorem shortest_spec (hpos : 0 < code) (hcode : code < infinityCode) :
    ∃ n, HasDigits n (shortest code).value ∧
      (∀ k < n, ∀ p, HasDigits k p → ¬ Nearest (p * 2 ^ 1074) code) ∧
      ∀ p, HasDigits n p → Nearest (p * 2 ^ 1074) code →
        |(shortest code).value - (exactDecimal code).value| ≤ |p - (exactDecimal code).value| := by
  obtain ⟨dropped, hlt, hfound, hmore⟩ := roundingWith_eq (fun d => d.nearestCode == code)
    (beq_iff_eq.2 (nearestCode_exactDecimal hcode)) (@Nat.length_toDigits_pos 10 _)
  obtain ⟨n, hlength⟩ := Nat.exists_eq_add_of_lt hlt
  obtain ⟨hle, hlt⟩ := digits_exactDecimal_bounds hpos hlength.symm
  refine ⟨n + 1, ?_, ?_, ?_⟩
  · refine hasDigits_rounding (List.mem_of_find?_eq_some hfound) n.succ_pos ?_
    rwa [Nat.add_right_comm, Nat.add_comm n]
  · intro k hk p hp hnearest
    obtain rfl | hpos' := Nat.eq_zero_or_pos k
    · -- zero is not rounded to the magnitude
      have hzero := hnearest.le 0
      rw [hp.eq_zero, zero_mul, units_zero, Nat.cast_zero, sub_zero, abs_zero, abs_nonpos_iff,
        zero_sub, neg_eq_zero, units_eq_zero_iff] at hzero
      exact hpos.ne' hzero
    · -- with fewer digits more of them are dropped, and no rounding was accepted there
      obtain ⟨k, rfl⟩ := Nat.exists_eq_add_one.2 hpos'
      obtain ⟨r, hr, haccept, -⟩ := @exists_rounding _ _ (n + dropped - k) _ hcode hp
        (by rwa [Nat.add_sub_of_le (by omega), Nat.add_comm n]) hnearest
      exact hmore (n + dropped - k) (by omega) (by omega) r hr (beq_iff_eq.2 haccept)
  · intro p hp hnearest
    obtain ⟨r, hr, haccept, hclose⟩ := exists_rounding hcode hp (by rwa [Nat.add_comm n]) hnearest
    exact (abs_sub_le_of_find? hfound hr (beq_iff_eq.2 haccept)).trans hclose

end Binary64

end FormulaSheet
