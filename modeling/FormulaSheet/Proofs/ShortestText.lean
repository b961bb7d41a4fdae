import FormulaSheet.Proofs.Literals
import FormulaSheet.Proofs.ShortestDecimal

/-!
# The shortest texts of values

The text of a finite value is a positional decimal without needless zeros, and no decimal with fewer
digits is rounded to the value (`valueText_shortest`).
-/

namespace FormulaSheet

namespace Decimal

variable {d : Decimal} {w f w' f' : List Char}

/-! ## The form of the text -/

/-- Digits before and after a point without needless zeros: the first is zero only if it stands
alone before the point, and the last after the point is not zero. -/
structure Positional (whole fraction : List Char) : Prop where
  whole_ne_nil : whole ≠ []
  whole_digits : ∀ c ∈ whole, c.isDigit
  fraction_digits : ∀ c ∈ fraction, c.isDigit
  first : whole = ['0'] ∨ whole.head? ≠ some '0'
  last : fraction.getLast? ≠ some '0'

/-- The digits after the point with the point, if there are any. -/
def pointed (fraction : List Char) : List Char := if fraction = [] then [] else '.' :: fraction

/-- What stands behind the point is the fraction. -/
theorem tail_pointed (f : List Char) : (pointed f).tail = f := by
  rw [pointed]
  split
  · next hnil => exact hnil.symm
  · rfl

/-- A text has no other digits before and after its point. -/
theorem Positional.eq_of_append_eq (h : Positional w f) (h' : Positional w' f')
    (heq : w ++ pointed f = w' ++ pointed f') : w = w' ∧ f = f' := by
  have hpointed : ∀ f : List Char, (pointed f).takeWhile Char.isDigit = [] := by
    intro f
    rw [pointed]
    split <;> rfl
  have hwhole := congrArg (List.takeWhile Char.isDigit) heq
  rw [List.takeWhile_append_of_pos h.whole_digits, List.takeWhile_append_of_pos h'.whole_digits,
    hpointed, hpointed, List.append_nil, List.append_nil] at hwhole
  subst hwhole
  rw [← tail_pointed f, ← tail_pointed f', List.append_cancel_left heq]
  exact ⟨rfl, rfl⟩

/-- A positive number does not begin with a zero. -/
theorem head?_toDigits {n : Nat} (h : 0 < n) : (Nat.toDigits 10 n).head? ≠ some '0' := by
  induction n using Nat.strong_induction_on with
  | h n ih =>
    obtain hlt | hle := Nat.lt_or_ge n 10
    · have hdigits : ∀ n < 10, 0 < n → some n.digitChar ≠ some '0' := by decide
      rw [Nat.toDigits_of_lt_base hlt]
      exact hdigits n hlt h
    · rw [Nat.toDigits_of_base_le (by decide) hle,
        List.head?_append_of_ne_nil _ Nat.toDigits_ne_nil]
      exact ih (n / 10) (by omega) (by omega)

/-- The digits of a decimal fraction have no needless zeros. -/
theorem positional (d : Decimal) : Positional d.wholeDigits d.fractionDigits where
  whole_ne_nil := d.wholeDigits_ne_nil
  whole_digits := fun _ => isDigit_of_mem_wholeDigits
  fraction_digits := fun _ => isDigit_of_mem_fractionDigits
  first := by
    rw [wholeDigits]
    obtain hzero | hpos := Nat.eq_zero_or_pos (d.digits / d.one)
    · rw [hzero]
      exact .inl rfl
    · exact .inr (head?_toDigits hpos)
  last := by
    intro hlast
    have hnot := List.head?_dropWhile_not (· == '0') d.placeDigits.reverse
    rw [fractionDigits, List.getLast?_reverse] at hlast
    rw [hlast] at hnot
    cases hnot

/-- The characters of a fraction are its whole digits, and a point with the others if there are any.
-/
theorem chars_eq (d : Decimal) : d.chars = d.wholeDigits ++ pointed d.fractionDigits := by
  rw [chars, pointed]
  split
  · next hnil => rw [hnil, if_pos rfl, List.append_nil]
  · next hne => rw [if_neg hne]

/-- The text of a decimal fraction has the value of the fraction. -/
theorem value_written (d : Decimal) : d.written.value = d.value := by
  obtain hzero | hpos := Nat.eq_zero_or_pos d.places
  · rw [written, fractionDigits_of_places_eq_zero hzero, ofDigits_of_places_eq_zero hzero]
  · calc d.written.value = (ofDigits d.wholeDigits d.placeDigits).value := by
          rw [placeDigits_eq, value_ofDigits_append_zeros, written]
      _ = d.value := by rw [ofDigits_placeDigits hpos]

end Decimal

open Binary64

variable {x : Float}

/-- No decimal with fewer significant digits is rounded to a number, and none with as many that is
rounded to it is closer. -/
def IsShortest (q : ℚ) (x : Float) : Prop :=
  ∃ n, Decimal.HasDigits n q ∧ (∀ k < n, ∀ p, Decimal.HasDigits k p → ¬ RoundsTo p x) ∧
    ∀ p, Decimal.HasDigits n p → RoundsTo p x → |q - value x| ≤ |p - value x|

/-- A finite number has the value of the exact decimal of its magnitude, with its sign. -/
theorem value_eq_exactDecimal (h : x.isFinite = true) :
    value x = signed (isNegative x) (exactDecimal (magnitudeCode x)).value := by
  rw [value_eq h, ← value_exactDecimal, mul_div_cancel_right₀ _ unit_pos.ne']

/-- The shortest decimal fraction with the sign of the number is rounded to the number. -/
theorem roundsTo_shortest (h : x.isFinite = true) :
    RoundsTo (signed (isNegative x) (shortest (magnitudeCode x)).value) x := by
  have hcode := isFinite_iff.1 h
  have hnearest := nearestCode_shortest hcode
  refine .of_nearest h (Decimal.value_nonneg _) ?_ ((Decimal.nearestCode_eq_iff hcode).1 hnearest)
  rwa [← Decimal.nearestCode_lt_infinityCode_iff, hnearest]

/-- The decimal of a finite number that is not zero is the shortest one. -/
theorem isShortest_shortest (h : x.isFinite = true) (hx : value x ≠ 0) :
    IsShortest (signed (isNegative x) (shortest (magnitudeCode x)).value) x := by
  have hpos : 0 < magnitudeCode x := Nat.pos_iff_ne_zero.2 (mt (value_eq_zero_iff h).2 hx)
  obtain ⟨n, hdigits, hfewer, hclosest⟩ := shortest_spec hpos (isFinite_iff.1 h)
  refine ⟨n, hdigits.signed _, ?_, ?_⟩
  · intro k hk p hp hrounds
    exact hfewer k hk _ (hp.signed _) hrounds.nearest_magnitudeCode
  · intro p hp hrounds
    have hclose := hclosest _ (hp.signed _) hrounds.nearest_magnitudeCode
    rwa [value_eq_exactDecimal h, abs_sub_signed, abs_sub_signed, signed_signed]

/-- The text of a finite value has a minus sign just if the sign bit is set, digits, and if needed a
point and more digits, without needless zeros. It is rounded to the value again. If the value is not
zero, no decimal with fewer significant digits is rounded to it, and none with as many digits that
is rounded to it is closer. -/
theorem valueText_shortest (h : x.isFinite = true) :
    ∃ whole fraction, (valueText x).toList = (if isNegative x then ['-'] else []) ++
        (whole ++ Decimal.pointed fraction) ∧
      Decimal.Positional whole fraction ∧
      (value x = 0 → whole = ['0'] ∧ fraction = []) ∧
      let q := signed (isNegative x) (Decimal.ofDigits whole fraction).value
      RoundsTo q x ∧ (value x ≠ 0 → IsShortest q x) := by
  refine ⟨_, _, ?_, (shortest (magnitudeCode x)).positional, ?_, ?_⟩
  · rw [valueText_of_isFinite h, Decimal.chars_eq]
  · intro hx
    have hzero : shortest 0 = ⟨0, 1074⟩ := by decide +kernel
    rw [(value_eq_zero_iff h).1 hx, hzero]
    decide +kernel
  · rw [← Decimal.written, Decimal.value_written]
    exact ⟨roundsTo_shortest h, isShortest_shortest h⟩

/-- The number next to three tenths takes seventeen digits. -/
theorem valueText_next_to_three_tenths :
    let x : Float := -0.30000000000000004
    let q : ℚ := -30000000000000004 / 10 ^ 17
    valueText x = "-0.30000000000000004" ∧ RoundsTo q x ∧ IsShortest q x := by
  intro x q
  have hfinite : x.isFinite = true := by decide +kernel
  have htext : valueText x = "-0.30000000000000004" := by decide +kernel
  have hsign : isNegative x = true := by decide +kernel
  have hvalue : value x ≠ 0 := by
    rw [ne_eq, value_eq_zero_iff hfinite]
    decide +kernel
  obtain ⟨whole, fraction, hchars, hpositional, -, hrounds, hshortest⟩ := valueText_shortest hfinite
  have hdigits : Decimal.Positional ['0'] "30000000000000004".toList :=
    ⟨by decide, List.all_eq_true.1 rfl, List.all_eq_true.1 rfl, .inl rfl, by decide +kernel⟩
  rw [htext, hsign] at hchars
  obtain ⟨rfl, rfl⟩ := hdigits.eq_of_append_eq hpositional (List.cons.inj hchars).2
  have hq : signed (isNegative x)
      (Decimal.ofDigits ['0'] "30000000000000004".toList).value = q := by
    rw [hsign, Decimal.value_ofDigits, show Nat.ofDigitChars 10 ['0'] 0 = 0 from rfl,
      show Nat.ofDigitChars 10 "30000000000000004".toList 0 = 30000000000000004 from rfl,
      show "30000000000000004".toList.length = 17 from rfl]
    norm_num [signed, q]
  rw [hq] at hrounds hshortest
  exact ⟨htext, hrounds, hshortest hvalue⟩

end FormulaSheet
