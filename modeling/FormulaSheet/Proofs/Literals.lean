import FormulaSheet.Proofs.FloatValue
import FormulaSheet.Proofs.ValueText

/-!
# The values of literals

A literal is read as the number nearest to its value (`literal_correctly_rounded`). What it is read
as depends on its value only, so zeros in front and behind, and a point behind, can be left out.
-/

namespace FormulaSheet

variable {w f : List Char} {d d' : Decimal}

namespace Decimal

open Binary64

/-! ## The value of digits -/

/-- Zeros in front do not change a fraction. -/
theorem ofDigits_zeros_append (zeros : Nat) (w f : List Char) :
    ofDigits (List.replicate zeros '0' ++ w) f = ofDigits w f := by
  rw [ofDigits, List.append_assoc, Nat.ofDigitChars_append, Nat.ofDigitChars_replicate_zero,
    Nat.mul_zero, ofDigits]

/-- The digits behind the point count as many tenths of tenths as there are of them. -/
theorem value_ofDigits (w f : List Char) : (ofDigits w f).value =
    Nat.ofDigitChars 10 w 0 + Nat.ofDigitChars 10 f 0 / 10 ^ f.length := by
  have hpos : (0 : ℚ) < 10 ^ f.length := by positivity
  rw [value, ofDigits, Nat.ofDigitChars_append, Nat.ofDigitChars_eq_ofDigitChars_zero, Nat.cast_add,
    Nat.cast_mul, Nat.cast_pow, Nat.cast_ofNat, add_div, mul_div_cancel_left₀ _ hpos.ne']

/-- Zeros at the end do not change the value. -/
theorem value_ofDigits_append_zeros (w f : List Char) (zeros : Nat) :
    (ofDigits w (f ++ List.replicate zeros '0')).value = (ofDigits w f).value := by
  have hpos : (0 : ℚ) < 10 ^ zeros := by positivity
  rw [value_ofDigits, value_ofDigits, Nat.ofDigitChars_append, Nat.ofDigitChars_replicate_zero,
    List.length_append, List.length_replicate, pow_add, Nat.cast_mul, Nat.cast_pow, Nat.cast_ofNat,
    mul_comm (10 ^ f.length), mul_div_mul_left _ _ hpos.ne']

/-! ## The number of a value -/

/-- Fractions of one value become one number. -/
theorem toFloat_eq_of_value_eq (h : d.value = d'.value) : d.toFloat = d'.toFloat :=
  congrArg ofCode ((nearestCode_le_nearestCode h.le).antisymm (nearestCode_le_nearestCode h.ge))

/-- Rounding keeps the order of fractions. -/
theorem toFloat_le_toFloat (h : d.value ≤ d'.value) : d.toFloat ≤ d'.toFloat :=
  ofCode_le_ofCode (nearestCode_le_nearestCode h) d'.nearestCode_le

/-- A fraction becomes infinite from the middle behind the greatest finite number on. -/
theorem isInf_toFloat_iff : d.toFloat.isInf = true ↔ 2 ^ 1024 - 2 ^ 970 ≤ d.value := by
  rw [isInf_iff, magnitudeCode_toFloat, nearestCode_eq_infinityCode_iff]

/-- A fraction becomes zero up to half of the least number. -/
theorem toFloat_eq_zero_iff : d.toFloat = 0 ↔ d.value ≤ 1 / 2 ^ 1075 := by
  rw [← nearestCode_eq_zero_iff]
  refine ⟨fun h => ?_, fun h => congrArg ofCode h⟩
  rw [← magnitudeCode_toFloat, h]
  rfl

end Decimal

/-! ## Spellings -/

/-- A text that spells a number is parsed as that number. -/
theorem parse_number (h : (Token.number d).Spells w) :
    parse (String.ofList w) = .ok (.number d.toFloat) :=
  parse_ofSign false h id .number

/-- Zeros are digits. -/
theorem isDigit_of_mem_zeros {zeros : Nat} {c : Char} (h : c ∈ List.replicate zeros '0') :
    c.isDigit = true :=
  List.eq_of_mem_replicate h ▸ rfl

/-- Zeros in front do not change what a literal spells. -/
theorem Token.Spells.zeros_append (h : (Token.number d).Spells w) (zeros : Nat) :
    (Token.number d).Spells (List.replicate zeros '0' ++ w) := by
  have hdigits : ∀ {w : List Char}, (∀ c ∈ w, c.isDigit) →
      ∀ c ∈ List.replicate zeros '0' ++ w, c.isDigit := by
    intro w hw c hc
    exact (List.mem_append.1 hc).elim isDigit_of_mem_zeros (hw c)
  cases h with
  | whole hne hw =>
    rw [← Decimal.ofDigits_zeros_append zeros]
    exact .whole (by simp [hne]) (hdigits hw)
  | pointed hne hw hf =>
    rw [← Decimal.ofDigits_zeros_append zeros, ← List.append_assoc]
    exact .pointed (by simp [hne]) (hdigits hw) hf
  | @fraction f hne hf =>
    cases zeros with
    | zero => exact .fraction hne hf
    | succ zeros =>
      rw [← Decimal.ofDigits_zeros_append (zeros + 1), List.append_nil]
      exact .pointed (by simp) (fun c => isDigit_of_mem_zeros) hf

/-- Digits before and after a point, on at least one side, are a literal. -/
theorem Token.Spells.ofDigits (hne : w ≠ [] ∨ f ≠ []) (hw : ∀ c ∈ w, c.isDigit)
    (hf : ∀ c ∈ f, c.isDigit) : (Token.number (.ofDigits w f)).Spells (w ++ '.' :: f) := by
  cases w with
  | nil => exact .fraction (hne.resolve_left (absurd rfl)) hf
  | cons c w => exact .pointed (List.cons_ne_nil c w) hw hf

/-- Zeros in front of a number change nothing. -/
theorem parse_zeros_append (h : (Token.number d).Spells w) (zeros : Nat) :
    parse (String.ofList (List.replicate zeros '0' ++ w)) = parse (String.ofList w) := by
  rw [parse_number (h.zeros_append zeros), parse_number h]

/-- Zeros behind the point change nothing. -/
theorem parse_append_zeros (hne : w ≠ [] ∨ f ≠ []) (hw : ∀ c ∈ w, c.isDigit)
    (hf : ∀ c ∈ f, c.isDigit) (zeros : Nat) :
    parse (String.ofList (w ++ '.' :: (f ++ List.replicate zeros '0'))) =
      parse (String.ofList (w ++ '.' :: f)) := by
  have hzeros : ∀ c ∈ f ++ List.replicate zeros '0', c.isDigit := fun c hc =>
    (List.mem_append.1 hc).elim (hf c) isDigit_of_mem_zeros
  have hne' : w ≠ [] ∨ f ++ List.replicate zeros '0' ≠ [] := hne.imp_right fun h => by simp [h]
  rw [parse_number (.ofDigits hne' hw hzeros), parse_number (.ofDigits hne hw hf),
    Decimal.toFloat_eq_of_value_eq (Decimal.value_ofDigits_append_zeros w f zeros)]

/-- A point at the end of a number changes nothing. -/
theorem parse_append_point (hne : w ≠ []) (hw : ∀ c ∈ w, c.isDigit) :
    parse (String.ofList (w ++ ['.'])) = parse (String.ofList w) := by
  rw [parse_number (.pointed hne hw (by simp)), parse_number (.whole hne hw)]

/-! ## Literals -/

/-- Every literal is read as a number that is not negative, and as the one that is the nearest to
its value. It is infinite just from the middle behind the greatest finite number on, and zero just
up to the half of the least positive one. The value is that of the digits on both sides of the
point; zeros in front, zeros behind and a point behind do not change what is read. Literals of equal
values are read as equal numbers, and no literal of a greater value as a smaller number. -/
theorem literal_correctly_rounded :
    (∀ (w : List Char) (d : Decimal), (Token.number d).Spells w →
      parse (String.ofList w) = .ok (.number d.toFloat) ∧
      Binary64.isNegative d.toFloat = false ∧
      (d.value < 2 ^ 1024 - 2 ^ 970 → Binary64.RoundsTo d.value d.toFloat ∧
        ∀ x, Binary64.RoundsTo d.value x → Binary64.isNegative x = false → x = d.toFloat) ∧
      (d.toFloat.isInf = true ↔ 2 ^ 1024 - 2 ^ 970 ≤ d.value) ∧
      (d.toFloat = 0 ↔ d.value ≤ 1 / 2 ^ 1075) ∧
      ∀ zeros, parse (String.ofList (List.replicate zeros '0' ++ w)) = parse (String.ofList w)) ∧
    (∀ w f : List Char, (Decimal.ofDigits w f).value =
      Nat.ofDigitChars 10 w 0 + Nat.ofDigitChars 10 f 0 / 10 ^ f.length) ∧
    (∀ w f : List Char, w ≠ [] ∨ f ≠ [] → (∀ c ∈ w, c.isDigit) → (∀ c ∈ f, c.isDigit) → ∀ zeros,
      parse (String.ofList (w ++ '.' :: (f ++ List.replicate zeros '0'))) =
        parse (String.ofList (w ++ '.' :: f))) ∧
    (∀ w : List Char, w ≠ [] → (∀ c ∈ w, c.isDigit) →
      parse (String.ofList (w ++ ['.'])) = parse (String.ofList w)) ∧
    ∀ d d' : Decimal, (d.value = d'.value → d.toFloat = d'.toFloat) ∧
      (d.value ≤ d'.value → d.toFloat ≤ d'.toFloat) := by
  refine ⟨?number, Decimal.value_ofDigits, fun w f => parse_append_zeros,
    fun w => parse_append_point,
    fun d d' => ⟨Decimal.toFloat_eq_of_value_eq, Decimal.toFloat_le_toFloat⟩⟩
  case number =>
    intro w d h
    have honly : ∀ x, d.value < 2 ^ 1024 - 2 ^ 970 → Binary64.RoundsTo d.value x →
        Binary64.isNegative x = false → x = d.toFloat := by
      intro x hbound hx hsign
      exact hx.unique (Decimal.roundsTo_toFloat hbound) (hsign.trans d.isNegative_toFloat.symm)
    exact ⟨parse_number h, d.isNegative_toFloat,
      fun hbound => ⟨Decimal.roundsTo_toFloat hbound, fun x => honly x hbound⟩,
      Decimal.isInf_toFloat_iff, Decimal.toFloat_eq_zero_iff, parse_zeros_append h⟩

/-- In the middle between two numbers the one with the even significand is taken, and a digit far
behind the point decides for the other. -/
theorem literal_between_two_numbers :
    parse "9007199254740993" = .ok (.number 9007199254740992) ∧
    Binary64.RoundsTo 9007199254740993 9007199254740992 ∧
    parse "9007199254740993.00000000000000000001" = .ok (.number 9007199254740994) ∧
    parse "0009007199254740993" = parse "9007199254740993" ∧
    parse "9007199254740993.000" = parse "9007199254740993." ∧
    parse "9007199254740993." = parse "9007199254740993" := by
  obtain ⟨hnumber, hvalue, hzeros, hpoint, -⟩ := literal_correctly_rounded
  have hdigits : ∀ c ∈ "9007199254740993".toList, c.isDigit := List.all_eq_true.1 rfl
  obtain ⟨hparse, -, hrounds, -, -, hfront⟩ := hnumber _ _ (.whole (by decide) hdigits)
  have hfar := (hnumber _ _ (.pointed (by decide) hdigits
    (List.all_eq_true.1 (show "00000000000000000001".toList.all Char.isDigit = true from rfl)))).1
  have hfloat : (Decimal.ofDigits "9007199254740993".toList []).toFloat = 9007199254740992 := by
    decide +kernel
  have habove : (Decimal.ofDigits "9007199254740993".toList
      "00000000000000000001".toList).toFloat = 9007199254740994 := by
    decide +kernel
  have hliteral : (Decimal.ofDigits "9007199254740993".toList []).value = 9007199254740993 := by
    rw [hvalue, show Nat.ofDigitChars 10 "9007199254740993".toList 0 = 9007199254740993 from rfl]
    norm_num
  have hbound : (9007199254740993 : ℚ) < 2 ^ 1024 - 2 ^ 970 := by
    have hone : (1 : ℚ) ≤ 2 ^ 970 := one_le_pow₀ one_le_two
    rw [show 1024 = 54 + 970 from rfl, pow_add]
    generalize (2 : ℚ) ^ 970 = border at *
    linarith
  rw [hfloat] at hparse hrounds
  rw [habove] at hfar
  rw [hliteral] at hrounds
  exact ⟨hparse, (hrounds hbound).1, hfar, hfront 3,
    hzeros _ [] (.inl (by decide)) hdigits (by simp) 3, hpoint _ (by decide) hdigits⟩

end FormulaSheet
