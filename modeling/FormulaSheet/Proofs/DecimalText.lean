import FormulaSheet.Proofs.Rounding
import FormulaSheet.Proofs.Sentences

/-!
# The text of a decimal fraction

The positional text of a decimal fraction is a number of the formula language
(`Decimal.spells_chars`). It leaves out the zeros at the end, so it spells a fraction that can
differ from the given one, but in nothing that the nearest magnitude depends on
(`Decimal.nearestCode_written`).
-/

namespace FormulaSheet

namespace Decimal

/-- The fraction as its positional text gives it, without zeros at the end. -/
def written (d : Decimal) : Decimal := ofDigits d.wholeDigits d.fractionDigits

variable {d : Decimal} {c : Char}

/-! ## Digits -/

/-- The digits before the point are digits. -/
theorem isDigit_of_mem_wholeDigits (h : c ∈ d.wholeDigits) : c.isDigit = true :=
  Nat.isDigit_of_mem_toDigits (by decide) (by decide) h

/-- The digits of the places are digits. -/
theorem isDigit_of_mem_placeDigits (h : c ∈ d.placeDigits) : c.isDigit = true := by
  obtain hzero | hdigit := List.mem_append.1 h
  · rw [List.eq_of_mem_replicate hzero]
    rfl
  · exact Nat.isDigit_of_mem_toDigits (by decide) (by decide) hdigit

/-- There is a digit before the point. -/
theorem wholeDigits_ne_nil (d : Decimal) : d.wholeDigits ≠ [] := Nat.toDigits_ne_nil

/-- What is taken as long as it is zero is zero. -/
theorem eq_zero_of_mem_takeWhile {cs : List Char} (h : c ∈ cs.takeWhile (· == '0')) : c = '0' :=
  beq_iff_eq.1 (List.all_eq_true.1 List.all_takeWhile c h)

/-- The fraction's digits are all but the zeros that come first when they are read backwards. -/
theorem placeDigits_eq (d : Decimal) : d.placeDigits = d.fractionDigits ++
    List.replicate (d.placeDigits.reverse.takeWhile (· == '0')).length '0' := by
  have hzeros := List.eq_replicate_of_mem (l := d.placeDigits.reverse.takeWhile (· == '0'))
    fun _ => eq_zero_of_mem_takeWhile
  calc d.placeDigits
      = (d.placeDigits.reverse.takeWhile (· == '0') ++
          d.placeDigits.reverse.dropWhile (· == '0')).reverse := by
        rw [List.takeWhile_append_dropWhile, List.reverse_reverse]
    _ = d.fractionDigits ++ (d.placeDigits.reverse.takeWhile (· == '0')).reverse := by
        rw [List.reverse_append, fractionDigits]
    _ = _ := by rw [hzeros, List.reverse_replicate, List.length_replicate]

/-- The digits behind the point are digits. -/
theorem isDigit_of_mem_fractionDigits (h : c ∈ d.fractionDigits) : c.isDigit = true := by
  have hmem : c ∈ d.placeDigits := by
    rw [placeDigits_eq]
    exact List.mem_append_left _ h
  exact isDigit_of_mem_placeDigits hmem

/-- The text of a decimal fraction spells a number. -/
theorem spells_chars (d : Decimal) : (Token.number d.written).Spells d.chars := by
  rw [written, chars]
  split
  · next hnil =>
    rw [hnil]
    exact .whole d.wholeDigits_ne_nil fun _ => isDigit_of_mem_wholeDigits
  · exact .pointed d.wholeDigits_ne_nil (fun _ => isDigit_of_mem_wholeDigits)
      (fun _ => isDigit_of_mem_fractionDigits)

/-! ## Values -/

/-- The digits of the places stand for the fraction without its whole part. -/
theorem ofDigitChars_placeDigits (d : Decimal) :
    Nat.ofDigitChars 10 d.placeDigits 0 = d.digits % d.one := by
  rw [placeDigits, Nat.ofDigitChars_append, Nat.ofDigitChars_replicate_zero, Nat.mul_zero,
    Nat.ofDigitChars_ten_toDigits]

/-- There is a digit for each place. -/
theorem length_placeDigits (h : 0 < d.places) : d.placeDigits.length = d.places := by
  have hlt : d.digits % d.one < 10 ^ d.places := Nat.mod_lt _ d.one_pos
  have hle := (Nat.length_toDigits_le_iff (by decide) h).2 hlt
  rw [placeDigits, List.length_append, List.length_replicate]
  omega

/-- The digits of all places make the fraction up again. -/
theorem ofDigits_placeDigits (h : 0 < d.places) : ofDigits d.wholeDigits d.placeDigits = d := by
  have hdigits : Nat.ofDigitChars 10 (d.wholeDigits ++ d.placeDigits) 0 = d.digits := by
    rw [Nat.ofDigitChars_append, Nat.ofDigitChars_eq_ofDigitChars_zero, ofDigitChars_placeDigits,
      length_placeDigits h, wholeDigits, Nat.ofDigitChars_ten_toDigits]
    exact Nat.div_add_mod d.digits d.one
  rw [ofDigits, hdigits, length_placeDigits h]

/-- A fraction without places counts in ones. -/
theorem one_of_places_eq_zero (h : d.places = 0) : d.one = 1 := by
  rw [one, h]

/-- The digits before the point make up a fraction without places again. -/
theorem ofDigits_of_places_eq_zero (h : d.places = 0) : ofDigits d.wholeDigits [] = d := by
  rw [ofDigits, List.append_nil, wholeDigits, one_of_places_eq_zero h, Nat.div_one,
    Nat.ofDigitChars_ten_toDigits, List.length_nil, ← h]

/-- A fraction without places has no digits behind the point. -/
theorem fractionDigits_of_places_eq_zero (h : d.places = 0) : d.fractionDigits = [] := by
  rw [fractionDigits, placeDigits, one_of_places_eq_zero h, h, Nat.mod_one]
  rfl

/-- Zeros at the end do not change the nearest magnitude. -/
theorem nearestCode_ofDigits_append (w f : List Char) (zeros : Nat) :
    (ofDigits w (f ++ List.replicate zeros '0')).nearestCode = (ofDigits w f).nearestCode := by
  refine @nearestCode_eq_of_zeros _ _ zeros ?_ ?_
  · rw [ofDigits, ofDigits, ← List.append_assoc, Nat.ofDigitChars_append,
      Nat.ofDigitChars_replicate_zero, Nat.mul_comm]
  · rw [ofDigits, ofDigits, List.length_append, List.length_replicate]

/-- The text of a decimal fraction has the nearest magnitude of the fraction. -/
theorem nearestCode_written (d : Decimal) : d.written.nearestCode = d.nearestCode := by
  obtain hzero | hpos := Nat.eq_zero_or_pos d.places
  · rw [written, fractionDigits_of_places_eq_zero hzero, ofDigits_of_places_eq_zero hzero]
  · calc d.written.nearestCode = (ofDigits d.wholeDigits d.placeDigits).nearestCode := by
          rw [placeDigits_eq, nearestCode_ofDigits_append, written]
      _ = d.nearestCode := by rw [ofDigits_placeDigits hpos]

end Decimal

end FormulaSheet
