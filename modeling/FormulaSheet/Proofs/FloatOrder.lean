import FormulaSheet.Proofs.FloatValue

/-!
# The order of numbers

`rank` places the numbers in one linear order, in which the two zeros have one place and the
infinities the first and the last. Between any two numbers that are not NaN the comparisons agree
with their ranks (`Binary64.lt_iff_rank`, `Binary64.le_iff_rank`), and numbers of one rank are the
same but for the sign of a zero (`Binary64.eq_of_rank_eq`).
-/

namespace FormulaSheet

namespace Binary64

open Float.Model Float.Model.UnpackedFloat

variable {x y : Float} {u v : UnpackedFloat} {sign : Sign}

/-! ## Ranks -/

/-- The place of a number in the order: first the sign, where infinity counts twice, then the
exponent, then the mantissa. What is not a number has no place of its own. -/
def unpackedRank : UnpackedFloat → ℤ ×ₗ ℤ ×ₗ ℤ
  | .infinity sign => toLex (sign.apply 2, toLex (0, 0))
  | .notANumber => toLex (0, toLex (0, 0))
  | .zero _ => toLex (0, toLex (0, 0))
  | .finite sign mantissa exponent _ =>
    toLex (sign.apply 1, toLex (sign.apply exponent, sign.apply mantissa))

/-- The place of a number in the order. -/
def rank (x : Float) : ℤ ×ₗ ℤ ×ₗ ℤ := unpackedRank x.toModel.unpack

/-- Ranks compare part by part. -/
theorem compare_toLex (a b c a' b' c' : ℤ) :
    compare (toLex (a, toLex (b, c)) : ℤ ×ₗ ℤ ×ₗ ℤ) (toLex (a', toLex (b', c'))) =
      (compare a a').then ((compare b b').then (compare c c')) := by
  rw [Prod.Lex.compare_def]
  rfl

/-- Natural numbers compare as integers do. -/
theorem compare_cast (m m' : ℕ) : compare (m : ℤ) (m' : ℤ) = compare m m' := by
  rw [← cmp_eq_compare, ← cmp_eq_compare, Nat.strictMono_cast.cmp_map_eq]

/-- Negation turns a comparison around. -/
theorem compare_neg (a b : ℤ) : compare (-a) (-b) = (compare a b).swap := by
  have hanti : StrictAnti fun c : ℤ => -c := fun _ _ => neg_lt_neg
  rw [Int.compare_swap, ← cmp_eq_compare, ← cmp_eq_compare]
  exact hanti.cmp_map_eq a b

/-- Numbers compare as their ranks. -/
theorem compare_eq_rank (hu : u.isNaN = false) (hv : v.isNaN = false) :
    u.compare v = some (compare (unpackedRank u) (unpackedRank v)) := by
  cases u with
  | notANumber => cases hu
  | zero s =>
    cases v with
    | notANumber => cases hv
    | zero t => rfl
    | infinity t | finite t => cases t <;> rfl
  | infinity s =>
    cases v with
    | notANumber => cases hv
    | zero t => cases s <;> rfl
    | infinity t | finite t => cases s <;> cases t <;> rfl
  | finite s m e hm =>
    cases v with
    | notANumber => cases hv
    | zero t => cases s <;> rfl
    | infinity t => cases s <;> cases t <;> rfl
    | finite t m' e' hm' =>
      cases s with
      | positive =>
        cases t with
        | negative => rfl
        | positive =>
          refine congrArg some ?_
          rw [unpackedRank, unpackedRank, compare_toLex, ← compare_cast]
          rfl
      | negative =>
        cases t with
        | positive => rfl
        | negative =>
          refine congrArg some ?_
          rw [unpackedRank, unpackedRank, compare_toLex, ← compare_cast, Ordering.swap_then,
            ← compare_neg, ← compare_neg]
          rfl

/-! ## Comparisons -/

section
variable (hx : x.isNaN = false) (hy : y.isNaN = false)
include hx hy

/-- Numbers compare as their ranks, unpacked. -/
theorem compare_unpack : x.toModel.unpack.compare y.toModel.unpack =
    some (compare (rank x) (rank y)) :=
  compare_eq_rank hx hy

/-- A number is less than another if its rank is. -/
theorem lt_iff_rank : x < y ↔ rank x < rank y := by
  have hlt : x < y ↔ (x.toModel.unpack.compare y.toModel.unpack == some .lt) = true :=
    decide_eq_true_iff
  rw [hlt, compare_unpack hx hy, beq_iff_eq, Option.some.injEq, compare_lt_iff_lt]

/-- A number is at most another if its rank is. -/
theorem le_iff_rank : x ≤ y ↔ rank x ≤ rank y := by
  rw [le_iff_compare, compare_unpack hx hy, Option.any_some, Ordering.isLE_iff_ne_gt]
  exact compare_le_iff_le

end

/-! ## Equal numbers -/

/-- Numbers that unpack to the same are the same. -/
theorem eq_of_unpack_eq (h : x.toModel.unpack = y.toModel.unpack) : x = y := by
  have hpack : ∀ z : Float, (⟨Float.Model.pack z.toModel.unpack⟩ : Float) = z := Float.ofBits_toBits
  rw [← hpack x, h, hpack]

/-- What equals zero unpacks to zero. -/
theorem beq_zero_iff_unpack : (x == 0) = true ↔ ∃ sign, x.toModel.unpack = .zero sign := by
  have hbeq : (x == 0) = (x.toModel.unpack.compare (.zero .positive) == some .eq) := rfl
  rw [hbeq]
  constructor
  · intro h
    generalize x.toModel.unpack = u at h ⊢
    cases u with
    | zero s => exact ⟨s, rfl⟩
    | notANumber => cases h
    | infinity s | finite s => cases s <;> cases h
  · rintro ⟨s, hs⟩
    rw [hs]
    rfl

/-- Equal to zero are the zero of either sign and nothing else. -/
theorem beq_zero_iff : (x == 0) = true ↔ x = 0 ∨ x = -0 := by
  rw [beq_zero_iff_unpack]
  constructor
  · rintro ⟨s, hs⟩
    cases s with
    | positive => exact .inl (eq_of_unpack_eq (hs.trans rfl))
    | negative => exact .inr (eq_of_unpack_eq (hs.trans rfl))
  · rintro (rfl | rfl)
    · exact ⟨.positive, rfl⟩
    · exact ⟨.negative, rfl⟩

/-- A rank tells the kind, the sign and the fields of a number, and not the sign of a zero. -/
theorem eq_of_unpackedRank_eq (hu : u.isNaN = false) (hv : v.isNaN = false)
    (h : unpackedRank u = unpackedRank v) :
    u = v ∨ (∃ sign, u = .zero sign) ∧ ∃ sign, v = .zero sign := by
  cases u with
  | notANumber => cases hu
  | zero s =>
    cases v with
    | notANumber => cases hv
    | zero t => exact .inr ⟨⟨s, rfl⟩, t, rfl⟩
    | infinity t | finite t => cases t <;> simp [unpackedRank, Sign.apply] at h
  | infinity s =>
    cases v with
    | notANumber => cases hv
    | zero t => cases s <;> simp [unpackedRank, Sign.apply] at h
    | infinity t => cases s <;> cases t <;> simp [unpackedRank, Sign.apply] at h ⊢
    | finite t => cases s <;> cases t <;> simp [unpackedRank, Sign.apply] at h
  | finite s m e =>
    cases v with
    | notANumber => cases hv
    | zero t => cases s <;> simp [unpackedRank, Sign.apply] at h
    | infinity t => cases s <;> cases t <;> simp [unpackedRank, Sign.apply] at h
    | finite t m' e' => cases s <;> cases t <;> simp [unpackedRank, Sign.apply] at h ⊢ <;> omega

/-- Numbers of one rank are the same but for the sign of a zero. -/
theorem eq_of_rank_eq (hx : x.isNaN = false) (hy : y.isNaN = false) (h : rank x = rank y) :
    x = y ∨ (x == 0) = true ∧ (y == 0) = true := by
  rw [beq_zero_iff_unpack, beq_zero_iff_unpack]
  exact (eq_of_unpackedRank_eq hx hy h).imp_left eq_of_unpack_eq

end Binary64

end FormulaSheet
