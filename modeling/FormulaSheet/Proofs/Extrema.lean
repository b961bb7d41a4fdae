import FormulaSheet.Proofs.FloatOrder
import FormulaSheet.Proofs.NotANumber

/-!
# Nested calls

A tree of calls of one function comes to the greatest or the least of its leaves, however the calls
are nested, and to what is not a number as soon as one leaf is none (`CallTree.exists_eval`). Such
an extremum is given by the leaves but for the sign of a zero (`IsExtremum.unique`), so neither the
nesting nor the order of the leaves matters.
-/

namespace FormulaSheet

variable {function : Builtin} {x y z : Float} {values others : List Float}

/-! ## Two numbers -/

/-- A number is at least the other, for the greater of two, or at most the other, for the smaller.
-/
def Builtin.Dominates : Builtin → Float → Float → Prop
  | max, x, y => y ≤ x
  | min, x, y => x ≤ y

namespace Builtin

open Binary64

/-- A number dominates itself. -/
theorem dominates_refl (hx : x.isNaN = false) : function.Dominates x x := by
  cases function with
  | max | min => exact (le_iff_rank hx hx).2 le_rfl

/-- What dominates a number dominates all that it dominates. -/
theorem Dominates.trans (hx : x.isNaN = false) (hy : y.isNaN = false) (hz : z.isNaN = false)
    (hxy : function.Dominates x y) (hyz : function.Dominates y z) : function.Dominates x z := by
  cases function with
  | max =>
    exact (le_iff_rank hz hx).2 (((le_iff_rank hz hy).1 hyz).trans ((le_iff_rank hy hx).1 hxy))
  | min =>
    exact (le_iff_rank hx hz).2 (((le_iff_rank hx hy).1 hxy).trans ((le_iff_rank hy hz).1 hyz))

/-- Numbers that dominate each other are the same but for the sign of a zero. -/
theorem Dominates.antisymm (hx : x.isNaN = false) (hy : y.isNaN = false)
    (hxy : function.Dominates x y) (hyx : function.Dominates y x) :
    x = y ∨ (x == 0) = true ∧ (y == 0) = true := by
  refine eq_of_rank_eq hx hy ?_
  cases function with
  | max => exact le_antisymm ((le_iff_rank hx hy).1 hyx) ((le_iff_rank hy hx).1 hxy)
  | min => exact le_antisymm ((le_iff_rank hx hy).1 hxy) ((le_iff_rank hy hx).1 hyx)

/-- At two numbers a function gives one of them, which dominates both. -/
theorem apply_of_numbers (hx : x.isNaN = false) (hy : y.isNaN = false) :
    (function.apply x y = x ∨ function.apply x y = y) ∧
      function.Dominates (function.apply x y) x ∧ function.Dominates (function.apply x y) y := by
  have hnumbers : ¬ (x.isNaN || y.isNaN) = true := by
    rw [hx, hy]
    exact Bool.false_ne_true
  cases function with
  | max =>
    rw [apply, if_neg hnumbers]
    split
    · next hlt =>
      rw [lt_iff_rank hx hy] at hlt
      exact ⟨.inr rfl, (le_iff_rank hx hy).2 hlt.le, dominates_refl hy⟩
    · next hnot =>
      rw [lt_iff_rank hx hy, not_lt] at hnot
      exact ⟨.inl rfl, dominates_refl hx, (le_iff_rank hy hx).2 hnot⟩
  | min =>
    rw [apply, if_neg hnumbers]
    split
    · next hlt =>
      rw [lt_iff_rank hy hx] at hlt
      exact ⟨.inr rfl, (le_iff_rank hy hx).2 hlt.le, dominates_refl hy⟩
    · next hnot =>
      rw [lt_iff_rank hy hx, not_lt] at hnot
      exact ⟨.inl rfl, dominates_refl hx, (le_iff_rank hx hy).2 hnot⟩

/-- A function gives what is not a number exactly if one of its arguments is none. -/
theorem isNaN_apply (function : Builtin) (x y : Float) :
    (function.apply x y).isNaN = true ↔ x.isNaN = true ∨ y.isNaN = true := by
  constructor
  · intro h
    by_contra! hnumbers
    rw [ne_eq, Bool.not_eq_true, ne_eq, Bool.not_eq_true] at hnumbers
    obtain ⟨hx, hy⟩ := hnumbers
    obtain ⟨heq | heq, -⟩ := @apply_of_numbers function _ _ hx hy
    · rw [heq, hx] at h
      cases h
    · rw [heq, hy] at h
      cases h
  · intro h
    rw [isNaN_iff, isNaN_iff] at h
    rw [function.apply_notANumber h]
    rfl

end Builtin

/-! ## Any number of values -/

/-- A value is the extremum of others: it is not a number exactly if one of them is none, and else
it is one of them and dominates all. -/
structure IsExtremum (function : Builtin) (values : List Float) (x : Float) : Prop where
  isNaN : x.isNaN = true ↔ ∃ y ∈ values, y.isNaN = true
  mem : x.isNaN = false → x ∈ values
  dominates : x.isNaN = false → ∀ y ∈ values, function.Dominates x y

namespace IsExtremum

/-- The one number of a list is its extremum. -/
theorem singleton (function : Builtin) (x : Float) : IsExtremum function [x] x where
  isNaN := by simp
  mem _ := List.mem_cons_self
  dominates hx := List.forall_mem_singleton.2 (Builtin.dominates_refl hx)

/-- If an extremum is a number, so are all values. -/
theorem isNaN_of_mem (h : IsExtremum function values x) (hx : x.isNaN = false) (hy : y ∈ values) :
    y.isNaN = false := by
  refine Bool.eq_false_iff.2 ?_
  intro hnan
  rw [h.isNaN.2 ⟨y, hy, hnan⟩] at hx
  cases hx

/-- The function at the extrema of two lists of values gives the extremum of all. -/
theorem apply (hx : IsExtremum function values x) (hy : IsExtremum function others y) :
    IsExtremum function (values ++ others) (function.apply x y) := by
  have hparts : (function.apply x y).isNaN = false → x.isNaN = false ∧ y.isNaN = false := by
    intro h
    rwa [← Bool.not_eq_true, function.isNaN_apply, not_or, Bool.not_eq_true, Bool.not_eq_true] at h
  refine ⟨?isNaN, fun h => ?mem, fun h z hz => ?dominates⟩
  case isNaN =>
    rw [function.isNaN_apply, hx.isNaN, hy.isNaN]
    simp only [List.mem_append, or_and_right, exists_or]
  case mem =>
    obtain ⟨hxn, hyn⟩ := hparts h
    rw [List.mem_append]
    obtain ⟨heq | heq, -⟩ := Builtin.apply_of_numbers hxn hyn
    · rw [heq]
      exact .inl (hx.mem hxn)
    · rw [heq]
      exact .inr (hy.mem hyn)
  case dominates =>
    obtain ⟨hxn, hyn⟩ := hparts h
    obtain ⟨-, hfirst, hsecond⟩ := Builtin.apply_of_numbers hxn hyn
    obtain hz | hz := List.mem_append.1 hz
    · exact hfirst.trans h hxn (hx.isNaN_of_mem hxn hz) (hx.dominates hxn z hz)
    · exact hsecond.trans h hyn (hy.isNaN_of_mem hyn hz) (hy.dominates hyn z hz)

/-- The extremum is given by the values, but for the sign of a zero. -/
theorem unique (hx : IsExtremum function values x) (hy : IsExtremum function others y)
    (h : ∀ z, z ∈ values ↔ z ∈ others) : x = y ∨ (x == 0) = true ∧ (y == 0) = true := by
  have hnan : x.isNaN = true ↔ y.isNaN = true := by
    rw [hx.isNaN, hy.isNaN]
    simp only [h]
  cases hxn : x.isNaN with
  | true =>
    refine .inl ?_
    rw [isNaN_iff.1 hxn, isNaN_iff.1 (hnan.1 hxn)]
  | false =>
    have hyn : y.isNaN = false := by rwa [← Bool.not_eq_true, ← hnan, Bool.not_eq_true]
    exact (hx.dominates hxn y ((h y).2 (hy.mem hyn))).antisymm hxn hyn
      (hy.dominates hyn x ((h x).1 (hx.mem hxn)))

end IsExtremum

/-! ## Trees of calls -/

/-- A tree of calls with two arguments, over leaves. -/
inductive CallTree where
  | leaf (e : Expr)
  | call (first second : CallTree)

namespace CallTree

variable {tolerance : Float} {lookup : String → Except Fault Float} {tree other : CallTree}
  {value : Expr → Float}

/-- The leaves from left to right. -/
def leaves : CallTree → List Expr
  | leaf e => [e]
  | call first second => first.leaves ++ second.leaves

/-- The expression that calls one function everywhere. -/
def expr (function : Builtin) : CallTree → Expr
  | leaf e => e
  | call first second => .call function [first.expr function, second.expr function]

/-- A tree of calls whose leaves have values has their extremum as its value. -/
theorem exists_eval (function : Builtin)
    (h : ∀ e ∈ tree.leaves, e.eval tolerance lookup = .ok (value e)) :
    ∃ x, (tree.expr function).eval tolerance lookup = .ok x ∧
      IsExtremum function (tree.leaves.map value) x := by
  induction tree with
  | leaf e => exact ⟨value e, h e List.mem_cons_self, .singleton function (value e)⟩
  | call first second ihf ihs =>
    obtain ⟨hf, hs⟩ := List.forall_mem_append.1 h
    obtain ⟨x, hx, hxe⟩ := ihf hf
    obtain ⟨y, hy, hye⟩ := ihs hs
    refine ⟨function.apply x y, ?_, ?_⟩
    · rw [expr, Expr.eval, hx, hy]
      rfl
    · rw [leaves, List.map_append]
      exact hxe.apply hye

/-- A tree of calls of one function, all of whose leaves have values, comes to their extremum: to
what is not a number exactly if one leaf does, and else to the value of a leaf that dominates all,
infinities included. So any other tree over the same leaves, in any order and nesting, comes to the
same but for the sign of a zero. -/
theorem eval_extremum (settings : Settings) (sheet : Sheet) (function : Builtin)
    (value : Expr → Float)
    (h : ∀ e ∈ tree.leaves, e.eval settings.tolerance sheet.lookup = .ok (value e)) :
    ∃ x, (tree.expr function).eval settings.tolerance sheet.lookup = .ok x ∧
      (x.isNaN = true ↔ ∃ e ∈ tree.leaves, (value e).isNaN = true) ∧
      (x.isNaN = false → (∃ e ∈ tree.leaves, value e = x) ∧
        ∀ e ∈ tree.leaves, function.Dominates x (value e)) ∧
      ∀ other : CallTree, (∀ e, e ∈ other.leaves ↔ e ∈ tree.leaves) →
        ∃ y, (other.expr function).eval settings.tolerance sheet.lookup = .ok y ∧
          (y = x ∨ (y == 0) = true ∧ (x == 0) = true) := by
  obtain ⟨x, hx, hextremum⟩ := exists_eval function h
  refine ⟨x, hx, ?isNaN, fun hnumber => ⟨?mem, fun e he => ?dominates⟩, fun other hsame => ?other⟩
  case isNaN => simpa using hextremum.isNaN
  case mem => exact List.mem_map.1 (hextremum.mem hnumber)
  case dominates => exact hextremum.dominates hnumber _ (List.mem_map_of_mem he)
  case other =>
    have hother : ∀ e ∈ other.leaves, e.eval settings.tolerance sheet.lookup = .ok (value e) :=
      fun e he => h e ((hsame e).1 he)
    obtain ⟨y, hy, hyextremum⟩ := exists_eval function hother
    refine ⟨y, hy, hyextremum.unique hextremum ?_⟩
    intro z
    simp only [List.mem_map, hsame]

/-- The least of infinity, zero and the negative zero is a zero in either nesting, and the sign of
it is that of the zero that is met first. -/
theorem least_of_infinity_and_zeros :
    let infinite : Expr := .binary .div (.number 1) (.number 0)
    let negative : Expr := .unary .neg (.number 0)
    let tree : CallTree := .call (.call (.leaf infinite) (.leaf (.number 0))) (.leaf negative)
    let other : CallTree := .call (.leaf negative) (.call (.leaf (.number 0)) (.leaf infinite))
    let value : Expr → Float := fun e => (e.eval 0 Sheet.empty.lookup).toOption.getD 0
    (∀ e ∈ tree.leaves, e.eval 0 Sheet.empty.lookup = .ok (value e)) ∧
      (∀ e ∈ tree.leaves, Builtin.min.Dominates 0 (value e)) ∧
      (other.expr .min).eval 0 Sheet.empty.lookup = .ok (-0) ∧
      ∃ y, (other.expr .min).eval 0 Sheet.empty.lookup = .ok y ∧
        (y = 0 ∨ (y == 0) = true ∧ (0 : Float) == 0) := by
  intro infinite negative tree other value
  have hleaves : ∀ e ∈ tree.leaves, e.eval 0 Sheet.empty.lookup = .ok (value e) := by
    simp only [tree, leaves, List.forall_mem_append, List.forall_mem_singleton]
    exact ⟨⟨by decide +kernel, by decide +kernel⟩, by decide +kernel⟩
  have hsame : ∀ e, e ∈ other.leaves ↔ e ∈ tree.leaves := by
    intro e
    simp only [tree, other, leaves, List.mem_append, List.mem_singleton]
    tauto
  obtain ⟨x, hx, -, hnumber, hother⟩ := eval_extremum ⟨0⟩ Sheet.empty .min value hleaves
  have htree : (tree.expr .min).eval 0 Sheet.empty.lookup = .ok 0 := by decide +kernel
  obtain rfl : 0 = x := Except.ok.inj (htree.symm.trans hx)
  exact ⟨hleaves, (hnumber rfl).2, by decide +kernel, hother other hsame⟩

end CallTree

end FormulaSheet
