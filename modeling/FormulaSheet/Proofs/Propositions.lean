import FormulaSheet.Proofs.FloatOrder
import FormulaSheet.Proofs.NotANumber

/-!
# The connectives as Boolean operations

Every number counts as true but the two zeros, what is not a number included. The connectives judge
their operands by that alone, and their own values 1 and 0 count as they should when another
connective reads them. So what a tree of connectives comes to is the truth of the proposition of the
same shape (`Proposition.eval_expr`), and equivalent propositions have one value
(`Proposition.eval_equivalent`).
-/

namespace FormulaSheet

/-! ## Truth -/

/-- Of all numbers only the zeros count as false. -/
theorem truthy_eq_false {x : Float} : truthy x = false ↔ x = 0 ∨ x = -0 := by
  rw [truthy, bne, Bool.not_eq_false', Binary64.beq_zero_iff]

@[simp] theorem truthy_truthValue (b : Bool) : truthy (truthValue b) = b := by
  cases b <;> rfl

namespace Expr

variable {tolerance : Float} {lookup : String → Except Fault Float} {e d : Expr} {b c : Bool}

/-- The expression has a value, and that counts as true or false. -/
def CountsAs (tolerance : Float) (lookup : String → Except Fault Float) (e : Expr) (b : Bool) :
    Prop :=
  ∃ x, e.eval tolerance lookup = .ok x ∧ truthy x = b

/-- A truth value counts as itself. -/
theorem CountsAs.of_eval (h : e.eval tolerance lookup = .ok (truthValue b)) :
    e.CountsAs tolerance lookup b :=
  ⟨_, h, truthy_truthValue b⟩

-- a negation compares with zero for equality, the other two connectives for inequality

/-- A negation is the truth value of the operand, negated. -/
theorem CountsAs.not (h : e.CountsAs tolerance lookup b) :
    (unary .not e).eval tolerance lookup = .ok (truthValue !b) := by
  obtain ⟨x, hx, rfl⟩ := h
  rw [eval, hx, truthy, bne, Bool.not_not]
  rfl

/-- A conjunction is true if both operands count as true. -/
theorem CountsAs.and (he : e.CountsAs tolerance lookup b) (hd : d.CountsAs tolerance lookup c) :
    (binary .and e d).eval tolerance lookup = .ok (truthValue (b && c)) := by
  obtain ⟨x, hx, rfl⟩ := he
  obtain ⟨y, hy, rfl⟩ := hd
  exact eval_binary .and hx hy

/-- A disjunction is true if one of the operands counts as true. -/
theorem CountsAs.or (he : e.CountsAs tolerance lookup b) (hd : d.CountsAs tolerance lookup c) :
    (binary .or e d).eval tolerance lookup = .ok (truthValue (b || c)) := by
  obtain ⟨x, hx, rfl⟩ := he
  obtain ⟨y, hy, rfl⟩ := hd
  exact eval_binary .or hx hy

end Expr

/-! ## Propositions -/

/-- A tree of connectives over leaves. -/
inductive Proposition (α : Type) where
  | leaf (a : α)
  | not (operand : Proposition α)
  | and (left right : Proposition α)
  | or (left right : Proposition α)

namespace Proposition

variable {α : Type}

/-- The leaves from left to right. -/
def leaves : Proposition α → List α
  | leaf a => [a]
  | not operand => operand.leaves
  | and left right | or left right => left.leaves ++ right.leaves

/-- Whether there is no connective at all. -/
def isLeaf : Proposition α → Bool
  | leaf _ => true
  | not _ | and .. | or .. => false

/-- The truth of a proposition, given that of the leaves. -/
def holds (truth : α → Bool) : Proposition α → Bool
  | leaf a => truth a
  | not operand => !operand.holds truth
  | and left right => left.holds truth && right.holds truth
  | or left right => left.holds truth || right.holds truth

/-- Two propositions that are both true or both false, whatever leaves are true. -/
def Equivalent (p q : Proposition α) : Prop := ∀ truth : α → Bool, p.holds truth = q.holds truth

/-- The expression with the same connectives. -/
def expr : Proposition Expr → Expr
  | leaf e => e
  | not operand => .unary .not operand.expr
  | and left right => .binary .and left.expr right.expr
  | or left right => .binary .or left.expr right.expr

/-! ## Values -/

variable {tolerance : Float} {lookup : String → Except Fault Float} {p q : Proposition Expr}
  {value : Expr → Float}

/-- The value of a proposition counts as its truth. -/
theorem countsAs (h : ∀ e ∈ p.leaves, e.eval tolerance lookup = .ok (value e)) :
    p.expr.CountsAs tolerance lookup (p.holds (truthy ∘ value)) := by
  induction p with
  | leaf e => exact ⟨value e, h e List.mem_cons_self, rfl⟩
  | not operand ih => exact .of_eval (ih h).not
  | and left right ihl ihr =>
    obtain ⟨hl, hr⟩ := List.forall_mem_append.1 h
    exact .of_eval ((ihl hl).and (ihr hr))
  | or left right ihl ihr =>
    obtain ⟨hl, hr⟩ := List.forall_mem_append.1 h
    exact .of_eval ((ihl hl).or (ihr hr))

/-- A tree of connectives whose leaves have values has the truth value of the proposition of its
shape. -/
theorem eval_expr (hp : p.isLeaf = false)
    (h : ∀ e ∈ p.leaves, e.eval tolerance lookup = .ok (value e)) :
    p.expr.eval tolerance lookup = .ok (truthValue (p.holds (truthy ∘ value))) := by
  cases p with
  | leaf e => cases hp
  | not operand =>
    have hoperand : operand.expr.CountsAs tolerance lookup _ := countsAs h
    exact hoperand.not
  | and left right =>
    obtain ⟨hl, hr⟩ := List.forall_mem_append.1 h
    exact (countsAs hl).and (countsAs hr)
  | or left right =>
    obtain ⟨hl, hr⟩ := List.forall_mem_append.1 h
    exact (countsAs hl).or (countsAs hr)

/-- Equivalent trees of connectives have one value. -/
theorem eval_equivalent (hp : p.isLeaf = false) (hq : q.isLeaf = false) (hequiv : p.Equivalent q)
    (h : ∀ e ∈ p.leaves ++ q.leaves, ∃ x, e.eval tolerance lookup = .ok x) :
    p.expr.eval tolerance lookup = q.expr.eval tolerance lookup := by
  choose! value hvalue using h
  obtain ⟨hleft, hright⟩ := List.forall_mem_append.1 hvalue
  rw [eval_expr hp hleft, eval_expr hq hright, hequiv]

/-- The connectives are the Boolean operations on what counts as true, which is every number but the
two zeros. A tree with a connective at its root, all of whose leaves have values, has the value 1 or
0, as the proposition of its shape holds of the truth of the leaves or not. So two such trees that
are equivalent as propositions have one value, whichever numbers their leaves come to. -/
theorem connectives_boolean (settings : Settings) (sheet : Sheet) :
    (∀ x, truthy x = false ↔ x = 0 ∨ x = -0) ∧
    (∀ (p : Proposition Expr) (value : Expr → Float), p.isLeaf = false →
      (∀ e ∈ p.leaves, e.eval settings.tolerance sheet.lookup = .ok (value e)) →
      p.expr.eval settings.tolerance sheet.lookup =
        .ok (if p.holds fun e => truthy (value e) then 1 else 0)) ∧
    ∀ p q : Proposition Expr, p.isLeaf = false → q.isLeaf = false → p.Equivalent q →
      (∀ e ∈ p.leaves ++ q.leaves, ∃ x, e.eval settings.tolerance sheet.lookup = .ok x) →
      p.expr.eval settings.tolerance sheet.lookup = q.expr.eval settings.tolerance sheet.lookup :=
  ⟨fun _ => truthy_eq_false, fun _ _ => eval_expr, fun _ _ => eval_equivalent⟩

/-- One cell holds what is not a number, which counts as true, and the other the negative zero,
which counts as false. The law of De Morgan holds of them. -/
theorem de_morgan_of_notANumber :
    let sheet := (((Sheet.empty.setFormula "a1" "").2.setFormula "a2" "").2.setValue "A1"
      notANumber).setValue "A2" (-0)
    let a : Proposition Expr := .leaf (.cell "a1")
    let b : Proposition Expr := .leaf (.cell "a2")
    (∀ e ∈ [Expr.cell "a1", .cell "a2"], ∃ x, e.eval 0 sheet.lookup = .ok x) ∧
      (a.and b).not.Equivalent (a.not.or b.not) ∧
      (a.and b).not.expr.eval 0 sheet.lookup = .ok 1 ∧
      (a.and b).not.expr.eval 0 sheet.lookup = (a.not.or b.not).expr.eval 0 sheet.lookup := by
  intro sheet a b
  obtain ⟨-, hvalue, hsame⟩ := connectives_boolean ⟨0⟩ sheet
  let value : Expr → Float := fun e => if e matches .cell "a1" then notANumber else -0
  have hleaves : ∀ e ∈ [Expr.cell "a1", .cell "a2"], e.eval 0 sheet.lookup = .ok (value e) := by
    rw [List.forall_mem_cons, List.forall_mem_singleton]
    exact ⟨by decide +kernel, by decide +kernel⟩
  have hvalues : ∀ e ∈ [Expr.cell "a1", .cell "a2"], ∃ x, e.eval 0 sheet.lookup = .ok x :=
    fun e he => ⟨value e, hleaves e he⟩
  have hequiv : (a.and b).not.Equivalent (a.not.or b.not) := fun truth => Bool.not_and ..
  refine ⟨hvalues, hequiv, ?_, hsame _ _ rfl rfl hequiv ?_⟩
  · rw [hvalue (a.and b).not value rfl hleaves]
    decide +kernel
  · exact List.forall_mem_append.2 ⟨hvalues, hvalues⟩

end Proposition

end FormulaSheet
