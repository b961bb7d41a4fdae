import FormulaSheet.Proofs.Recalculation
import FormulaSheet.Proofs.WellShaped

/-!
# Faults in the order of evaluation

`Expr.faults` lists what is wrong with an expression in a sheet, from left to right. An evaluation
fails exactly if the list is not empty, and then with its first fault (`Expr.errorOf_eval`). A
well-shaped expression can only lack cells, so whether and why a formula fails depends on its text
and the names in the sheet, and on no value (`Sheet.errorOf_evaluateCell`).
-/

namespace FormulaSheet

/-! ## Errors -/

/-- The error of a failed computation. -/
def errorOf {ε α : Type} : Except ε α → Option ε
  | .ok _ => none
  | .error e => some e

section
variable {ε α β γ : Type} {x : Except ε α} {y : Except ε β}

/-- A computation has an error if it fails with it. -/
theorem errorOf_eq_some {e : ε} : errorOf x = some e ↔ x = .error e := by
  cases x <;> simp [errorOf]

/-- A computation has no error if it gives a value. -/
theorem errorOf_eq_none : errorOf x = none ↔ ∃ v, x = .ok v := by
  cases x <;> simp [errorOf]

/-- To go on with a value changes no error. -/
theorem errorOf_map (g : α → γ) : errorOf (x >>= fun v => pure (g v)) = errorOf x := by
  cases x <;> rfl

/-- To map errors is to map the error of a computation. -/
theorem errorOf_mapError (f : ε → γ) : errorOf (x.mapError f) = (errorOf x).map f := by
  cases x <;> rfl

/-- Two computations, one after the other, fail as the first that fails. -/
theorem errorOf_map₂ (g : α → β → γ) :
    errorOf (x >>= fun v => y >>= fun w => pure (g v w)) = (errorOf x).or (errorOf y) := by
  cases x <;> cases y <;> rfl

end

/-! ## Faults of expressions -/

/-- What is wrong with an expression in a sheet: the cells that are missing and the calls with a
number of arguments other than two, from left to right, where the arguments of such a call are left
out. -/
def Expr.faults (sheet : Sheet) : Expr → List Fault
  | number _ => []
  | cell name => if sheet.contains name then [] else [.unknownCell (normalName name)]
  | unary _ operand => operand.faults sheet
  | binary _ left right => left.faults sheet ++ right.faults sheet
  | call _ [first, second] => first.faults sheet ++ second.faults sheet
  | call function arguments => [.arity function 2 arguments.length]

/-- Every function takes two arguments, as the pattern that evaluates a call has it. -/
theorem Builtin.arity_eq (function : Builtin) : function.arity = 2 := by
  cases function <;> rfl

/-- A reference fails if its cell is missing. -/
theorem Sheet.errorOf_lookup (sheet : Sheet) (name : String) : errorOf (sheet.lookup name) =
    if sheet.contains name then none else some (.unknownCell (normalName name)) := by
  rw [lookup, contains, value?]
  cases sheet.get? name <;> rfl

/-- An evaluation fails with the first fault, whatever the values and the tolerance are. -/
theorem Expr.errorOf_eval (tolerance : Float) (sheet : Sheet) (e : Expr) :
    errorOf (e.eval tolerance sheet.lookup) = (e.faults sheet).head? := by
  fun_induction Expr.eval tolerance sheet.lookup e with
  | case1 value => rfl
  | case2 name =>
    rw [Sheet.errorOf_lookup, faults]
    split <;> rfl
  | case3 op operand ih =>
    rw [faults, errorOf_map, ih]
  | case4 op left right ihl ihr =>
    rw [faults, errorOf_map₂, ihl, ihr, List.head?_append]
  | case5 function first second ihf ihs =>
    rw [faults, errorOf_map₂, ihf, ihs, List.head?_append]
  | case6 function arguments hother =>
    rw [faults, function.arity_eq]
    · rfl
    · exact hother

/-- A reference is at fault if the normal form of its name is no key. -/
theorem Expr.faults_cell (sheet : Sheet) (name : String) : (cell name).faults sheet =
    if normalName name ∈ sheet.keys then [] else [.unknownCell (normalName name)] := by
  rw [faults]
  exact if_congr Sheet.contains_iff rfl rfl

/-- A call with a wrong number of arguments is one fault, whatever its arguments are. -/
theorem Expr.faults_call_of_ne {arguments : List Expr} (h : arguments.length ≠ 2) (sheet : Sheet)
    (function : Builtin) :
    (call function arguments).faults sheet = [.arity function 2 arguments.length] := by
  rw [faults]
  rintro first second rfl
  exact h rfl

/-- The faults of an expression depend on the names in the sheet only. -/
theorem Expr.faults_congr {sheet other : Sheet}
    (h : ∀ name, sheet.contains name = other.contains name) (e : Expr) :
    e.faults sheet = e.faults other := by
  fun_induction Expr.faults sheet e with
  | case1 value => rfl
  | case2 name hname => rw [faults, ← h, if_pos hname]
  | case3 name hname => rw [faults, ← h, if_neg hname]
  | case4 op operand ih => rw [faults, ih]
  | case5 op left right ihl ihr => rw [faults, ihl, ihr]
  | case6 function first second ihf ihs => rw [faults, ihf, ihs]
  | case7 function arguments hother => rw [faults]; exact hother

/-- An expression has a value exactly if it has no faults, and otherwise its evaluation fails with
the first of them: a cell that is not in the sheet, under its normal form, or a call whose number of
arguments is not two, with the two that the function takes and the number found. So a failure
depends neither on the values of cells nor on the tolerance, and when the left operand of an
operator has a value, whichever it is, the right one still decides. -/
theorem Expr.eval_fails_at_first_fault (tolerance : Float) (sheet : Sheet) :
    (∀ e : Expr, (∃ x, e.eval tolerance sheet.lookup = .ok x) ↔ e.faults sheet = []) ∧
    (∀ (e : Expr) (fault : Fault), e.eval tolerance sheet.lookup = .error fault ↔
      (e.faults sheet).head? = some fault) ∧
    (∀ name : String, (cell name).faults sheet =
      if normalName name ∈ sheet.keys then [] else [.unknownCell (normalName name)]) ∧
    (∀ (function : Builtin) (arguments : List Expr), arguments.length ≠ 2 →
      (call function arguments).faults sheet = [.arity function 2 arguments.length]) ∧
    (∀ (e : Expr) (otherTolerance : Float) (other : Sheet),
      (∀ key, key ∈ other.keys ↔ key ∈ sheet.keys) →
      errorOf (e.eval otherTolerance other.lookup) = errorOf (e.eval tolerance sheet.lookup)) ∧
    ∀ (op : BinaryOp) (left right : Expr) (x : Float), left.eval tolerance sheet.lookup = .ok x →
      errorOf ((binary op left right).eval tolerance sheet.lookup) =
        errorOf (right.eval tolerance sheet.lookup) := by
  refine ⟨fun e => ?value, fun e fault => ?fault, faults_cell sheet,
    fun function _ h => faults_call_of_ne h sheet function, fun e otherTolerance other h => ?congr,
    fun op left right x h => ?right⟩
  case value => rw [← errorOf_eq_none, errorOf_eval, List.head?_eq_none_iff]
  case fault => rw [← errorOf_eq_some, errorOf_eval]
  case congr =>
    have hcontains : ∀ name, other.contains name = sheet.contains name := by
      intro name
      rw [Bool.eq_iff_iff, Sheet.contains_iff, Sheet.contains_iff, h]
    rw [errorOf_eval, errorOf_eval, faults_congr hcontains]
  case right =>
    have hleft : left.faults sheet = [] := by
      rw [← List.head?_eq_none_iff, ← left.errorOf_eval tolerance, errorOf_eq_none]
      exact ⟨x, h⟩
    rw [errorOf_eval, errorOf_eval, faults, hleft, List.nil_append]

/-- The right operand of an `or` fails though the left one is true already, and it does so at a cell
before it comes to a call with one argument. -/
theorem Expr.eval_or_fails_on_the_right :
    let sheet := (Sheet.empty.setFormula "a1" "").2
    let right : Expr := .binary .div (.cell "b9") (.call .max [.cell "c9"])
    let e : Expr := .binary .or (.binary .eq (.number 0) (.cell "A1")) right
    right.faults sheet = [.unknownCell "B9", .arity .max 2 1] ∧
      e.eval notANumber sheet.lookup = .error (.unknownCell "B9") ∧
      errorOf (e.eval 0.5 sheet.lookup) = errorOf (right.eval 0.5 sheet.lookup) := by
  intro sheet right e
  obtain ⟨-, hfault, -⟩ := eval_fails_at_first_fault notANumber sheet
  obtain ⟨-, -, -, -, -, hright⟩ := eval_fails_at_first_fault 0.5 sheet
  have hfaults : right.faults sheet = [.unknownCell "B9", .arity .max 2 1] := by decide +kernel
  have hleft : (Expr.binary .eq (.number 0) (.cell "A1")).eval 0.5 sheet.lookup = .ok 1 := by
    decide +kernel
  exact ⟨hfaults, (hfault e _).2 (by decide +kernel), hright _ _ _ _ hleft⟩

/-- A well-shaped expression can only lack cells. -/
theorem Expr.WellShaped.faults {e : Expr} (h : e.WellShaped) (sheet : Sheet) :
    e.faults sheet = (e.references.filter (!sheet.contains ·)).map
      fun name => .unknownCell (normalName name) := by
  induction h with
  | number => rfl
  | @cell name =>
    rw [Expr.faults, references]
    cases hname : sheet.contains name <;> simp [hname]
  | unary _ ih => exact ih
  | binary _ _ ih ih' => rw [Expr.faults, references, ih, ih', List.filter_append, List.map_append]
  | call _ _ ih ih' =>
    rw [Expr.faults, references, referencesOf, referencesOf, referencesOf, List.append_nil, ih, ih',
      List.filter_append, List.map_append]

/-! ## References in the order of the text -/

/-- The name that a token is, if it is one. -/
def Token.name? : Token → Option String
  | name letters => some (String.ofList letters)
  | _ => none

/-- Signs refer to no cells. -/
theorem references_foldr_unary (e : Expr) (signs : List UnaryOp) :
    (signs.foldr .unary e).references = e.references := by
  induction signs with
  | nil => rfl
  | cons op signs ih => exact ih

/-- A chain refers to the cells of its operands, in their order. -/
theorem references_foldl_extend (e : Expr) (links : List Link) :
    (links.foldl Link.extend e).references =
      e.references ++ links.flatMap fun l => l.operand.references := by
  induction links generalizing e with
  | nil => exact (List.append_nil _).symm
  | cons l links ih =>
    rw [List.foldl_cons, ih, Link.extend, Expr.references, List.flatMap_cons, List.append_assoc]

/-- Operators are no names. -/
theorem Rule.name?_of_operators (rule : Rule) : ∀ p ∈ rule.operators, p.1.name? = none := by
  cases rule <;> decide

/-- Signs are no names. -/
theorem filterMap_name?_signs (signs : List UnaryOp) :
    (signs.map Token.sign).filterMap Token.name? = [] := by
  refine List.filterMap_eq_nil_iff.2 ?_
  intro t ht
  obtain ⟨op, -, rfl⟩ := List.mem_map.1 ht
  cases op <;> rfl

/-- The references of an expression are the names among its tokens, from left to right. -/
theorem Derives.references {rule : Rule} {ts : List Token} {e : Expr} (h : Derives rule ts e) :
    e.references = ts.filterMap Token.name? := by
  induction h with
  | @chain rule ts e links _ _ hops _ ih ihs =>
    rw [references_foldl_extend, ih, List.filterMap_append, List.filterMap_flatMap]
    refine congrArg _ (List.flatMap_congr ?_)
    intro l hl
    rw [ihs l hl, Link.all, List.filterMap_cons_none (rule.name?_of_operators _ (hops l hl))]
  | single _ ih => exact ih
  | compare _ hop _ ih ih' =>
    rw [Expr.references, ih, ih', List.filterMap_append,
      List.filterMap_cons_none (Rule.name?_of_operators _ _ hop)]
  | signed _ ih =>
    rw [references_foldr_unary, ih, List.filterMap_append, filterMap_name?_signs, List.nil_append]
  | number => rfl
  | group _ ih =>
    rw [ih, List.cons_append, List.filterMap_cons_none rfl, List.filterMap_append,
      List.filterMap_cons_none rfl, List.filterMap_nil, List.append_nil]
  | call _ _ ih ih' =>
    simp [Expr.references, Expr.referencesOf, ih, ih', List.filterMap_cons, Token.name?]
  | name => rfl

/-! ## Formulas -/

namespace Sheet

variable {settings : Settings} {sheet : Sheet} {text : String}

/-- Why a cell with this formula fails, if it does: the formula cannot be parsed, or the first of
its references to a missing cell. -/
def formulaError? (sheet : Sheet) (text : String) : Option FormulaError :=
  if allBlank text.toList then none
  else
    match parse text with
    | .error e => some (.parse e)
    | .ok e => (e.references.find? (!sheet.contains ·)).map
        fun name => .fault (.unknownCell (normalName name))

/-- A text that cannot be parsed fails with the error of the parser. -/
theorem evaluate_of_parse_error {e : ParseError} (h : parse text = .error e) :
    sheet.evaluate settings text = .error (.parse e) := by
  unfold evaluate
  generalize parse text = parsed at h ⊢
  rw [h]

/-- A text that can be parsed is evaluated as its expression. -/
theorem evaluate_of_parse_ok {e : Expr} (h : parse text = .ok e) : sheet.evaluate settings text =
    (e.eval settings.tolerance sheet.lookup).mapError .fault := by
  unfold evaluate
  generalize parse text = parsed at h ⊢
  rw [h]
  dsimp only
  cases e.eval settings.tolerance sheet.lookup <;> rfl

/-- The evaluation of a formula fails at its first reference to a missing cell, if it can be
parsed. -/
theorem errorOf_evaluate (settings : Settings) (sheet : Sheet) (text : String) :
    errorOf (sheet.evaluate settings text) =
      match parse text with
      | .error e => some (.parse e)
      | .ok e => (e.references.find? (!sheet.contains ·)).map
          fun name => .fault (.unknownCell (normalName name)) := by
  generalize hparsed : parse text = parsed
  cases parsed with
  | error e => rw [evaluate_of_parse_error hparsed, errorOf]
  | ok e =>
    rw [evaluate_of_parse_ok hparsed, errorOf_mapError, e.errorOf_eval,
      (wellShaped_of_parse hparsed).faults, List.head?_map, List.head?_filter, Option.map_map]
    rfl

/-- Whether and why a cell fails depends on the text of its formula and the names in the sheet. -/
theorem errorOf_evaluateCell (settings : Settings) (sheet : Sheet) (text : String) :
    errorOf (sheet.evaluateCell settings text) = sheet.formulaError? text := by
  rw [evaluateCell, formulaError?]
  split
  · rfl
  · exact errorOf_evaluate settings sheet text

/-- Whether and how a formula fails depends on the names in the sheet only. -/
theorem formulaError?_congr {other : Sheet}
    (h : ∀ name, sheet.contains name = other.contains name) :
    sheet.formulaError? text = other.formulaError? text := by
  simp only [formulaError?, h]

end Sheet

end FormulaSheet
