import FormulaSheet.Proofs.SheetLaws
import FormulaSheet.Spreadsheet

/-!
# What a recalculation computes

A recalculation in place satisfies an equation for each cell: its new value is that of its formula
in the sheet where the cells before it have their new values and the others, itself included, their
old ones (`Sheet.Solves`). The equations have one solution only, since each speaks of the new values
of cells before its own. `Spreadsheet.recalculate_unique_solution` says that this solution is what
every recalculation computes that a caller can ask for.
-/

namespace FormulaSheet

/-! ## References -/

mutual

/-- The names of cells in an expression, as written. -/
def Expr.references : Expr → List String
  | .number _ => []
  | .cell name => [name]
  | .unary _ operand => operand.references
  | .binary _ left right => left.references ++ right.references
  | .call _ arguments => Expr.referencesOf arguments

/-- The names of cells in a list of expressions. -/
def Expr.referencesOf : List Expr → List String
  | [] => []
  | e :: later => e.references ++ Expr.referencesOf later

end

/-- The value of an expression depends on the cells that it refers to only. -/
theorem Expr.eval_congr {tolerance : Float} {lookup lookup' : String → Except Fault Float}
    {e : Expr} (h : ∀ name ∈ e.references, lookup name = lookup' name) :
    e.eval tolerance lookup = e.eval tolerance lookup' := by
  fun_induction Expr.eval tolerance lookup e with
  | case1 value => rfl
  | case2 name => exact h name List.mem_cons_self
  | case3 op operand ih => rw [Expr.eval, ih h]
  | case4 op left right ihl ihr =>
    rw [Expr.references, List.forall_mem_append] at h
    rw [Expr.eval, ihl h.1, ihr h.2]
  | case5 function first second ihf ihs =>
    simp only [Expr.references, Expr.referencesOf, List.forall_mem_append] at h
    rw [Expr.eval, ihf h.1, ihs h.2.1]
  | case6 function arguments hother =>
    rw [Expr.eval]
    exact hother

namespace Sheet

variable {settings : Settings} {sheet : Sheet} {text : String}

/-- A reference depends on the value of its cell. -/
theorem lookup_congr {other : Sheet} {name : String} (h : sheet.value? name = other.value? name) :
    sheet.lookup name = other.lookup name := by
  rw [lookup, lookup, h]

/-- A formula has the same value in sheets that agree on the cells that it refers to. -/
theorem evaluate_congr {other : Sheet}
    (h : ∀ e, parse text = .ok e → ∀ name ∈ e.references, sheet.value? name = other.value? name) :
    sheet.evaluate settings text = other.evaluate settings text := by
  unfold evaluate
  generalize parse text = parsed at h ⊢
  cases parsed with
  | error e => rfl
  | ok e =>
    have heval : e.eval settings.tolerance sheet.lookup = e.eval settings.tolerance other.lookup :=
      Expr.eval_congr fun name hname => lookup_congr (h e rfl name hname)
    dsimp only
    rw [heval]

/-! ## The value that a visit stores -/

/-- The value of a cell with this formula, where that is not a number if the formula fails. -/
def cellValue (settings : Settings) (sheet : Sheet) (text : String) : Float :=
  if allBlank text.toList then 0
  else
    match sheet.evaluate settings text with
    | .ok value => value
    | .error _ => notANumber

/-- The value of a formula depends on the values under the keys only. -/
theorem cellValue_congr {values values' : String → Float}
    (h : ∀ key ∈ sheet.keys, values key = values' key) :
    (sheet.withValues values).cellValue settings text =
      (sheet.withValues values').cellValue settings text :=
  congrArg (cellValue settings · text) (withValues_congr h)

/-- A visit stores the value of the cell, and the recalculation goes on whether it failed or not. -/
theorem recalculateCells_cons {key : String} {later : List (String × String)} :
    (sheet.recalculateCells settings ((key, text) :: later)).sheet =
      ((sheet.setValue key (sheet.cellValue settings text)).recalculateCells
        settings later).sheet := by
  rw [recalculateCells, evaluateCell, cellValue]
  by_cases hblank : allBlank text.toList = true
  · rw [if_pos hblank, if_pos hblank]
  · rw [if_neg hblank, if_neg hblank]
    cases sheet.evaluate settings text <;> rfl

/-! ## The values after visits -/

/-- The values after visits to cells, given by key and formula, of a sheet with the given values. -/
def visited (settings : Settings) (sheet : Sheet) (values : String → Float) :
    List (String × String) → String → Float
  | [] => values
  | (key, text) :: later =>
    visited settings sheet
      (Function.update values key ((sheet.withValues values).cellValue settings text)) later

/-- Visits change nothing but values. -/
theorem WellFormed.recalculateCells (h : sheet.WellFormed) {cells : List (String × String)}
    {values : String → Float} (hcells : ∀ entry ∈ cells, entry.1 ∈ sheet.keys) :
    ((sheet.withValues values).recalculateCells settings cells).sheet =
      sheet.withValues (sheet.visited settings values cells) := by
  induction cells generalizing values with
  | nil => rfl
  | cons entry later ih =>
    obtain ⟨hkey, hlater⟩ := List.forall_mem_cons.1 hcells
    rw [recalculateCells_cons, h.setValue_withValues hkey, visited, ih hlater]

/-- A cell that is not visited keeps its value. -/
theorem visited_of_not_mem {key : String} {cells : List (String × String)}
    {values : String → Float} (h : key ∉ cells.map (·.1)) :
    sheet.visited settings values cells key = values key := by
  induction cells generalizing values with
  | nil => rfl
  | cons entry later ih =>
    obtain ⟨hne, hlater⟩ := not_or.1 (mt List.mem_cons.2 h)
    rw [visited, ih hlater, Function.update_of_ne hne]

/-- A visited cell has the value of its formula where the cells visited before it have their new
values already. -/
theorem visited_of_mem {key text : String} {cells : List (String × String)}
    {values : String → Float} (hcells : (cells.map (·.1)).Pairwise (· < ·))
    (hmem : (key, text) ∈ cells) :
    sheet.visited settings values cells key =
      (sheet.withValues fun j =>
        if j < key ∧ j ∈ cells.map (·.1) then sheet.visited settings values cells j
        else values j).cellValue settings text := by
  induction cells generalizing values with
  | nil => cases hmem
  | cons entry later ih =>
    obtain ⟨first, text'⟩ := entry
    obtain ⟨habove, hlater⟩ := List.pairwise_cons.1 hcells
    have hfirst : first ∉ later.map (·.1) := fun h => String.lt_irrefl first (habove first h)
    rw [visited]
    generalize hvalue : (sheet.withValues values).cellValue settings text' = value
    obtain heq | hmem := List.mem_cons.1 hmem
    · -- no cell is visited before the first
      obtain ⟨rfl, rfl⟩ := Prod.mk.inj heq
      rw [visited_of_not_mem hfirst, Function.update_self, ← hvalue]
      refine cellValue_congr ?_
      intro j _
      rw [if_neg]
      intro ⟨hlt, hj⟩
      obtain rfl | hj := List.mem_cons.1 hj
      · exact String.lt_irrefl j hlt
      · exact String.lt_asymm hlt (habove j hj)
    · -- the first cell has its new value from here on
      have hkey : first < key := habove key (List.mem_map_of_mem hmem)
      rw [ih hlater hmem]
      refine cellValue_congr ?_
      intro j _
      by_cases hj : j = first
      · subst hj
        rw [if_neg fun h => hfirst h.2, if_pos ⟨hkey, List.mem_cons_self⟩,
          visited_of_not_mem hfirst]
      · simp only [List.map_cons, List.mem_cons, hj, false_or, Function.update_of_ne hj]

/-! ## The equations -/

/-- The sheet when a recalculation comes to a key: the cells before it have their new values, the
others still their old ones. -/
def during (sheet : Sheet) (new : String → Float) (key : String) : Sheet :=
  sheet.withValues fun j => if j < key then new j else sheet.valueAt j

/-- The equations of a recalculation: each cell has the value of its formula when the recalculation
comes to it. -/
def Solves (settings : Settings) (sheet : Sheet) (new : String → Float) : Prop :=
  ∀ key ∈ sheet.keys, new key = (sheet.during new key).cellValue settings (sheet.formula key)

/-- What holds of a key once it holds of the keys before it holds of all keys. -/
theorem forall_keys_of_before {p : String → Prop} {keys : List String}
    (hkeys : keys.Pairwise (· < ·))
    (h : ∀ key ∈ keys, (∀ j ∈ keys, j < key → p j) → p key) : ∀ key ∈ keys, p key := by
  induction keys with
  | nil =>
    intro key hkey
    cases hkey
  | cons first later ih =>
    obtain ⟨habove, hlater⟩ := List.pairwise_cons.1 hkeys
    have hfirst : p first := by
      refine h first List.mem_cons_self ?_
      intro j hj hlt
      obtain rfl | hj := List.mem_cons.1 hj
      · exact absurd hlt (String.lt_irrefl j)
      · exact absurd hlt (String.lt_asymm (habove j hj))
    have hrest : ∀ key ∈ later, (∀ j ∈ later, j < key → p j) → p key := by
      intro key hkey hbefore
      refine h key (List.mem_cons_of_mem first hkey) ?_
      intro j hj hlt
      obtain rfl | hj := List.mem_cons.1 hj
      · exact hfirst
      · exact hbefore j hj hlt
    intro key hkey
    obtain rfl | hkey := List.mem_cons.1 hkey
    · exact hfirst
    · exact ih hlater hrest key hkey

/-- Values that agree on the cells of a sheet solve the same equations. -/
theorem Solves.congr {new new' : String → Float} (h : sheet.Solves settings new)
    (heq : ∀ key ∈ sheet.keys, new key = new' key) : sheet.Solves settings new' := by
  intro key hkey
  rw [← heq key hkey, h key hkey]
  refine cellValue_congr ?_
  intro j hj
  rw [heq j hj]

/-- The equations have at most one solution. -/
theorem Solves.unique {new new' : String → Float} (hsheet : sheet.WellFormed)
    (h : sheet.Solves settings new) (h' : sheet.Solves settings new') :
    ∀ key ∈ sheet.keys, new key = new' key := by
  refine forall_keys_of_before hsheet.ascending ?_
  intro key hkey hbefore
  rw [h key hkey, h' key hkey]
  refine cellValue_congr ?_
  intro j hj
  split
  · next hlt => exact hbefore j hj hlt
  · rfl

/-! ## Recalculations -/

/-- The cells to visit, by key and formula. -/
def formulas (sheet : Sheet) : List (String × String) :=
  sheet.cells.map fun (key, cell) => (key, cell.formula)

/-- The formulas of a sheet are those of its keys, in order. -/
theorem keys_formulas : sheet.formulas.map (·.1) = sheet.keys := by
  rw [formulas, List.map_map, keys]
  rfl

/-- A key of a sheet comes with its formula. -/
theorem WellFormed.mem_formulas (h : sheet.WellFormed) {key : String} (hkey : key ∈ sheet.keys) :
    (key, sheet.formula key) ∈ sheet.formulas := by
  obtain ⟨cell, hcell⟩ := Option.isSome_iff_exists.1 (lookup_isSome.2 hkey)
  obtain ⟨before, later, hcells, _⟩ := List.lookup_eq_some_iff.1 hcell
  have hmem : (key, cell) ∈ sheet.cells := hcells ▸ List.mem_append_right before List.mem_cons_self
  refine List.mem_map.2 ⟨(key, cell), hmem, ?_⟩
  rw [formula, get?, h.normal key hkey, hcell]
  rfl

/-- The values after a recalculation. -/
def recalculated (settings : Settings) (sheet : Sheet) : String → Float :=
  sheet.visited settings sheet.valueAt sheet.formulas

/-- A recalculation changes the values only, and gives each cell the one that its visit computes. -/
theorem WellFormed.recalculate (h : sheet.WellFormed) :
    (sheet.recalculate settings).sheet = sheet.withValues (sheet.recalculated settings) := by
  have hcells : ∀ entry ∈ sheet.formulas, entry.1 ∈ sheet.keys := fun entry hentry =>
    keys_formulas ▸ List.mem_map_of_mem hentry
  rw [recalculated, ← h.recalculateCells hcells, h.withValues_valueAt]
  rfl

/-- A recalculation solves its equations. -/
theorem WellFormed.solves_recalculated (h : sheet.WellFormed) :
    sheet.Solves settings (sheet.recalculated settings) := by
  intro key hkey
  have hcells : (sheet.formulas.map (·.1)).Pairwise (· < ·) := keys_formulas ▸ h.ascending
  rw [recalculated, visited_of_mem hcells (h.mem_formulas hkey), keys_formulas]
  refine cellValue_congr ?_
  intro j hj
  simp only [hj, and_true]

/-- A formula that refers to no key from its own on has its new value afterwards, too. -/
theorem Solves.evaluate {new : String → Float} (h : sheet.Solves settings new) {key : String}
    (hkey : key ∈ sheet.keys) (hblank : allBlank (sheet.formula key).toList = false)
    (hbefore : ∀ e, parse (sheet.formula key) = .ok e → ∀ name ∈ e.references,
      normalName name < key ∨ normalName name ∉ sheet.keys) :
    match (sheet.withValues new).evaluate settings (sheet.formula key) with
    | .ok value => value = new key
    | .error _ => new key = notANumber := by
  have heq : (sheet.withValues new).evaluate settings (sheet.formula key) =
      (sheet.during new key).evaluate settings (sheet.formula key) := by
    refine evaluate_congr ?_
    intro e he name hname
    rw [during, value?_withValues, value?_withValues]
    obtain hlt | hunknown := hbefore e he name hname
    · rw [if_pos hlt]
    · rw [if_neg hunknown, if_neg hunknown]
  rw [heq, h key hkey, cellValue, if_neg (by rw [hblank]; exact Bool.false_ne_true)]
  cases (sheet.during new key).evaluate settings (sheet.formula key) <;> rfl

end Sheet

/-! ## Reachable spreadsheets -/

namespace Spreadsheet

/-- What a caller can make of a spreadsheet without cells. -/
inductive Reachable : Spreadsheet → Prop
  | empty (settings : Settings) : Reachable (empty settings)
  | setFormula {s : Spreadsheet} (name text : String) :
    Reachable s → Reachable (s.setFormula name text)
  | recalculate {s : Spreadsheet} : Reachable s → Reachable s.recalculate.2

variable {s : Spreadsheet}

/-- Spreadsheets that can be reached are well-formed. -/
theorem Reachable.wellFormed (h : s.Reachable) : s.sheet.WellFormed := by
  induction h with
  | empty settings => exact .empty
  | setFormula name text _ ih => exact ih.setFormula
  | @recalculate s _ ih =>
    have hsheet : s.recalculate.2.sheet = _ := ih.recalculate
    rw [hsheet]
    exact ih.withValues

/-- A recalculation keeps the keys and the formulas, and its values are the one solution of its
equations. A formula that refers to keys before its own or to unknown names only has its new value
after the recalculation, too. -/
theorem recalculate_unique_solution (h : s.Reachable) :
    let after := s.recalculate.2
    after.sheet.keys = s.sheet.keys ∧
    (∀ name, after.sheet.formula name = s.sheet.formula name) ∧
    (∀ key ∈ s.sheet.keys, after.sheet.value? key = some (after.sheet.valueAt key)) ∧
    s.sheet.Solves s.settings after.sheet.valueAt ∧
    (∀ new, s.sheet.Solves s.settings new →
      ∀ key ∈ s.sheet.keys, new key = after.sheet.valueAt key) ∧
    ∀ key ∈ s.sheet.keys, allBlank (s.sheet.formula key).toList = false →
      (∀ e, parse (s.sheet.formula key) = .ok e → ∀ name ∈ e.references,
        normalName name < key ∨ normalName name ∉ s.sheet.keys) →
      match after.evaluate (after.sheet.formula key) with
      | .ok value => value = after.sheet.valueAt key
      | .error _ => after.sheet.valueAt key = notANumber := by
  intro after
  have hsheet := h.wellFormed
  have hafter : after.sheet = s.sheet.withValues (s.sheet.recalculated s.settings) :=
    hsheet.recalculate
  have hsolves : s.sheet.Solves s.settings after.sheet.valueAt := by
    refine hsheet.solves_recalculated.congr ?_
    intro key hkey
    rw [hafter, hsheet.valueAt_withValues hkey]
  have hvalues : s.sheet.withValues after.sheet.valueAt = after.sheet := by
    rw [hafter]
    exact Sheet.withValues_congr fun key hkey => hsheet.valueAt_withValues hkey
  have hkeys : after.sheet.keys = s.sheet.keys := by rw [hafter, Sheet.keys_withValues]
  have hformula : ∀ name, after.sheet.formula name = s.sheet.formula name := fun name => by
    rw [hafter, Sheet.formula_withValues]
  refine ⟨hkeys, hformula, ?_, hsolves, fun new hnew => hnew.unique hsheet hsolves, ?_⟩
  · intro key hkey
    exact Sheet.value?_of_mem (by rwa [hsheet.normal key hkey, hkeys])
  · intro key hkey hblank hbefore
    have heval := hsolves.evaluate hkey hblank hbefore
    rwa [hvalues, ← hformula key] at heval

/-- The first cell reads 0 in the second, which has no value yet, and the second reads what the
first has got from it. -/
theorem recalculate_reading_later_cell :
    let s := ((empty {}).setFormula "a1" "B1+1").setFormula "B1" "A1+7"
    s.Reachable ∧
      (∀ new, s.sheet.Solves s.settings new → new "A1" = 1 ∧ new "B1" = 8) ∧
      s.recalculate.2.evaluate "A1+7" = .ok 8 := by
  intro s
  have hs : s.Reachable := .setFormula _ _ (.setFormula _ _ (.empty _))
  obtain ⟨_, hkeep, _, _, hunique, heval⟩ := recalculate_unique_solution hs
  have hA1 : "A1" ∈ s.sheet.keys := by decide +kernel
  have hB1 : "B1" ∈ s.sheet.keys := by decide +kernel
  have hvalueA1 : s.recalculate.2.sheet.valueAt "A1" = 1 := by decide +kernel
  have hvalueB1 : s.recalculate.2.sheet.valueAt "B1" = 8 := by decide +kernel
  refine ⟨hs, fun new hnew => ⟨?_, ?_⟩, ?_⟩
  · rw [hunique new hnew "A1" hA1, hvalueA1]
  · rw [hunique new hnew "B1" hB1, hvalueB1]
  · have hformula : s.recalculate.2.sheet.formula "B1" = "A1+7" := by decide +kernel
    have hreferences : (parse "A1+7").toOption.map Expr.references = some ["A1"] := by
      decide +kernel
    have hbefore : ∀ e, parse (s.sheet.formula "B1") = .ok e → ∀ name ∈ e.references,
        normalName name < "B1" ∨ normalName name ∉ s.sheet.keys := by
      intro e he name hname
      rw [← hkeep "B1", hformula] at he
      rw [he] at hreferences
      obtain rfl := List.mem_singleton.1 (Option.some.inj hreferences ▸ hname)
      exact .inl (by decide +kernel)
    have hblank : allBlank (s.sheet.formula "B1").toList = false := by decide +kernel
    clear_value s
    have hagain := heval "B1" hB1 hblank hbefore
    rw [hformula] at hagain
    generalize s.recalculate.2.evaluate "A1+7" = result at hagain ⊢
    rw [hvalueB1] at hagain
    cases result with
    | ok value => exact congrArg _ hagain
    | error e =>
      have hne : (8 : Float) ≠ notANumber := by decide +kernel
      exact absurd hagain hne

end Spreadsheet

end FormulaSheet
