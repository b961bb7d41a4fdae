import FormulaSheet.Proofs.LetterCase
import FormulaSheet.Proofs.Runs

/-!
# The case of letters in sheets

Names that are the same but for case address one cell, and formulas that are the same but for case
have one value. So sheets that differ in the case of their formulas only (`Sheet.Alike`) stay so
when both are changed under names, and by formulas, of any case: one step keeps it
(`Sheet.Alike.step`), and thus a run does (`Sheet.run_alike`). `letter_case_never_matters` puts this
together with what case does to a single text.
-/

namespace FormulaSheet

instance (s t : List Char) : Decidable (SameButCase s t) :=
  inferInstanceAs (Decidable (List.Forall₂ (fun c d => c.toLower = d.toLower) s t))

/-- Names that are the same but for case have one normal form. -/
theorem SameButCase.normalName_eq {name other : String}
    (h : SameButCase name.toList other.toList) : normalName name = normalName other :=
  normalName_eq_of_toLower h.map_toLower

/-- Expressions that are alike have one value where names that are the same but for case have. -/
theorem Expr.Alike.eval_eq {tolerance : Float} {lookup lookup' : String → Except Fault Float}
    {e d : Expr} (h : e.Alike d) (hlookup : ∀ name other : String,
      SameButCase name.toList other.toList → lookup name = lookup' other) :
    e.eval tolerance lookup = d.eval tolerance lookup' := by
  induction h with
  | number value => rfl
  | cell hname => exact hlookup _ _ hname
  | unary op _ ih => rw [Expr.eval, Expr.eval, ih]
  | binary op _ _ ih ih' => rw [Expr.eval, Expr.eval, ih, ih']
  | call function _ _ ih ih' => rw [Expr.eval, Expr.eval, ih, ih']

/-! ## Cells -/

/-- The cells have one value, and formulas that are the same but for case. -/
structure Cell.Alike (x y : Cell) : Prop where
  formula : SameButCase x.formula.toList y.formula.toList
  value : x.value = y.value

/-- The entries have one key and cells that are alike. -/
def AlikeEntries (x y : String × Cell) : Prop := x.1 = y.1 ∧ x.2.Alike y.2

section
variable {xs ys : List (String × Cell)} {x y : Cell}

/-- Under one key alike lists hold alike cells, or both hold none. -/
theorem alike_lookup (h : List.Forall₂ AlikeEntries xs ys) (key : String) :
    Option.Rel Cell.Alike (xs.lookup key) (ys.lookup key) := by
  induction h with
  | nil => exact .none
  | @cons entry entry' _ _ hentry _ ih =>
    obtain ⟨key', cell⟩ := entry
    obtain ⟨other, cell'⟩ := entry'
    obtain ⟨rfl, hcell⟩ := hentry
    rw [lookup_cons, lookup_cons]
    split
    · exact .some hcell
    · exact ih

/-- Alike lists stay so when alike cells are put under one key. -/
theorem alike_putCell (h : List.Forall₂ AlikeEntries xs ys) (hcell : x.Alike y) (key : String) :
    List.Forall₂ AlikeEntries (putCell key x xs) (putCell key y ys) := by
  induction h with
  | nil => exact .cons ⟨rfl, hcell⟩ .nil
  | @cons entry entry' _ _ hentry hlater ih =>
    obtain ⟨key', cell⟩ := entry
    obtain ⟨other, cell'⟩ := entry'
    obtain ⟨rfl, hpresent⟩ := hentry
    rw [putCell, putCell]
    split
    · exact .cons ⟨rfl, hcell⟩ (.cons ⟨rfl, hpresent⟩ hlater)
    split
    · exact .cons ⟨rfl, hcell⟩ hlater
    · exact .cons ⟨rfl, hpresent⟩ ih

end

/-! ## Sheets -/

namespace Sheet

/-- The sheets have the same keys and values, and formulas that are the same but for case. -/
def Alike (sheet other : Sheet) : Prop := List.Forall₂ AlikeEntries sheet.cells other.cells

namespace Alike

variable {settings : Settings} {sheet other : Sheet} {name name' text text' : String}

/-- A sheet is alike to itself. -/
theorem refl (sheet : Sheet) : sheet.Alike sheet :=
  List.forall₂_same.2 fun _ _ => ⟨rfl, .refl _, rfl⟩

/-- Alike sheets have the same keys. -/
theorem keys_eq (h : sheet.Alike other) : sheet.keys = other.keys := by
  rw [keys, keys, ← List.forall₂_eq_eq_eq, List.forall₂_map_left_iff, List.forall₂_map_right_iff]
  exact h.imp fun _ _ hentry => hentry.1

/-- Names that are the same but for case find alike cells. -/
theorem get? (h : sheet.Alike other) (hname : SameButCase name.toList name'.toList) :
    Option.Rel Cell.Alike (sheet.get? name) (other.get? name') := by
  rw [Sheet.get?, Sheet.get?, hname.normalName_eq]
  exact alike_lookup h _

/-- Names that are the same but for case find one value. -/
theorem value?_eq (h : sheet.Alike other) (hname : SameButCase name.toList name'.toList) :
    sheet.value? name = other.value? name' := by
  have hget := h.get? hname
  rw [value?, value?]
  generalize sheet.get? name = x at hget ⊢
  generalize other.get? name' = y at hget ⊢
  cases hget with
  | none => rfl
  | some hcell => exact congrArg some hcell.value

/-- References that are the same but for case have one value, or fail in one way. -/
theorem lookup_eq (h : sheet.Alike other) (hname : SameButCase name.toList name'.toList) :
    sheet.lookup name = other.lookup name' := by
  rw [lookup, lookup, h.value?_eq hname, hname.normalName_eq]

/-! ### Formulas -/

/-- A formula has one value, or fails with one fault, in whatever case it is written. -/
theorem evaluate_eq (h : sheet.Alike other) (htext : SameButCase text.toList text'.toList)
    {e : Expr} (he : parse text = .ok e) :
    sheet.evaluate settings text = other.evaluate settings text' := by
  have hparsed := parse_alike htext
  unfold evaluate
  generalize parse text = parsed at hparsed he ⊢
  generalize parse text' = parsed' at hparsed ⊢
  cases hparsed with
  | ok hed => dsimp only; rw [hed.eval_eq fun _ _ hname => h.lookup_eq hname]
  | unexpectedEnd | unexpected => cases he

/-- The formula of a cell gives the cell one value in whatever case it is written. -/
theorem cellValue_eq (h : sheet.Alike other) (htext : SameButCase text.toList text'.toList) :
    sheet.cellValue settings text = other.cellValue settings text' := by
  have hblank : allBlank text.toList = allBlank text'.toList := htext.all ignoresCase_isBlank
  have hparsed := parse_alike htext
  rw [cellValue, cellValue, hblank]
  unfold evaluate
  generalize parse text = parsed at hparsed ⊢
  generalize parse text' = parsed' at hparsed ⊢
  cases hparsed with
  | ok hed => dsimp only; rw [hed.eval_eq fun _ _ hname => h.lookup_eq hname]
  | unexpectedEnd | unexpected => rfl

/-! ### Changes -/

/-- Alike sheets stay so when formulas are set under names, both alike but for case. -/
theorem setFormula (h : sheet.Alike other) (hname : SameButCase name.toList name'.toList)
    (htext : SameButCase text.toList text'.toList) :
    (sheet.setFormula name text).2.Alike (other.setFormula name' text').2 := by
  rw [Sheet.setFormula, Sheet.setFormula, hname.normalName_eq]
  refine alike_putCell h ⟨htext, ?_⟩ _
  have hget := h.get? hname
  generalize sheet.get? name = x at hget ⊢
  generalize other.get? name' = y at hget ⊢
  cases hget with
  | none => rfl
  | some hcell => exact hcell.value

/-- Alike sheets stay so when one value is set under names that are alike but for case. -/
theorem setValue (h : sheet.Alike other) (hname : SameButCase name.toList name'.toList)
    (value : Float) : (sheet.setValue name value).Alike (other.setValue name' value) := by
  have hget := h.get? hname
  rw [Sheet.setValue, Sheet.setValue, hname.normalName_eq]
  generalize sheet.get? name = x at hget ⊢
  generalize other.get? name' = y at hget ⊢
  cases hget with
  | none => exact h
  | @some x y hcell =>
    have hnew : Cell.Alike { x with value } { y with value } := ⟨hcell.formula, rfl⟩
    exact alike_putCell h hnew _

/-- Alike sheets stay so when the same cells are visited with formulas of any case. -/
theorem recalculateCells {xs ys : List (String × String)} (h : sheet.Alike other)
    (hcells : List.Forall₂ (fun x y => x.1 = y.1 ∧ SameButCase x.2.toList y.2.toList) xs ys) :
    (sheet.recalculateCells settings xs).sheet.Alike
      (other.recalculateCells settings ys).sheet := by
  induction hcells generalizing sheet other with
  | nil => exact h
  | @cons x y _ _ hxy _ ih =>
    obtain ⟨key, text⟩ := x
    obtain ⟨key', text'⟩ := y
    obtain ⟨rfl, htext⟩ := hxy
    rw [recalculateCells_cons, recalculateCells_cons, h.cellValue_eq htext]
    exact ih (h.setValue (.refl _) _)

/-- Alike sheets stay so when both are recalculated. -/
theorem recalculate (h : sheet.Alike other) :
    (sheet.recalculate settings).sheet.Alike (other.recalculate settings).sheet := by
  refine h.recalculateCells ?_
  rw [List.forall₂_map_left_iff, List.forall₂_map_right_iff]
  exact h.imp fun _ _ hentry => ⟨hentry.1, hentry.2.formula⟩

end Alike

end Sheet

/-! ## Runs -/

/-- The steps are the same but for the case of names and formulas. -/
inductive Step.Alike : Step → Step → Prop
  | setFormula {name name' text text' : String} : SameButCase name.toList name'.toList →
      SameButCase text.toList text'.toList →
      Alike (.edit (.setFormula name text)) (.edit (.setFormula name' text'))
  | setValue {name name' : String} (value : Float) : SameButCase name.toList name'.toList →
      Alike (.edit (.setValue name value)) (.edit (.setValue name' value))
  | recalculate : Alike .recalculate .recalculate

namespace Sheet

variable {settings : Settings} {sheet other : Sheet} {steps others : List Step}

/-- One step on either side keeps sheets alike. -/
theorem Alike.step {s s' : Step} (h : sheet.Alike other) (hs : s.Alike s') :
    (sheet.step settings s).Alike (other.step settings s') := by
  cases hs with
  | setFormula hname htext => exact h.setFormula hname htext
  | setValue value hname => exact h.setValue hname value
  | recalculate => exact h.recalculate

/-- Alike sheets stay so through steps that are alike. -/
theorem Alike.foldl_step (hsteps : List.Forall₂ Step.Alike steps others) (h : sheet.Alike other) :
    (steps.foldl (Sheet.step settings) sheet).Alike
      (others.foldl (Sheet.step settings) other) := by
  induction hsteps generalizing sheet other with
  | nil => exact h
  | cons hs _ ih => exact ih (h.step hs)

/-- Runs of steps that are the same but for case make sheets that are alike. -/
theorem run_alike (h : List.Forall₂ Step.Alike steps others) :
    (run settings steps).Alike (run settings others) :=
  .foldl_step h (.refl .empty)

end Sheet

/-- Texts that are the same but for the case of ASCII letters are formulas or not together: their
expressions are the same but for the case of names and have one value, or fail with one fault, in
every sheet, and their errors are the same but for the case of the character that was found. So the
case of names and formulas changes no key and no value in any run. -/
theorem letter_case_never_matters :
    (∀ text other : String, SameButCase text.toList other.toList →
      SameReading (parse text) (parse other) ∧
      ∀ e, parse text = .ok e → ∀ (settings : Settings) (sheet : Sheet),
        sheet.evaluate settings text = sheet.evaluate settings other) ∧
    ∀ (settings : Settings) (steps others : List Step), List.Forall₂ Step.Alike steps others →
      (Sheet.run settings steps).keys = (Sheet.run settings others).keys ∧
      ∀ name other : String, SameButCase name.toList other.toList →
        (Sheet.run settings steps).value? name = (Sheet.run settings others).value? other := by
  refine ⟨fun text other htext => ⟨parse_alike htext, fun e he settings sheet => ?_⟩, ?_⟩
  · exact (Sheet.Alike.refl sheet).evaluate_eq htext he
  · intro settings steps others hsteps
    have h : (Sheet.run settings steps).Alike (Sheet.run settings others) := Sheet.run_alike hsteps
    exact ⟨h.keys_eq, fun _ _ hname => h.value?_eq hname⟩

/-- Words and names that touch each other, and a name with a letter beyond ASCII, whose case counts
as written. -/
theorem letter_case_of_touching_words :
    let text := "nOtb1 oR mAx(1,É2)"
    let other := "NOTB1 Or MaX(1,É2)"
    let steps : List Step :=
      [.edit (.setFormula "é2" text), .edit (.setFormula "b1" "3"), .recalculate]
    let others : List Step :=
      [.edit (.setFormula "é2" other), .edit (.setFormula "B1" "3"), .recalculate]
    SameButCase text.toList other.toList ∧ SameReading (parse text) (parse other) ∧
    List.Forall₂ Step.Alike steps others ∧
    (Sheet.run {} steps).keys = (Sheet.run {} others).keys ∧
    (Sheet.run {} steps).value? "b1" = (Sheet.run {} others).value? "B1" ∧
    (Sheet.run {} others).value? "É2" = some 1 := by
  intro text other steps others
  have htext : SameButCase text.toList other.toList := by decide +kernel
  have hname : SameButCase "b1".toList "B1".toList := by decide +kernel
  obtain ⟨htexts, hruns⟩ := letter_case_never_matters
  have hsteps : List.Forall₂ Step.Alike steps others :=
    .cons (.setFormula (.refl _) htext) (.cons (.setFormula hname (.refl _))
      (.cons .recalculate .nil))
  obtain ⟨hkeys, hvalues⟩ := hruns {} steps others hsteps
  exact ⟨htext, (htexts text other htext).1, hsteps, hkeys, hvalues "b1" "B1" hname,
    by decide +kernel⟩

end FormulaSheet
