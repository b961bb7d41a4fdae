import FormulaSheet.Proofs.DecimalText
import FormulaSheet.Proofs.FloatBits
import FormulaSheet.Proofs.ParseComplete
import FormulaSheet.Proofs.Runs

/-!
# Values and their texts

The text of a value is a formula (`parse_valueText`). For a finite value it is the number that it
was written from, after a minus sign if the sign bit is set, and its value is the same value again.
For the others it is the name of a cell. So a sheet of finite values that gets the texts of its
values for formulas is not changed by a recalculation (`valueText_round_trip`).
-/

namespace FormulaSheet

variable {x y : Float}

/-! ## The expression of a value's text -/

/-- The expression that the text of a value stands for. -/
def valueExpr (x : Float) : Expr :=
  if x.isNaN then .cell "NaN"
  else
    let code := Binary64.magnitudeCode x
    let magnitude := if code = Binary64.infinityCode then .cell "Infinity"
      else .number (Binary64.ofCode code)
    if Binary64.isNegative x then .unary .neg magnitude else magnitude

/-- A finite value is a number. -/
theorem isNaN_of_isFinite (h : x.isFinite = true) : x.isNaN = false := by
  refine Bool.eq_false_iff.2 ?_
  intro hnan
  exact Nat.lt_asymm (Binary64.isFinite_iff.1 h) (Binary64.isNaN_iff.1 hnan)

/-- A finite value is read as its magnitude, negated if its sign bit is set. -/
theorem valueExpr_of_isFinite (h : x.isFinite = true) : valueExpr x =
    if Binary64.isNegative x then .unary .neg (.number (Binary64.ofCode (Binary64.magnitudeCode x)))
    else .number x := by
  rw [valueExpr, isNaN_of_isFinite h, if_neg Bool.false_ne_true]
  dsimp only
  rw [if_neg (Binary64.isFinite_iff.1 h).ne]
  split
  · rfl
  · next hsign => rw [Binary64.ofCode_magnitudeCode (Bool.eq_false_iff.2 hsign)]

/-- The text of a finite value stands for an expression of that value. -/
theorem eval_valueExpr (h : x.isFinite = true) {tolerance : Float}
    {lookup : String → Except Fault Float} : (valueExpr x).eval tolerance lookup = .ok x := by
  rw [valueExpr_of_isFinite h]
  split
  · next hsign => exact congrArg Except.ok (Binary64.neg_ofCode_magnitudeCode hsign)
  · rfl

/-- The text of a finite value is that of its magnitude, behind a minus if its sign bit is set. -/
theorem valueText_of_isFinite (h : x.isFinite = true) : (valueText x).toList =
    (if Binary64.isNegative x then ['-'] else []) ++
      (Binary64.shortest (Binary64.magnitudeCode x)).chars := by
  rw [valueText, String.toList_ofList, valueChars, isNaN_of_isFinite h, if_neg Bool.false_ne_true]
  dsimp only
  rw [if_neg (Binary64.isFinite_iff.1 h).ne]

/-! ## Reading the text -/

/-- The minus sign as a lexeme. -/
def Lexeme.minus : Lexeme := ⟨.mark '-', ['-'], [], .mark (by decide), allBlank_nil⟩

/-- A token alone or after a minus sign, without white space. -/
def Layout.ofSign (negative : Bool) {t : Token} {w : List Char} (h : t.Spells w)
    (hnot : ¬ t.BeginsWithNot) : Layout where
  before := []
  lexemes := if negative then [.minus, ⟨t, w, [], h, allBlank_nil⟩]
    else [⟨t, w, [], h, allBlank_nil⟩]
  blank := allBlank_nil
  notNot := by
    have hminus : ¬ Lexeme.minus.token.BeginsWithNot := id
    cases negative <;> simp [hminus, hnot]
  apart := by cases negative <;> simp [Lexeme.minus, Lexeme.Apart, Token.IsName]

/-- A minus in front of an atom negates it. -/
theorem parse_ofSign (negative : Bool) {t : Token} {w : List Char} {e : Expr} (h : t.Spells w)
    (hnot : ¬ t.BeginsWithNot) (he : Derives .atom [t] e) :
    parse (String.ofList ((if negative then ['-'] else []) ++ w)) =
      .ok (if negative then .unary .neg e else e) := by
  cases negative with
  | false =>
    have hsigned : Derives .signed [t] e := @Derives.signed [] _ _ he
    have hparse := Layout.parse_text (l := .ofSign false h hnot) hsigned.of_signed
    simpa [Layout.text, Layout.ofSign, Lexeme.text] using hparse
  | true =>
    have hsigned : Derives .signed [.mark '-', t] (.unary .neg e) := @Derives.signed [.neg] _ _ he
    have hparse := Layout.parse_text (l := .ofSign true h hnot) hsigned.of_signed
    simpa [Layout.text, Layout.ofSign, Lexeme.minus, Lexeme.text] using hparse

/-- A name is read as a reference, after a minus sign as the negation of one. -/
theorem parse_ofSign_name (negative : Bool) {c : Char} {cs : List Char} (hc : isLetter c = true)
    (hcs : ∀ d ∈ cs, isLetterOrNumeral d = true)
    (hnot : ¬ ((c :: cs).take 3).map Char.toLower = ['n', 'o', 't']) :
    parse (String.ofList ((if negative then ['-'] else []) ++ c :: cs)) =
      .ok (if negative then .unary .neg (.cell (String.ofList (c :: cs)))
        else .cell (String.ofList (c :: cs))) :=
  parse_ofSign negative (.name hc hcs) hnot .name

/-- The number that is read off the text of a finite magnitude is that magnitude. -/
theorem Binary64.toFloat_written_shortest {code : Nat} (h : code < infinityCode) :
    (shortest code).written.toFloat = ofCode code := by
  rw [Decimal.toFloat, Decimal.nearestCode_written, nearestCode_shortest h]

/-- The text of a value is read as an expression. -/
theorem parse_valueText (x : Float) : parse (valueText x) = .ok (valueExpr x) := by
  rw [valueText, valueChars, valueExpr]
  split
  · exact parse_ofSign_name false rfl (List.all_eq_true.1 rfl) (by decide)
  · next hnan =>
    dsimp only
    split
    · exact parse_ofSign_name _ rfl (List.all_eq_true.1 rfl) (by decide)
    · next hinfinity =>
      have hle := Nat.not_lt.1 (mt Binary64.isNaN_iff.2 hnan)
      rw [← Binary64.toFloat_written_shortest (Nat.lt_of_le_of_ne hle hinfinity)]
      exact parse_ofSign _ (Decimal.spells_chars _) id .number

/-- A text that is read as an expression has the value of that expression. -/
theorem Sheet.evaluate_of_parse {settings : Settings} {sheet : Sheet} {text : String} {e : Expr}
    (hparse : parse text = .ok e) (heval : e.eval settings.tolerance sheet.lookup = .ok x) :
    sheet.evaluate settings text = .ok x := by
  unfold evaluate
  generalize parse text = parsed at hparse ⊢
  subst hparse
  dsimp only
  rw [heval]

/-- The text of a finite value has this value. -/
theorem evaluate_valueText (h : x.isFinite = true) (settings : Settings) (sheet : Sheet) :
    sheet.evaluate settings (valueText x) = .ok x :=
  Sheet.evaluate_of_parse (parse_valueText x) (eval_valueExpr h)

/-- Values with one text are equal. -/
theorem valueText_injective (hx : x.isFinite = true) (hy : y.isFinite = true)
    (h : valueText x = valueText y) : x = y := by
  have hvalue := evaluate_valueText hx {} .empty
  rw [h, evaluate_valueText hy {} .empty] at hvalue
  exact (Except.ok.inj hvalue).symm

/-! ## Values that are not finite -/

/-- What is not a number is written as a word. -/
theorem valueText_of_isNaN (h : x.isNaN = true) : valueText x = "NaN" := by
  rw [valueText, valueChars, if_pos h]
  rfl

/-- An infinity is written as a word, behind a minus if its sign bit is set. -/
theorem valueText_of_isInf (h : x.isInf = true) :
    valueText x = if Binary64.isNegative x then "-Infinity" else "Infinity" := by
  have hcode := Binary64.isInf_iff.1 h
  have hnan : ¬ x.isNaN = true := by
    rw [Binary64.isNaN_iff, hcode]
    exact Nat.lt_irrefl _
  rw [valueText, valueChars, if_neg hnan]
  dsimp only
  rw [if_pos hcode]
  split <;> rfl

/-- A value that is not finite is none or infinite. -/
theorem isNaN_or_isInf (h : x.isFinite = false) : x.isNaN = true ∨ x.isInf = true := by
  rw [Binary64.isNaN_iff, Binary64.isInf_iff]
  have hle := Nat.not_lt.1 (mt Binary64.isFinite_iff.2 (Bool.eq_false_iff.1 h))
  exact (Nat.lt_or_eq_of_le hle).imp id Eq.symm

/-- The word for what is not a number is read as a reference. -/
theorem parse_nan : parse "NaN" = .ok (.cell "NaN") :=
  parse_ofSign_name false rfl (List.all_eq_true.1 rfl) (by decide)

/-- The word for infinity is read as a reference. -/
theorem parse_infinity : parse "Infinity" = .ok (.cell "Infinity") :=
  parse_ofSign_name false rfl (List.all_eq_true.1 rfl) (by decide)

/-- The word for minus infinity is read as the negation of a reference. -/
theorem parse_neg_infinity : parse "-Infinity" = .ok (.unary .neg (.cell "Infinity")) :=
  parse_ofSign_name true rfl (List.all_eq_true.1 rfl) (by decide)

/-! ## Formulas that have the values of their cells -/

/-- The text of a finite value is not blank. -/
theorem allBlank_valueText (h : x.isFinite = true) : allBlank (valueText x).toList = false := by
  rw [valueText_of_isFinite h]
  obtain ⟨c, cs, hchars, hc⟩ :=
    (Decimal.spells_chars (Binary64.shortest (Binary64.magnitudeCode x))).head
  refine Bool.eq_false_iff.2 ?_
  intro hblank
  have hmem := List.all_eq_true.1 hblank c (by simp [hchars])
  exact Bool.false_ne_true (hc ▸ hmem)

namespace Sheet

variable {settings : Settings} {sheet : Sheet}

/-- Each formula has the value that its cell has already. -/
def Settled (settings : Settings) (sheet : Sheet) : Prop :=
  ∀ key cell, (key, cell) ∈ sheet.cells →
    sheet.evaluateCell settings cell.formula = .ok cell.value

/-- To store the value that a cell has changes nothing. -/
theorem WellFormed.setValue_self (h : sheet.WellFormed) {key : String} {cell : Cell}
    (hmem : (key, cell) ∈ sheet.cells) : sheet.setValue key cell.value = sheet := by
  have hcell : sheet.get? key = some cell :=
    h.get?_of_normalName_eq hmem (h.normal key (List.mem_map_of_mem hmem))
  refine h.setValue.ext h ?_
  intro name
  rw [get?_setValue]
  split
  · next heq => rw [hcell, get?, heq, ← get?, hcell, Option.map_some]
  · rfl

/-- Visits leave a sheet as it is if each finds the value that the cell has already. -/
theorem WellFormed.recalculateCells_eq_self (h : sheet.WellFormed) {cells : List (String × String)}
    (hcells : ∀ entry ∈ cells, ∃ cell, (entry.1, cell) ∈ sheet.cells ∧
      sheet.evaluateCell settings entry.2 = .ok cell.value) :
    sheet.recalculateCells settings cells = ⟨sheet, []⟩ := by
  induction cells with
  | nil => rfl
  | cons entry later ih =>
    obtain ⟨key, text⟩ := entry
    obtain ⟨⟨cell, hmem, hvalue⟩, hlater⟩ := List.forall_mem_cons.1 hcells
    dsimp only at hmem hvalue
    rw [Sheet.recalculateCells, hvalue]
    dsimp only
    rw [h.setValue_self hmem, ih hlater]

/-- A recalculation leaves a sheet as it is whose formulas have the values of their cells. -/
theorem WellFormed.recalculate_of_settled (h : sheet.WellFormed)
    (hsettled : sheet.Settled settings) : sheet.recalculate settings = ⟨sheet, []⟩ := by
  refine h.recalculateCells_eq_self ?_
  intro entry hentry
  obtain ⟨⟨key, cell⟩, hmem, rfl⟩ := List.mem_map.1 hentry
  exact ⟨cell, hmem, hsettled key cell hmem⟩

end Sheet

/-! ## Formulas that are the texts of values -/

/-- The cell with the text of its value for its formula. -/
def Cell.written (cell : Cell) : Cell := { cell with formula := valueText cell.value }

namespace Sheet

variable {settings : Settings} {sheet : Sheet} {names : List String}

/-- Sets the texts of the values of cells for their formulas, under one name after the other. -/
def writeValues (sheet : Sheet) (names : List String) : Sheet :=
  names.foldl (fun s name => (s.setFormula name (s.valueText name)).2) sheet

/-- What is found after the text of one value has been set. -/
theorem get?_setFormula_valueText {other : String} (hother : sheet.contains other = true)
    (name : String) : (sheet.setFormula other (sheet.valueText other)).2.get? name =
      (sheet.get? name).map fun cell =>
        if normalName name = normalName other then cell.written else cell := by
  obtain ⟨cell, hcell⟩ := Option.isSome_iff_exists.1 hother
  rw [get?_setFormula, valueText, value?, hcell]
  split
  · next heq =>
    rw [get?, heq, ← get?, hcell]
    rfl
  · exact (Option.map_id' ..).symm

/-- To replace formulas by the text of their values adds no cell and removes none. -/
theorem contains_setFormula_valueText {other : String} (hother : sheet.contains other = true)
    (name : String) : (sheet.setFormula other (sheet.valueText other)).2.contains name =
      sheet.contains name := by
  rw [contains, get?_setFormula_valueText hother, Option.isSome_map, contains]

/-- What is found after the texts of values have been set. -/
theorem get?_writeValues (hnames : ∀ name ∈ names, sheet.contains name = true) (name : String) :
    (sheet.writeValues names).get? name = (sheet.get? name).map fun cell =>
      if normalName name ∈ names.map normalName then cell.written else cell := by
  induction names generalizing sheet with
  | nil => exact (Option.map_id' ..).symm
  | cons first later ih =>
    obtain ⟨hfirst, hlater⟩ := List.forall_mem_cons.1 hnames
    have hkept : ∀ name ∈ later,
        (sheet.setFormula first (sheet.valueText first)).2.contains name = true := by
      intro name hname
      rw [contains_setFormula_valueText hfirst]
      exact hlater name hname
    rw [writeValues, List.foldl_cons, ← writeValues, ih hkept, get?_setFormula_valueText hfirst,
      Option.map_map]
    congr 1
    funext cell
    simp only [Function.comp_apply, List.map_cons, List.mem_cons]
    by_cases heq : normalName name = normalName first
    · -- the text may be set a second time, but it is the same, for the value is still the same
      have hagain : cell.written.written = cell.written := rfl
      simp only [heq, true_or, if_true, hagain, ite_self]
    · simp only [heq, false_or, if_false]

/-- To write values keeps a sheet well-formed. -/
theorem WellFormed.writeValues (h : sheet.WellFormed) : (sheet.writeValues names).WellFormed := by
  induction names generalizing sheet with
  | nil => exact h
  | cons first later ih => exact ih h.setFormula

/-- The texts of values do not change values. -/
theorem value?_writeValues (hnames : ∀ name ∈ names, sheet.contains name = true) (name : String) :
    (sheet.writeValues names).value? name = sheet.value? name := by
  rw [value?, get?_writeValues hnames, Option.map_map, value?]
  congr 1
  funext cell
  rw [Function.comp_apply]
  split <;> rfl

/-- A cell with the text of a finite value gets that value. -/
theorem evaluateCell_valueText (h : x.isFinite = true) (settings : Settings) (sheet : Sheet) :
    sheet.evaluateCell settings (FormulaSheet.valueText x) = .ok x := by
  rw [evaluateCell, allBlank_valueText h, if_neg Bool.false_ne_true]
  exact evaluate_valueText h settings sheet

/-- A sheet of finite values is settled once the text of each has been set. -/
theorem WellFormed.settled_writeValues (h : sheet.WellFormed)
    (hfinite : ∀ entry ∈ sheet.cells, entry.2.value.isFinite = true)
    (hnames : ∀ name ∈ names, sheet.contains name = true)
    (hall : ∀ key ∈ sheet.keys, key ∈ names.map normalName) :
    (sheet.writeValues names).Settled settings := by
  intro key cell hmem
  have hkey := h.writeValues.normal key (List.mem_map_of_mem hmem)
  have hget := h.writeValues.get?_of_normalName_eq hmem hkey
  rw [get?_writeValues hnames, Option.map_eq_some_iff] at hget
  obtain ⟨before, hbefore, rfl⟩ := hget
  rw [get?, hkey, h.lookup_eq_some] at hbefore
  rw [if_pos (hkey.symm ▸ hall key (List.mem_map_of_mem hbefore))]
  exact evaluateCell_valueText (hfinite _ hbefore) _ _

/-- After the texts of all values have been set, each is the formula of its cell. -/
theorem formula_writeValues (hnames : ∀ name ∈ names, sheet.contains name = true)
    (hall : ∀ name, sheet.contains name = true → normalName name ∈ names.map normalName)
    (name : String) : (sheet.writeValues names).formula name = sheet.valueText name := by
  rw [formula, get?_writeValues hnames, valueText, value?]
  cases hcell : sheet.get? name with
  | none => rfl
  | some cell =>
    rw [Option.map_some, if_pos (hall name (Option.isSome_iff_exists.2 ⟨cell, hcell⟩))]
    rfl

end Sheet

/-- Every finite value, zeros of either sign included, is the value of its text in every sheet: the
text is a number, or the negation of a number if the sign bit is set. So no two finite values have
one text. If all values of a sheet are finite and their texts are set for the formulas of their
cells, in any order and under any spelling of the names, a recalculation changes nothing and no
formula fails. The texts of the other values are read as references to cells, and not as numbers. -/
theorem valueText_round_trip :
    (∀ x : Float, x.isFinite = true →
      parse (valueText x) = .ok (if Binary64.isNegative x
        then .unary .neg (.number (Binary64.ofCode (Binary64.magnitudeCode x))) else .number x) ∧
      ∀ (settings : Settings) (sheet : Sheet), sheet.evaluate settings (valueText x) = .ok x) ∧
    (∀ x y : Float, x.isFinite = true → y.isFinite = true → valueText x = valueText y → x = y) ∧
    (∀ (settings : Settings) (sheet : Sheet) (names : List String), sheet.WellFormed →
      (∀ entry ∈ sheet.cells, entry.2.value.isFinite = true) →
      (∀ name, sheet.contains name = true ↔ normalName name ∈ names.map normalName) →
      let written := sheet.writeValues names
      (∀ name, written.formula name = sheet.valueText name ∧
        written.value? name = sheet.value? name) ∧
      written.recalculate settings = ⟨written, []⟩) ∧
    (∀ x : Float, x.isFinite = false →
      (x.isNaN = true ∧ valueText x = "NaN") ∨
      (x.isInf = true ∧
        valueText x = if Binary64.isNegative x then "-Infinity" else "Infinity")) ∧
    parse "NaN" = .ok (.cell "NaN") ∧ normalName "NaN" = "NAN" ∧
    parse "Infinity" = .ok (.cell "Infinity") ∧ normalName "Infinity" = "INFINITY" ∧
    parse "-Infinity" = .ok (.unary .neg (.cell "Infinity")) := by
  refine ⟨?finite, fun x y => valueText_injective, ?sheet, ?other, parse_nan, by decide +kernel,
    parse_infinity, by decide +kernel, parse_neg_infinity⟩
  case finite =>
    intro x hx
    exact ⟨valueExpr_of_isFinite hx ▸ parse_valueText x, evaluate_valueText hx⟩
  case sheet =>
    intro settings sheet names hsheet hfinite hnames written
    have hnames' : ∀ name ∈ names, sheet.contains name = true := by
      intro name hname
      exact (hnames name).2 (List.mem_map_of_mem hname)
    have hall : ∀ key ∈ sheet.keys, key ∈ names.map normalName := by
      intro key hkey
      have hnormal := hsheet.normal key hkey
      have hcontains : sheet.contains key = true := Sheet.contains_iff.2 (hnormal.symm ▸ hkey)
      exact hnormal ▸ (hnames key).1 hcontains
    refine ⟨fun name => ⟨?_, Sheet.value?_writeValues hnames' name⟩, ?_⟩
    · exact Sheet.formula_writeValues hnames' (fun name => (hnames name).1) name
    · exact hsheet.writeValues.recalculate_of_settled
        (hsheet.settled_writeValues hfinite hnames' hall)
  case other =>
    intro x hx
    obtain hnan | hinf := isNaN_or_isInf hx
    · exact .inl ⟨hnan, valueText_of_isNaN hnan⟩
    · exact .inr ⟨hinf, valueText_of_isInf hinf⟩

/-- Negative zero keeps its sign, and the cells their values, when the texts are set in the other
order of the cells and under other spellings of their names. -/
theorem valueText_round_trip_negative_zero :
    valueText (-0) = "-0" ∧ Sheet.empty.evaluate {} "-0" = .ok (-0) ∧
    let sheet := Sheet.run {} [.edit (.setFormula "A1" "1+"), .edit (.setFormula "B1" "A1"),
      .edit (.setValue "A1" (-0)), .edit (.setValue "B1" 2.5)]
    let written := sheet.writeValues ["b1", "a1"]
    written.formula "A1" = "-0" ∧ written.formula "B1" = "2.5" ∧
      written.recalculate {} = ⟨written, []⟩ := by
  obtain ⟨hvalues, -, hsheets, -⟩ := valueText_round_trip
  have htext : valueText (-0) = "-0" := by decide +kernel
  have hfinite : (-0 : Float).isFinite = true := by decide +kernel
  refine ⟨htext, htext ▸ (hvalues (-0) hfinite).2 {} .empty, ?_⟩
  intro sheet written
  have hsheet : sheet.WellFormed := Sheet.run_wellFormed ..
  have hcells : ∀ entry ∈ sheet.cells, entry.2.value.isFinite = true := by decide +kernel
  have hkeys : sheet.keys = ["A1", "B1"] := by decide +kernel
  have hnames : ["b1", "a1"].map normalName = ["B1", "A1"] := by decide +kernel
  have hcovered : ∀ name, sheet.contains name = true ↔
      normalName name ∈ ["b1", "a1"].map normalName := by
    intro name
    rw [Sheet.contains_iff, hkeys, hnames]
    exact (List.Perm.swap ..).mem_iff
  obtain ⟨hcell, hrecalculate⟩ := hsheets {} sheet ["b1", "a1"] hsheet hcells hcovered
  have hA1 : sheet.valueText "A1" = "-0" := by decide +kernel
  have hB1 : sheet.valueText "B1" = "2.5" := by decide +kernel
  exact ⟨(hcell "A1").1.trans hA1, (hcell "B1").1.trans hB1, hrecalculate⟩

end FormulaSheet
