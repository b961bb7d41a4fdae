import FormulaSheet.Proofs.Recalculation
import Mathlib.Data.List.Induction

/-!
# Runs

A run makes a sheet from the one without cells by edits, which set the formula or the value of a
cell, and recalculations. Whatever names the edits use, the sheet is well-formed after each step
(`Sheet.run_wellFormed`): the keys ascend and are normal forms. A key that is read off the sheet
therefore leads back to its own cell (`Sheet.run_representation`), also where a recalculation
normalizes it a second time to store a value.
-/

namespace FormulaSheet

/-! ## Edits -/

/-- A change of one cell: of its formula, or of its value if there is the cell. -/
inductive Edit where
  | setFormula (name text : String)
  | setValue (name : String) (value : Float)

namespace Edit

/-- The name of the cell as it is written in the edit. -/
def name : Edit → String
  | setFormula name _ => name
  | setValue name _ => name

/-- The key of the cell that the edit is about. -/
def key (e : Edit) : String := normalName e.name

end Edit

/-- The sheet after an edit. -/
def Sheet.edit (sheet : Sheet) : Edit → Sheet
  | .setFormula name text => (sheet.setFormula name text).2
  | .setValue name value => sheet.setValue name value

/-! ## Steps -/

/-- A step of a run. -/
inductive Step where
  | edit (e : Edit)
  | recalculate

/-- The edit that a step is, if it is one. -/
def Step.edit? : Step → Option Edit
  | edit e => some e
  | recalculate => none

namespace Sheet

variable {settings : Settings} {sheet : Sheet} {name text : String} {value : Float}

/-- The sheet after a step. -/
def step (settings : Settings) (sheet : Sheet) : Step → Sheet
  | .edit e => sheet.edit e
  | .recalculate => (sheet.recalculate settings).sheet

/-- The sheet that a run makes from the one without cells. -/
def run (settings : Settings) (steps : List Step) : Sheet := steps.foldl (step settings) .empty

/-- A step more is made of what a run leads to. -/
@[simp] theorem run_concat (steps : List Step) (s : Step) :
    run settings (steps ++ [s]) = (run settings steps).step settings s := by
  rw [run, List.foldl_append, run, List.foldl_cons, List.foldl_nil]

/-! ## The sheets of runs are well-formed -/

/-- An edit keeps a sheet well-formed. -/
theorem WellFormed.edit (h : sheet.WellFormed) (e : Edit) : (sheet.edit e).WellFormed := by
  cases e with
  | setFormula name text => exact h.setFormula
  | setValue name value => exact h.setValue

/-- A step keeps a sheet well-formed. -/
theorem WellFormed.step (h : sheet.WellFormed) (s : Step) : (sheet.step settings s).WellFormed := by
  cases s with
  | edit e => exact h.edit e
  | recalculate =>
    have hvalues : sheet.step settings .recalculate =
        sheet.withValues (sheet.recalculated settings) := h.recalculate
    rw [hvalues]
    exact h.withValues

/-- A run leads to a well-formed sheet. -/
theorem run_wellFormed (settings : Settings) (steps : List Step) :
    (run settings steps).WellFormed := by
  induction steps using List.reverseRecOn with
  | nil => exact .empty
  | append_singleton steps s ih =>
    rw [run_concat]
    exact ih.step s

/-! ## Keys that are read off a sheet -/

/-- No key of a well-formed sheet is there twice. -/
theorem WellFormed.nodup_keys (h : sheet.WellFormed) : sheet.keys.Nodup := by
  refine h.ascending.imp ?_
  intro key other hlt heq
  exact String.lt_irrefl other (heq ▸ hlt)

/-- The sheet with another cell under a key that is there. -/
def replace (sheet : Sheet) (key : String) (cell : Cell) : Sheet :=
  ⟨sheet.cells.map fun (other, present) => (other, if other = key then cell else present)⟩

/-- To replace a cell changes no key. -/
theorem keys_replace {key : String} {cell : Cell} : (sheet.replace key cell).keys = sheet.keys := by
  rw [keys, keys, replace, List.map_map]
  rfl

/-- To replace a cell changes what is found under its key only. -/
theorem get?_replace {key : String} {cell : Cell} : (sheet.replace key cell).get? name =
    (sheet.get? name).map fun present => if normalName name = key then cell else present :=
  lookup_map fun other present => if other = key then cell else present

/-- To replace a cell keeps a sheet well-formed. -/
theorem WellFormed.replace (h : sheet.WellFormed) (key : String) (cell : Cell) :
    (sheet.replace key cell).WellFormed where
  ascending := by rw [keys_replace]; exact h.ascending
  normal := by rw [keys_replace]; exact h.normal

/-- What stands under a key in ascending entries is found there. -/
theorem WellFormed.lookup_eq_some (h : sheet.WellFormed) {key : String} {cell : Cell} :
    sheet.cells.lookup key = some cell ↔ (key, cell) ∈ sheet.cells := by
  constructor
  · intro hcell
    obtain ⟨before, later, hcells, -⟩ := List.lookup_eq_some_iff.1 hcell
    rw [hcells]
    exact List.mem_append_right before List.mem_cons_self
  · intro hmem
    obtain ⟨before, later, hcells⟩ := List.append_of_mem hmem
    refine List.lookup_eq_some_iff.2 ⟨before, later, hcells, ?_⟩
    intro entry hentry
    have hascending := h.ascending
    rw [keys, hcells, List.map_append, List.pairwise_append] at hascending
    have hlt : entry.1 < key :=
      hascending.2.2 entry.1 (List.mem_map_of_mem hentry) key List.mem_cons_self
    exact bne_iff_ne.2 fun heq => String.lt_irrefl key (heq ▸ hlt)

/-- A name whose normal form is a key finds the cell under the key. -/
theorem WellFormed.get?_of_normalName_eq (h : sheet.WellFormed) {key : String} {cell : Cell}
    (hmem : (key, cell) ∈ sheet.cells) (hname : normalName name = key) :
    sheet.get? name = some cell := by
  rw [get?, hname]
  exact h.lookup_eq_some.2 hmem

/-- To set the formula of a cell that exists replaces it and gives back the old formula. -/
theorem WellFormed.setFormula_of_mem (h : sheet.WellFormed) {key : String} {cell : Cell}
    (hmem : (key, cell) ∈ sheet.cells) : sheet.setFormula key text =
      (cell.formula, sheet.replace key ⟨text, cell.value⟩) := by
  have hkey := h.normal key (List.mem_map_of_mem hmem)
  have hcell := h.get?_of_normalName_eq hmem hkey
  have hafter : (sheet.setFormula key text).2.WellFormed := h.setFormula
  refine Prod.ext ?_ (hafter.ext (h.replace ..) ?_)
  · rw [Sheet.setFormula, hcell]
    rfl
  · intro name
    rw [get?_setFormula, get?_replace, hkey, hcell]
    split
    · next heq =>
      rw [h.get?_of_normalName_eq hmem heq]
      rfl
    · exact (Option.map_id' ..).symm

/-- To store a value in a cell that exists replaces it. -/
theorem WellFormed.setValue_of_mem (h : sheet.WellFormed) {key : String} {cell : Cell}
    (hmem : (key, cell) ∈ sheet.cells) :
    sheet.setValue key value = sheet.replace key ⟨cell.formula, value⟩ := by
  have hkey := h.normal key (List.mem_map_of_mem hmem)
  refine h.setValue.ext (h.replace ..) ?_
  intro name
  rw [get?_setValue, get?_replace, hkey, h.get?_of_normalName_eq hmem hkey]
  split
  · next heq =>
    rw [h.get?_of_normalName_eq hmem heq]
    rfl
  · exact (Option.map_id' ..).symm

/-- A key leads to a cell of the sheet: the cell is found under it, and the changes under it put
another cell in the place of this one and leave all others. -/
structure LeadsTo (sheet : Sheet) (key : String) (cell : Cell) : Prop where
  get? : sheet.get? key = some cell
  setFormula (text : String) : sheet.setFormula key text =
    (cell.formula, sheet.replace key ⟨text, cell.value⟩)
  setValue (value : Float) : sheet.setValue key value = sheet.replace key ⟨cell.formula, value⟩

/-- The names of a cell lead to it. -/
theorem WellFormed.leadsTo (h : sheet.WellFormed) {key : String} {cell : Cell}
    (hmem : (key, cell) ∈ sheet.cells) : sheet.LeadsTo key cell where
  get? := h.get?_of_normalName_eq hmem (h.normal key (List.mem_map_of_mem hmem))
  setFormula _ := h.setFormula_of_mem hmem
  setValue _ := h.setValue_of_mem hmem

/-- Two names address the same cell: whatever is asked or changed under one is the same under the
other. -/
structure SameCell (sheet : Sheet) (name other : String) : Prop where
  get? : sheet.get? name = sheet.get? other
  setFormula (text : String) : sheet.setFormula name text = sheet.setFormula other text
  setValue (value : Float) : sheet.setValue name value = sheet.setValue other value

/-- Names of one normal form name one cell. -/
theorem sameCell_of_normalName_eq {other : String} (h : normalName name = normalName other) :
    sheet.SameCell name other := by
  have hget : sheet.get? name = sheet.get? other := by rw [Sheet.get?, h, Sheet.get?]
  refine ⟨hget, fun text => ?_, fun value => ?_⟩
  · rw [Sheet.setFormula, hget, h, Sheet.setFormula]
  · rw [Sheet.setValue, hget, h, Sheet.setValue]

/-- After every run the keys are normal forms, ascend in the order of code points and so differ in
more than case, and each leads to its own cell. The normal form of any name is its own normal form,
and names with one normal form address one cell. -/
theorem run_representation (settings : Settings) (steps : List Step) :
    let sheet := run settings steps
    (∀ key ∈ sheet.keys, normalName key = key) ∧
    sheet.keys.Pairwise (· < ·) ∧
    (∀ key ∈ sheet.keys, ∀ other ∈ sheet.keys, normalName key = normalName other → key = other) ∧
    (∀ key cell, (key, cell) ∈ sheet.cells → sheet.LeadsTo key cell) ∧
    ∀ name, normalName (normalName name) = normalName name ∧
      ∀ other, normalName name = normalName other → sheet.SameCell name other := by
  intro sheet
  have h : sheet.WellFormed := run_wellFormed settings steps
  refine ⟨h.normal, h.ascending, ?_, fun key cell => h.leadsTo, fun name => ⟨?_, ?_⟩⟩
  · intro key hkey other hother heq
    rwa [h.normal key hkey, h.normal other hother] at heq
  · exact normalName_normalName name
  · intro other
    exact sameCell_of_normalName_eq

/-- The upper case of the letter ß is two letters, so that both formulas are set for one cell, and
the recalculation, which normalizes its key again, stores its value there. -/
theorem run_sharp_s :
    let sheet := run {} [.edit (.setFormula "straße" "1"), .edit (.setFormula "Strasse" "2"),
      .recalculate]
    sheet.keys = ["STRASSE"] ∧ sheet.LeadsTo "STRASSE" ⟨"2", 2⟩ ∧
      sheet.SameCell "straße" "STRASSE" := by
  intro sheet
  obtain ⟨-, -, -, hleads, hnames⟩ := run_representation {}
    [.edit (.setFormula "straße" "1"), .edit (.setFormula "Strasse" "2"), .recalculate]
  have hmem : ("STRASSE", (⟨"2", 2⟩ : Cell)) ∈ sheet.cells := by decide +kernel
  have hname : normalName "straße" = normalName "STRASSE" := by decide +kernel
  exact ⟨by decide +kernel, hleads _ _ hmem, (hnames "straße").2 "STRASSE" hname⟩

end Sheet

end FormulaSheet
