import FormulaSheet.Proofs.Runs
import Mathlib.Data.Finset.Card
import Mathlib.Data.List.Dedup
import Mathlib.Data.List.TakeWhile

/-!
# A sheet answers by its history

The history of a run is the list of its edits, where a recalculation stands for the values that it
stores one after the other (`Sheet.history`). What a sheet answers about a name can be read off the
edits of that name's normal form: the last text that was set, and the last value that was stored
since the first text was set (`History.cell?`). So edits of different cells do not touch each other,
and their order among each other does not matter (`Sheet.run_answers_by_history`).
-/

namespace FormulaSheet

/-! ## What an edit does to a cell -/

namespace Edit

variable {key : String} {e : Edit}

/-- The text that an edit sets under a key. -/
def text? (key : String) : Edit → Option String
  | setFormula name text => if key = normalName name then some text else none
  | setValue .. => none

/-- The value that an edit stores under a key. -/
def value? (key : String) : Edit → Option Float
  | setFormula .. => none
  | setValue name value => if key = normalName name then some value else none

/-- What an edit makes of the cell under a key. -/
def update (key : String) (cell : Option Cell) : Edit → Option Cell
  | setFormula name text =>
    if key = normalName name then some { cell.getD {} with formula := text } else cell
  | setValue name value =>
    if key = normalName name then cell.map fun cell => { cell with value } else cell

/-- The edit under the normal form of its name. -/
def normal : Edit → Edit
  | setFormula name text => setFormula (normalName name) text
  | setValue name value => setValue (normalName name) value

/-- An edit and its normal form change the same cell. -/
theorem update_normal (cell : Option Cell) : e.normal.update key cell = e.update key cell := by
  cases e with
  | setFormula name text => rw [normal, update, update, normalName_normalName]
  | setValue name value => rw [normal, update, update, normalName_normalName]

/-- An edit leaves the cells under other keys as they are. -/
theorem update_of_ne (cell : Option Cell) (h : e.key ≠ key) : e.update key cell = cell := by
  cases e with
  | setFormula name text => exact if_neg (Ne.symm h)
  | setValue name value => exact if_neg (Ne.symm h)

end Edit

/-- An edit changes the cell that is found under its name. -/
theorem Sheet.get?_edit {sheet : Sheet} {e : Edit} {name : String} :
    (sheet.edit e).get? name = e.update (normalName name) (sheet.get? name) := by
  cases e with
  | setFormula other text =>
    rw [edit, get?_setFormula, Edit.update]
    split
    · next h => rw [get?, get?, h]
    · rfl
  | setValue other value =>
    rw [edit, get?_setValue, Edit.update]
    split
    · next h => rw [get?, get?, h]
    · rfl

/-! ## Histories -/

namespace History

variable {key : String} {edits : List Edit}

/-- The texts that were set under a key, from the first to the last. -/
def texts (key : String) (edits : List Edit) : List String := edits.filterMap (·.text? key)

/-- The last text that was set under a key, empty if none was. -/
def lastText (key : String) (edits : List Edit) : String := (texts key edits).getLast?.getD ""

/-- The values that were stored under a key after the first text was set under it. -/
def valuesSince (key : String) (edits : List Edit) : List Float :=
  (edits.dropWhile fun e => (e.text? key).isNone).filterMap (·.value? key)

/-- The last value that was stored under a key after the first text was set under it, 0 if none
was. -/
def lastValue (key : String) (edits : List Edit) : Float :=
  (valuesSince key edits).getLast?.getD 0

/-- The cell under a key after edits: there is one if a text was set under the key. -/
def cell? (key : String) (edits : List Edit) : Option Cell :=
  if texts key edits = [] then none else some ⟨lastText key edits, lastValue key edits⟩

/-- The keys that texts were set under. -/
def keysSet (edits : List Edit) : List String :=
  edits.filterMap fun
    | .setFormula name _ => some (normalName name)
    | .setValue .. => none

/-- The edits of a key, under that key. -/
def ofKey (key : String) (edits : List Edit) : List Edit :=
  (edits.filter (·.key == key)).map Edit.normal

/-- The texts of two histories come one after the other. -/
theorem texts_append (edits later : List Edit) :
    texts key (edits ++ later) = texts key edits ++ texts key later :=
  List.filterMap_append

/-- A further edit adds its text to the history. -/
theorem texts_concat (e : Edit) :
    texts key (edits ++ [e]) = texts key edits ++ (e.text? key).toList := by
  rw [texts_append, texts, texts]
  cases h : e.text? key <;> simp [h]

/-- Where no text was set, no edit comes after one that sets a text. -/
theorem dropWhile_eq_nil_iff :
    (edits.dropWhile fun e => (e.text? key).isNone) = [] ↔ texts key edits = [] := by
  rw [texts, List.filterMap_eq_nil_iff, List.dropWhile_eq_nil_iff]
  simp only [Option.isNone_iff_eq_none]

/-- A further edit adds its value, if there is a cell already. -/
theorem valuesSince_concat (e : Edit) : valuesSince key (edits ++ [e]) =
    if texts key edits = [] then [] else valuesSince key edits ++ (e.value? key).toList := by
  simp only [valuesSince, List.dropWhile_append, List.isEmpty_iff, dropWhile_eq_nil_iff]
  split
  · cases e with
    | setFormula name text =>
      rw [List.dropWhile_cons]
      split <;> rfl
    | setValue => rfl
  · rw [List.filterMap_append]
    cases h : e.value? key <;> simp [h]

/-- A further edit changes the cell that the history gives as it changes the cell of a sheet. -/
theorem cell?_concat (e : Edit) : cell? key (edits ++ [e]) = e.update key (cell? key edits) := by
  rw [cell?, cell?, lastText, lastValue, texts_concat, valuesSince_concat]
  by_cases hnew : texts key edits = []
  · rw [if_pos hnew, if_pos hnew, hnew]
    cases e with
    | setFormula name text =>
      rw [Edit.update, Edit.text?]
      split <;> rfl
    | setValue name value =>
      rw [Edit.update, Option.map_none, ite_self]
      rfl
  · rw [if_neg hnew, if_neg hnew, if_neg (by simp [hnew]), lastText, lastValue]
    cases e with
    | setFormula name text =>
      rw [Edit.update, Edit.text?, Edit.value?]
      split <;> simp
    | setValue name value =>
      rw [Edit.update, Edit.text?, Edit.value?]
      split <;> simp

/-- The cell under a key is what the edits make of it, one after the other. -/
theorem cell?_eq_foldl : cell? key edits = edits.foldl (Edit.update key) none := by
  induction edits using List.reverseRecOn with
  | nil => rfl
  | append_singleton edits e ih => rw [cell?_concat, List.foldl_append, ← ih]; rfl

/-- The cell under a key depends on the edits of that key alone. -/
theorem cell?_ofKey : cell? key (ofKey key edits) = cell? key edits := by
  rw [cell?_eq_foldl, cell?_eq_foldl, ofKey, List.foldl_map, List.foldl_filter]
  congr 1
  funext cell e
  rw [Edit.update_normal]
  split
  · rfl
  · next h => rw [Edit.update_of_ne cell (by simpa using h)]

/-- There is a cell under a key if a formula was set under it. -/
theorem texts_ne_nil : texts key edits ≠ [] ↔
    ∃ name text, .setFormula name text ∈ edits ∧ normalName name = key := by
  constructor
  · intro hne
    obtain ⟨text, htext⟩ := List.exists_mem_of_ne_nil _ hne
    obtain ⟨e, hmem, he⟩ := List.mem_filterMap.1 htext
    cases e with
    | setFormula name text' =>
      rw [Edit.text?] at he
      split at he
      · next h => exact ⟨name, text', hmem, h.symm⟩
      · cases he
    | setValue => cases he
  · rintro ⟨name, text, hmem, rfl⟩
    exact List.ne_nil_of_mem (List.mem_filterMap.2 ⟨_, hmem, if_pos rfl⟩)

/-- A key was set if there is a text for it. -/
theorem mem_keysSet : key ∈ keysSet edits ↔ texts key edits ≠ [] := by
  rw [texts_ne_nil, keysSet, List.mem_filterMap]
  constructor
  · rintro ⟨e, hmem, hkey⟩
    cases e with
    | setFormula name text => exact ⟨name, text, hmem, Option.some.inj hkey⟩
    | setValue => cases hkey
  · rintro ⟨name, text, hmem, rfl⟩
    exact ⟨_, hmem, rfl⟩

/-- Formulas are set under normal forms. -/
theorem normalName_of_ne_nil (h : texts key edits ≠ []) : normalName key = key := by
  obtain ⟨name, -, -, rfl⟩ := texts_ne_nil.1 h
  exact normalName_normalName name

/-- Where a text was set, the cell has the last text and the last value. -/
theorem cell?_of_ne_nil (h : texts key edits ≠ []) :
    cell? key edits = some ⟨lastText key edits, lastValue key edits⟩ := if_neg h

/-- Where no text was set there is no cell. -/
theorem cell?_of_nil (h : texts key edits = []) : cell? key edits = none := if_pos h

theorem lastText_of_nil (h : texts key edits = []) : lastText key edits = "" := by
  rw [lastText, h]
  rfl

end History

namespace Sheet

open History

variable {settings : Settings} {sheet : Sheet} {edits : List Edit}

/-! ## The edits of a run -/

/-- The edits of visits to cells, given by key and formula: each stores the value of its formula
before the next cell is visited. -/
def visitEdits (settings : Settings) (sheet : Sheet) : List (String × String) → List Edit
  | [] => []
  | (key, text) :: later =>
    let e := Edit.setValue key (sheet.cellValue settings text)
    e :: (sheet.edit e).visitEdits settings later

/-- The edits that a step amounts to. -/
def stepEdits (settings : Settings) (sheet : Sheet) : Step → List Edit
  | .edit e => [e]
  | .recalculate => sheet.visitEdits settings sheet.formulas

/-- The edits that further steps amount to, from a sheet on. -/
def historyFrom (settings : Settings) (sheet : Sheet) : List Step → List Edit
  | [] => []
  | s :: later =>
    sheet.stepEdits settings s ++ (sheet.step settings s).historyFrom settings later

/-- The edits that a run amounts to. -/
def history (settings : Settings) (steps : List Step) : List Edit :=
  historyFrom settings .empty steps

/-- The edits of visits to cells lead to the sheet after the visits. -/
theorem foldl_visitEdits (cells : List (String × String)) :
    (sheet.visitEdits settings cells).foldl edit sheet =
      (sheet.recalculateCells settings cells).sheet := by
  induction cells generalizing sheet with
  | nil => rfl
  | cons entry later ih =>
    obtain ⟨key, text⟩ := entry
    rw [visitEdits, List.foldl_cons, ih, recalculateCells_cons]
    rfl

/-- The edits of a step lead to the sheet after the step. -/
theorem foldl_stepEdits (s : Step) :
    (sheet.stepEdits settings s).foldl edit sheet = sheet.step settings s := by
  cases s with
  | edit e => rfl
  | recalculate => exact foldl_visitEdits sheet.formulas

/-- The history of a run leads to the sheet at its end. -/
theorem foldl_historyFrom (steps : List Step) :
    (sheet.historyFrom settings steps).foldl edit sheet = steps.foldl (step settings) sheet := by
  induction steps generalizing sheet with
  | nil => rfl
  | cons s later ih => rw [historyFrom, List.foldl_append, foldl_stepEdits, ih, List.foldl_cons]

/-- Edits change the cell under a name one after the other. -/
theorem get?_foldl_edit {name : String} : (edits.foldl edit sheet).get? name =
    edits.foldl (Edit.update (normalName name)) (sheet.get? name) := by
  induction edits generalizing sheet with
  | nil => rfl
  | cons e later ih => rw [List.foldl_cons, List.foldl_cons, ih, get?_edit]

/-- A run makes the sheet that its edits make. -/
theorem run_eq_foldl_history (settings : Settings) (steps : List Step) :
    run settings steps = (history settings steps).foldl edit .empty :=
  (foldl_historyFrom steps).symm

/-- A run without recalculations is the list of its edits. -/
theorem history_map_edit : history settings (edits.map .edit) = edits := by
  suffices h : ∀ sheet : Sheet, sheet.historyFrom settings (edits.map .edit) = edits from h .empty
  induction edits with
  | nil => exact fun _ => rfl
  | cons e later ih => exact fun sheet => congrArg (e :: ·) (ih (sheet.edit e))

/-- Visits to cells set no text. -/
theorem texts_visitEdits {key : String} (cells : List (String × String)) :
    texts key (sheet.visitEdits settings cells) = [] := by
  induction cells generalizing sheet with
  | nil => rfl
  | cons entry later ih => exact ih

/-- Only edits that the run makes itself set texts. -/
theorem texts_historyFrom {key : String} (steps : List Step) :
    texts key (sheet.historyFrom settings steps) = texts key (steps.filterMap Step.edit?) := by
  induction steps generalizing sheet with
  | nil => rfl
  | cons s later ih =>
    rw [historyFrom, texts_append, ih]
    cases s with
    | edit e => exact (texts_append [e] _).symm
    | recalculate => rw [stepEdits, texts_visitEdits, List.nil_append]; rfl

/-- The cell that a run leaves under a name is the one that its history gives. -/
theorem get?_run (settings : Settings) (steps : List Step) (name : String) :
    (run settings steps).get? name = cell? (normalName name) (history settings steps) := by
  rw [run_eq_foldl_history, get?_foldl_edit, cell?_eq_foldl]
  rfl

/-! ## What a sheet answers -/

/-- What a sheet answers about any name is what the history of the name's key says. -/
structure Answers (sheet : Sheet) (edits : List Edit) : Prop where
  get? (name : String) : sheet.get? name = cell? (normalName name) edits
  /-- There is a cell if a formula was set under its key. -/
  contains (name : String) : sheet.contains name = true ↔
    ∃ other text, .setFormula other text ∈ edits ∧ normalName other = normalName name
  /-- The cells in their order are those that are found under their keys. -/
  cells (key : String) (cell : Cell) : (key, cell) ∈ sheet.cells ↔ cell? key edits = some cell
  size : sheet.size = (keysSet edits).toFinset.card
  formula (name : String) : sheet.formula name = lastText (normalName name) edits
  value? (name : String) : sheet.value? name =
    if sheet.contains name then some (lastValue (normalName name) edits) else none
  /-- A formula that is set gives back the last one that was set before. -/
  previous (name text : String) :
    (sheet.setFormula name text).1 = lastText (normalName name) edits

/-- The entries of a sheet are the cells that are found under their keys. -/
theorem WellFormed.mem_cells_iff (h : sheet.WellFormed) {key : String} {cell : Cell} :
    (key, cell) ∈ sheet.cells ↔ normalName key = key ∧ sheet.get? key = some cell := by
  rw [← h.lookup_eq_some]
  constructor
  · intro hcell
    have hkey := h.normal key (lookup_isSome.1 (Option.isSome_of_eq_some hcell))
    exact ⟨hkey, by rwa [get?, hkey]⟩
  · rintro ⟨hkey, hcell⟩
    rwa [get?, hkey] at hcell

/-- The keys of a sheet are the normal forms under which there is a cell. -/
theorem WellFormed.mem_keys_iff (h : sheet.WellFormed) {key : String} :
    key ∈ sheet.keys ↔ normalName key = key ∧ sheet.contains key = true := by
  rw [contains_iff]
  constructor
  · intro hkey
    rw [h.normal key hkey]
    exact ⟨rfl, hkey⟩
  · rintro ⟨hkey, hmem⟩
    rwa [hkey] at hmem

/-- To set a formula gives back the one before. -/
theorem fst_setFormula {name text : String} :
    (sheet.setFormula name text).1 = sheet.formula name := by
  rw [setFormula, formula]
  cases sheet.get? name <;> rfl

section

variable (hget : ∀ name, sheet.get? name = cell? (normalName name) edits)
include hget

/-- There is a cell if a text was set. -/
theorem contains_iff_texts_ne_nil {name : String} :
    sheet.contains name = true ↔ texts (normalName name) edits ≠ [] := by
  rw [contains, hget, cell?]
  split
  · next hnil => simp [hnil]
  · next hset => simp [hset]

/-- The formula of a cell is the last text that was set. -/
theorem formula_eq_lastText (name : String) :
    sheet.formula name = lastText (normalName name) edits := by
  rw [formula, hget]
  by_cases hset : texts (normalName name) edits = []
  · rw [cell?_of_nil hset, lastText_of_nil hset]
    rfl
  · rw [cell?_of_ne_nil hset]
    rfl

/-- The entries of a sheet are the cells of its history. -/
theorem WellFormed.mem_cells_iff_cell? (h : sheet.WellFormed) {key : String} {cell : Cell} :
    (key, cell) ∈ sheet.cells ↔ cell? key edits = some cell := by
  rw [h.mem_cells_iff, hget]
  constructor
  · rintro ⟨hkey, hcell⟩
    rwa [hkey] at hcell
  · intro hcell
    have hkey : normalName key = key := normalName_of_ne_nil fun hnil => by
      rw [cell?_of_nil hnil] at hcell
      cases hcell
    rw [hkey]
    exact ⟨rfl, hcell⟩

/-- A sheet has as many cells as keys were set. -/
theorem WellFormed.size_eq (h : sheet.WellFormed) :
    sheet.size = (keysSet edits).toFinset.card := by
  have hkeys : sheet.keys.toFinset = (keysSet edits).toFinset := by
    ext key
    rw [List.mem_toFinset, List.mem_toFinset, mem_keysSet, h.mem_keys_iff,
      contains_iff_texts_ne_nil hget]
    constructor
    · rintro ⟨hkey, hset⟩
      rwa [hkey] at hset
    · intro hset
      rw [normalName_of_ne_nil hset]
      exact ⟨rfl, hset⟩
  rw [← hkeys, List.toFinset_card_of_nodup h.nodup_keys, keys, List.length_map, size]

/-- A well-formed sheet whose cells are those of a history answers by it. -/
theorem WellFormed.answers (h : sheet.WellFormed) : sheet.Answers edits where
  get? := hget
  contains _ := (contains_iff_texts_ne_nil hget).trans texts_ne_nil
  cells _ _ := h.mem_cells_iff_cell? hget
  size := h.size_eq hget
  formula := formula_eq_lastText hget
  value? name := by
    rw [Sheet.value?, hget]
    split
    · next hset =>
      rw [cell?_of_ne_nil ((contains_iff_texts_ne_nil hget).1 hset)]
      rfl
    · next hnone =>
      rw [cell?_of_nil (not_not.1 (mt (contains_iff_texts_ne_nil hget).2 hnone))]
      rfl
  previous name text := by rw [fst_setFormula, formula_eq_lastText hget]

end

/-- What an edit leaves alone: all cells but its own, the value of a cell when a formula is set, and
the formulas and the presence of cells when a value is stored. -/
structure FrameLaws (sheet : Sheet) : Prop where
  other (e : Edit) (name : String) : normalName name ≠ e.key →
    (sheet.edit e).get? name = sheet.get? name
  value? (name text : String) : sheet.contains name = true →
    (sheet.setFormula name text).2.value? name = sheet.value? name
  formula (name other : String) (value : Float) :
    (sheet.setValue name value).formula other = sheet.formula other
  contains (name other : String) (value : Float) :
    (sheet.setValue name value).contains other = sheet.contains other

/-- Every sheet keeps the frame laws. -/
theorem frameLaws (sheet : Sheet) : sheet.FrameLaws where
  other e name hne := by rw [get?_edit, Edit.update_of_ne _ (Ne.symm hne)]
  value? name text hname := by
    obtain ⟨cell, hcell⟩ := Option.isSome_iff_exists.1 hname
    rw [Sheet.value?, get?_setFormula, if_pos rfl, Sheet.value?, hcell]
    rfl
  formula name other value := by
    rw [Sheet.formula, Sheet.formula, get?_setValue]
    split
    · next h =>
      rw [get?, get?, h, Option.map_map]
      rfl
    · rfl
  contains name other value := by
    rw [Sheet.contains, Sheet.contains, get?_setValue]
    split
    · next h => rw [get?, get?, h, Option.isSome_map]
    · rfl

/-- A sheet answers by the history of the run that made it, in which recalculations set no formula.
An edit leaves everything but its own half of its own cell alone. So runs of edits that agree on the
edits of each key, one key at a time, make the same sheet. -/
theorem run_answers_by_history (settings : Settings) (steps : List Step) :
    (run settings steps).Answers (history settings steps) ∧
    (∀ key, texts key (history settings steps) = texts key (steps.filterMap Step.edit?)) ∧
    (run settings steps).FrameLaws ∧
    ∀ edits edits' : List Edit, (∀ key, ofKey key edits = ofKey key edits') →
      run settings (edits.map .edit) = run settings (edits'.map .edit) := by
  refine ⟨(run_wellFormed settings steps).answers (get?_run settings steps), ?_, frameLaws _, ?_⟩
  · intro key
    exact texts_historyFrom steps
  · intro edits edits' hedits
    refine (run_wellFormed ..).ext (run_wellFormed ..) ?_
    intro name
    rw [get?_run, get?_run, history_map_edit, history_map_edit, ← cell?_ofKey, hedits, cell?_ofKey]

/-- The edits of two cells in two orders and spellings. The value that is stored before there is a
cell leaves no trace, and the recalculation stores the last value of the cell that refers to the
other. -/
theorem run_of_interleaved_edits :
    let edits : List Edit := [.setValue "b1" 5, .setFormula "a1" "B1+1", .setFormula "b1" "7",
      .setValue "B1" 2]
    let edits' : List Edit := [.setFormula "A1" "B1+1", .setValue "B1" 5, .setFormula "B1" "7",
      .setValue "b1" 2]
    (∀ key, ofKey key edits = ofKey key edits') ∧
      run {} (edits.map .edit) = run {} (edits'.map .edit) ∧
      let after := run {} (edits.map .edit ++ [.recalculate])
      after.get? "a1" = some ⟨"B1+1", 3⟩ ∧ after.get? "B1" = some ⟨"7", 7⟩ := by
  intro edits edits'
  have hA1 : normalName "a1" = "A1" := by decide +kernel
  have hB1 : normalName "b1" = "B1" := by decide +kernel
  have hA1' : normalName "A1" = "A1" := by decide +kernel
  have hB1' : normalName "B1" = "B1" := by decide +kernel
  have hedits : ∀ key, ofKey key edits = ofKey key edits' := by
    intro key
    simp only [edits, edits', ofKey, Edit.key, Edit.name, List.filter_cons, List.filter_nil,
      beq_iff_eq, hA1, hB1, hA1', hB1']
    by_cases hkey : "A1" = key
    · have hne : "B1" ≠ "A1" := by decide
      simp only [← hkey, hne, if_true, if_false, List.map_cons, List.map_nil, Edit.normal, hA1,
        hA1']
    · simp only [hkey, if_false]
      split <;> simp only [List.map_cons, List.map_nil, Edit.normal, hB1, hB1']
  obtain ⟨hanswers, -, -, -⟩ := run_answers_by_history {} (edits.map .edit ++ [.recalculate])
  refine ⟨hedits, (run_answers_by_history {} []).2.2.2 edits edits' hedits, ?_, ?_⟩
  · rw [hanswers.get?]
    decide +kernel
  · rw [hanswers.get?]
    decide +kernel

end Sheet

end FormulaSheet
