import FormulaSheet.Proofs.Names
import FormulaSheet.Sheet.Basic
import Mathlib.Data.Prod.Basic
import Mathlib.Logic.Function.Basic

/-!
# The laws of sheets

What is found in a sheet after a change. Whatever its entries are, a cell that is put under a key is
found there and changes no other key (`lookup_putCell`). In a well-formed sheet, where the keys
ascend and are normal forms, to set a value is to replace it in its place
(`Sheet.setValue_withValues`).
-/

namespace FormulaSheet

variable {key k : String} {cell : Cell} {entries : List (String × Cell)}

/-! ## Entries -/

/-- What is found first counts. -/
theorem lookup_cons (other : String) (present : Cell) :
    ((other, present) :: entries).lookup k =
      if k = other then some present else entries.lookup k := by
  rw [List.lookup_cons]
  by_cases h : k = other
  · rw [beq_iff_eq.2 h, if_pos h]
  · rw [beq_false_of_ne h, if_neg h]

/-- A key is found if it is there. -/
theorem lookup_isSome : (entries.lookup k).isSome = true ↔ k ∈ entries.map (·.1) := by
  rw [List.lookup_isSome_iff, List.mem_map]
  refine exists_congr fun entry => and_congr_right ?_
  intro _
  rw [beq_iff_eq, eq_comm]

/-- Cells that change under their keys are found under their keys. -/
theorem lookup_map (f : String → Cell → Cell) :
    (entries.map fun (key, cell) => (key, f key cell)).lookup k = (entries.lookup k).map (f k) := by
  induction entries with
  | nil => rfl
  | cons entry later ih =>
    obtain ⟨other, present⟩ := entry
    rw [List.map_cons, lookup_cons, lookup_cons, ih]
    split
    · next h => rw [h, Option.map_some]
    · rfl

/-! ## Putting a cell -/

/-- A cell that is put under a key is found under it, and the others as before. -/
theorem lookup_putCell : (putCell key cell entries).lookup k =
    if k = key then some cell else entries.lookup k := by
  induction entries with
  | nil => rw [putCell, lookup_cons]
  | cons entry later ih =>
    obtain ⟨other, present⟩ := entry
    rw [putCell]
    split
    · rw [lookup_cons]
    · split
      · next h =>
        rw [lookup_cons, lookup_cons, h]
        split <;> rfl
      · next h =>
        rw [lookup_cons, lookup_cons, ih]
        grind

/-- To put a cell adds its key. -/
theorem mem_keys_putCell : k ∈ (putCell key cell entries).map (·.1) ↔
    k = key ∨ k ∈ entries.map (·.1) := by
  rw [← lookup_isSome, lookup_putCell, ← lookup_isSome]
  split
  · next h => simp [h]
  · next h => simp [h]

/-- Keys in ascending order stay in ascending order. -/
theorem pairwise_putCell (h : (entries.map (·.1)).Pairwise (· < ·)) :
    ((putCell key cell entries).map (·.1)).Pairwise (· < ·) := by
  induction entries with
  | nil => exact List.pairwise_singleton _ _
  | cons entry later ih =>
    obtain ⟨other, present⟩ := entry
    obtain ⟨hother, hlater⟩ := List.pairwise_cons.1 h
    rw [putCell]
    split
    · next hlt =>
      refine List.pairwise_cons.2 ⟨fun j hj => ?_, h⟩
      obtain rfl | hj := List.mem_cons.1 hj
      · exact hlt
      · exact String.lt_trans hlt (hother j hj)
    · next hlt =>
      split
      · next heq => exact List.pairwise_cons.2 ⟨heq ▸ hother, hlater⟩
      · next hne =>
        refine List.pairwise_cons.2 ⟨fun j hj => ?_, ih hlater⟩
        obtain rfl | hj := mem_keys_putCell.1 hj
        · exact Decidable.byContradiction fun hnot =>
            hne (String.le_antisymm (String.not_lt.1 hnot) (String.not_lt.1 hlt))
        · exact hother j hj

/-! ## Equal entries -/

/-- What is below all keys is not found. -/
theorem lookup_of_below (h : ∀ j ∈ entries.map (·.1), k < j) : entries.lookup k = none := by
  refine Option.not_isSome_iff_eq_none.1 ?_
  intro hsome
  exact String.lt_irrefl k (h k (lookup_isSome.1 hsome))

/-- What is below the first key is not found in ascending entries. -/
theorem lookup_of_lt_head {other : String} {present : Cell}
    (h : (((other, present) :: entries).map (·.1)).Pairwise (· < ·)) (hk : k < other) :
    ((other, present) :: entries).lookup k = none := by
  refine lookup_of_below ?_
  intro j hj
  obtain rfl | hj := List.mem_cons.1 hj
  · exact hk
  · exact String.lt_trans hk (List.rel_of_pairwise_cons h hj)

/-- Entries in ascending order are given by what is found in them. -/
theorem eq_of_lookup_eq : ∀ {entries others : List (String × Cell)},
    (entries.map (·.1)).Pairwise (· < ·) → (others.map (·.1)).Pairwise (· < ·) →
      (∀ k, entries.lookup k = others.lookup k) → entries = others
  | [], [], _, _, _ => rfl
  | [], (key, cell) :: later, _, _, h => by
    have hkey := h key
    rw [lookup_cons, if_pos rfl] at hkey
    cases hkey
  | (key, cell) :: later, [], _, _, h => by
    have hkey := h key
    rw [lookup_cons, if_pos rfl] at hkey
    cases hkey
  | (key, cell) :: later, (key', cell') :: later', h₁, h₂, h => by
    obtain ⟨habove, hlater⟩ := List.pairwise_cons.1 h₁
    obtain ⟨habove', hlater'⟩ := List.pairwise_cons.1 h₂
    have hle : ¬ key < key' := fun hlt => by
      have hkey := h key
      rw [lookup_of_lt_head h₂ hlt, lookup_cons, if_pos rfl] at hkey
      cases hkey
    have hge : ¬ key' < key := fun hlt => by
      have hkey := h key'
      rw [lookup_of_lt_head h₁ hlt, lookup_cons, if_pos rfl] at hkey
      cases hkey
    obtain rfl := String.le_antisymm (String.not_lt.1 hge) (String.not_lt.1 hle)
    simp only [lookup_cons] at h
    have hcell := h key
    rw [if_pos rfl, if_pos rfl] at hcell
    obtain rfl := Option.some.inj hcell
    refine congrArg _ (eq_of_lookup_eq hlater hlater' ?_)
    intro k
    by_cases hk : k = key
    · rw [hk, lookup_of_below habove, lookup_of_below habove']
    · have hrest := h k
      rwa [if_neg hk, if_neg hk] at hrest

/-! ## Sheets -/

namespace Sheet

variable {sheet : Sheet} {name text : String} {value : Float} {values : String → Float}

/-- The names of the cells in normal form, in the order of the cells. -/
def keys (sheet : Sheet) : List String := sheet.cells.map (·.1)

/-- What all sheets have in common: the keys ascend, and each is a normal form. -/
structure WellFormed (sheet : Sheet) : Prop where
  ascending : sheet.keys.Pairwise (· < ·)
  normal : ∀ key ∈ sheet.keys, normalName key = key

/-- The value of a cell, 0 if there is no cell. -/
def valueAt (sheet : Sheet) (name : String) : Float := (sheet.value? name).getD 0

/-- The sheet with other values, given by the keys of the cells. -/
def withValues (sheet : Sheet) (values : String → Float) : Sheet :=
  ⟨sheet.cells.map fun (key, cell) => (key, { cell with value := values key })⟩

/-- A sheet has a cell for a name if the normal form is a key. -/
theorem contains_iff : sheet.contains name = true ↔ normalName name ∈ sheet.keys := by
  rw [contains, get?, lookup_isSome, keys]

/-- A cell that exists has a value. -/
theorem value?_of_mem (h : normalName name ∈ sheet.keys) :
    sheet.value? name = some (sheet.valueAt name) := by
  obtain ⟨cell, hcell⟩ := Option.isSome_iff_exists.1 (lookup_isSome.2 h)
  rw [valueAt, value?, get?, hcell]
  rfl

/-- A sheet is empty if it has a cell for no name. -/
theorem WellFormed.isEmpty_iff (h : sheet.WellFormed) :
    sheet.isEmpty = true ↔ ∀ name, sheet.contains name = false := by
  have hkeys : sheet.isEmpty = true ↔ sheet.keys = [] := by
    rw [isEmpty, List.isEmpty_iff, keys, List.map_eq_nil_iff]
  rw [hkeys, List.eq_nil_iff_forall_not_mem]
  simp only [← Bool.not_eq_true, contains_iff]
  constructor
  · exact fun hnone name => hnone (normalName name)
  · exact fun hnone key hkey => hnone key ((h.normal key hkey).symm ▸ hkey)

/-! ### Sheets with other values -/

/-- Values change no key. -/
@[simp] theorem keys_withValues : (sheet.withValues values).keys = sheet.keys := by
  rw [keys, keys, withValues, List.map_map]
  rfl

/-- Values change the values of the cells that are found. -/
theorem get?_withValues : (sheet.withValues values).get? name =
    (sheet.get? name).map fun cell => { cell with value := values (normalName name) } :=
  lookup_map fun key cell => { cell with value := values key }

/-- Values add no cell and remove none. -/
@[simp] theorem contains_withValues :
    (sheet.withValues values).contains name = sheet.contains name := by
  rw [contains, get?_withValues, Option.isSome_map, contains]

/-- Values change no formula. -/
@[simp] theorem formula_withValues :
    (sheet.withValues values).formula name = sheet.formula name := by
  rw [formula, formula, get?_withValues, Option.map_map]
  rfl

/-- The value of a cell is the one that is given under its key. -/
theorem value?_withValues : (sheet.withValues values).value? name =
    if normalName name ∈ sheet.keys then some (values (normalName name)) else none := by
  rw [value?, get?_withValues, Option.map_map]
  split
  · next h =>
    obtain ⟨cell, hcell⟩ := Option.isSome_iff_exists.1 (lookup_isSome.2 h)
    rw [get?, hcell]
    rfl
  · next h =>
    rw [get?, Option.not_isSome_iff_eq_none.1 (mt lookup_isSome.1 h)]
    rfl

/-- Only the values under keys of the sheet matter. -/
theorem withValues_congr {values' : String → Float}
    (h : ∀ key ∈ sheet.keys, values key = values' key) :
    sheet.withValues values = sheet.withValues values' := by
  refine congrArg Sheet.mk (List.map_congr_left ?_)
  intro (key, cell) hentry
  have hkey : values key = values' key := h key (List.mem_map_of_mem hentry)
  simp only [hkey]

/-- Values keep a sheet well-formed. -/
theorem WellFormed.withValues (h : sheet.WellFormed) : (sheet.withValues values).WellFormed where
  ascending := by rw [keys_withValues]; exact h.ascending
  normal := by rw [keys_withValues]; exact h.normal

/-- Nothing is found under what is no normal form. -/
theorem WellFormed.get?_of_not_normal (h : sheet.WellFormed) {key : String}
    (hkey : normalName key ≠ key) : sheet.cells.lookup key = none :=
  Option.not_isSome_iff_eq_none.1 fun hsome => hkey (h.normal key (lookup_isSome.1 hsome))

/-- Sheets are given by what is found in them. -/
theorem WellFormed.ext {other : Sheet} (h : sheet.WellFormed) (h' : other.WellFormed)
    (heq : ∀ name, sheet.get? name = other.get? name) : sheet = other := by
  refine congrArg Sheet.mk (eq_of_lookup_eq h.ascending h'.ascending ?_)
  intro key
  by_cases hkey : normalName key = key
  · have hget := heq key
    rwa [get?, get?, hkey] at hget
  · rw [h.get?_of_not_normal hkey, h'.get?_of_not_normal hkey]

/-- The values that are given are those that the cells have. -/
theorem WellFormed.valueAt_withValues (h : sheet.WellFormed) {key : String}
    (hkey : key ∈ sheet.keys) : (sheet.withValues values).valueAt key = values key := by
  rw [valueAt, value?_withValues, h.normal key hkey, if_pos hkey, Option.getD_some]

/-- A sheet has its own values. -/
theorem WellFormed.withValues_valueAt (h : sheet.WellFormed) :
    sheet.withValues sheet.valueAt = sheet := by
  refine h.withValues.ext h ?_
  intro name
  rw [get?_withValues, valueAt, value?, get?, get?, normalName_normalName]
  cases sheet.cells.lookup (normalName name) <;> rfl

/-! ### Changes -/

/-- A formula that is set is found under its name, and the cells of other names are as before. -/
theorem get?_setFormula {other : String} : (sheet.setFormula name text).2.get? other =
    if normalName other = normalName name then
      some { (sheet.get? name).getD {} with formula := text }
    else sheet.get? other := by
  rw [setFormula, get?, lookup_putCell]
  rfl

/-- A value that is set is found if there is a cell of its name, and the cells of other names are as
before. -/
theorem get?_setValue {other : String} : (sheet.setValue name value).get? other =
    if normalName other = normalName name then
      (sheet.get? name).map fun cell => { cell with value }
    else sheet.get? other := by
  rw [setValue]
  split
  · next hnone =>
    split
    · next heq => rw [get?, heq, ← get?, hnone, Option.map_none]
    · rfl
  · next cell hcell => rw [get?, lookup_putCell, hcell, Option.map_some, ← get?]

/-- The empty sheet is well-formed. -/
theorem WellFormed.empty : Sheet.empty.WellFormed :=
  ⟨List.Pairwise.nil, fun _ h => nomatch h⟩

/-- A cell under a normal form keeps a sheet well-formed. -/
theorem WellFormed.putCell (h : sheet.WellFormed) :
    WellFormed ⟨putCell (normalName name) cell sheet.cells⟩ where
  ascending := pairwise_putCell h.ascending
  normal key hkey := by
    obtain rfl | hkey := mem_keys_putCell.1 hkey
    · exact normalName_normalName name
    · exact h.normal key hkey

/-- To set a formula keeps a sheet well-formed. -/
theorem WellFormed.setFormula (h : sheet.WellFormed) :
    (sheet.setFormula name text).2.WellFormed :=
  h.putCell

/-- To store a value keeps a sheet well-formed. -/
theorem WellFormed.setValue (h : sheet.WellFormed) : (sheet.setValue name value).WellFormed := by
  rw [Sheet.setValue]
  split
  · exact h
  · exact h.putCell

/-- To set the value of a cell is to set it in its place. -/
theorem WellFormed.setValue_withValues (h : sheet.WellFormed) {key : String}
    (hkey : key ∈ sheet.keys) : (sheet.withValues values).setValue key value =
      sheet.withValues (Function.update values key value) := by
  refine h.withValues.setValue.ext h.withValues ?_
  intro name
  rw [get?_setValue, get?_withValues, get?_withValues, get?_withValues, h.normal key hkey]
  split
  · next heq =>
    rw [heq, Function.update_self, Option.map_map, get?, get?, heq, h.normal key hkey]
    rfl
  · next hne => rw [Function.update_of_ne hne]

end Sheet

end FormulaSheet
