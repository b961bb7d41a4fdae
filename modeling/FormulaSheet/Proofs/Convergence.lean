import FormulaSheet.Proofs.Runs
import Mathlib.Data.Finset.Lattice.Fold
import Mathlib.Data.List.Chain
import Mathlib.Logic.Relation
import Mathlib.Order.Bounds.Basic
import Mathlib.Order.Lattice.Nat

/-!
# Repeated recalculation

If no cell refers to itself, directly or through others, then every cell has an exact value,
computed along the references (`Sheet.exactValue`). A recalculation visits cells in the order of
their names, so a cell that refers to one further on is late by one recalculation.
`Sheet.recalculate_converges` says that this is all: a cell is exact after one recalculation and one
more for each step forward on the worst path of references from it, whatever the values were before.
-/

namespace FormulaSheet

namespace Sheet

variable {settings : Settings} {sheet : Sheet} {values values' : String → Float}
  {key other : String} {path : List String}

/-! ## References between cells -/

/-- The cells of the sheet that the formula under a key refers to, by their keys. -/
def referred (sheet : Sheet) (key : String) : List String :=
  match parse (sheet.formula key) with
  | .ok e => (e.references.map normalName).filter (· ∈ sheet.keys)
  | .error _ => []

/-- The cell under a key refers to another cell. -/
def Refers (sheet : Sheet) (key other : String) : Prop :=
  key ∈ sheet.keys ∧ other ∈ sheet.referred key

/-- No cell refers to itself, directly or through others. -/
def Acyclic (sheet : Sheet) : Prop := ∀ key, ¬ Relation.TransGen sheet.Refers key key

/-- A cell refers to the cells of the sheet that its formula mentions. -/
theorem mem_referred : other ∈ sheet.referred key ↔
    other ∈ sheet.keys ∧ ∃ e, parse (sheet.formula key) = .ok e ∧
      ∃ name ∈ e.references, normalName name = other := by
  unfold referred
  generalize parse (sheet.formula key) = parsed
  cases parsed with
  | error => simp
  | ok e => simp [and_comm]

/-- A reference between cells ends in the sheet. -/
theorem Refers.mem_keys (h : sheet.Refers key other) : other ∈ sheet.keys := (mem_referred.1 h.2).1

/-- The value of a cell's formula depends on the values of the cells that it refers to. -/
theorem cellValue_congr_refers (hkey : key ∈ sheet.keys)
    (h : ∀ other, sheet.Refers key other → values other = values' other) :
    (sheet.withValues values).cellValue settings (sheet.formula key) =
      (sheet.withValues values').cellValue settings (sheet.formula key) := by
  have heval : (sheet.withValues values).evaluate settings (sheet.formula key) =
      (sheet.withValues values').evaluate settings (sheet.formula key) := by
    refine evaluate_congr ?_
    intro e he name hname
    rw [value?_withValues, value?_withValues]
    split
    · next hmem => rw [h _ ⟨hkey, mem_referred.2 ⟨hmem, e, he, name, hname, rfl⟩⟩]
    · rfl
  rw [cellValue, cellValue, heval]

/-! ## Exact values -/

/-- The values of cells by recursion along the references, down to a depth. -/
def exactWithin (settings : Settings) (sheet : Sheet) : Nat → String → Float
  | 0, _ => notANumber
  | depth + 1, key =>
    (sheet.withValues (sheet.exactWithin settings depth)).cellValue settings (sheet.formula key)

/-- The values of cells by recursion along the references. A path of references without a cycle is
shorter than the number of cells, which is depth enough. -/
def exactValue (settings : Settings) (sheet : Sheet) : String → Float :=
  sheet.exactWithin settings sheet.size

/-- Each cell has the value of its formula where the other cells have their exact values. -/
def Exact (settings : Settings) (sheet : Sheet) (values : String → Float) : Prop :=
  ∀ key ∈ sheet.keys, values key = (sheet.withValues values).cellValue settings (sheet.formula key)

/-! ## Paths -/

/-- The cells of the list, one after the other, refer from a cell on. -/
def IsPath (sheet : Sheet) (key : String) (path : List String) : Prop :=
  List.IsChain sheet.Refers (key :: path)

/-- The number of steps to a later key. -/
def forward : List String → Nat
  | key :: other :: path => (if key < other then 1 else 0) + forward (other :: path)
  | _ => 0

/-- The greatest number of steps forward on paths of references, down to a depth. -/
def staleWithin (sheet : Sheet) : Nat → String → Nat
  | 0, _ => 0
  | depth + 1, key => (sheet.referred key).toFinset.sup fun other =>
    (if key < other then 1 else 0) + sheet.staleWithin depth other

/-- The greatest number of steps forward on paths of references from a cell. -/
def stale (sheet : Sheet) (key : String) : Nat := sheet.staleWithin sheet.size key

theorem IsPath.nil : sheet.IsPath key [] := List.isChain_singleton key

/-- A path goes on from the first cell on it. -/
theorem isPath_cons :
    sheet.IsPath key (other :: path) ↔ sheet.Refers key other ∧ sheet.IsPath other path :=
  List.isChain_cons_cons

/-- A path has no more forward steps than steps. -/
theorem forward_le_length (key : String) (path : List String) :
    forward (key :: path) ≤ path.length := by
  induction path generalizing key with
  | nil => exact Nat.le_refl 0
  | cons other path ih =>
    have hrest := ih other
    rw [forward, List.length_cons]
    split <;> omega

/-- The cells on a path from a cell of the sheet are in the sheet. -/
theorem IsPath.subset_keys (h : sheet.IsPath key path) (hkey : key ∈ sheet.keys) :
    key :: path ⊆ sheet.keys := by
  induction path generalizing key with
  | nil => simpa using hkey
  | cons other path ih =>
    obtain ⟨hrefers, hpath⟩ := isPath_cons.1 h
    exact List.cons_subset.2 ⟨hkey, ih hpath hrefers.mem_keys⟩

/-- Without cycles, a path visits no cell twice. -/
theorem Acyclic.length_lt (h : sheet.Acyclic) (hkey : key ∈ sheet.keys)
    (hpath : sheet.IsPath key path) : path.length < sheet.size := by
  have hchain : (key :: path).IsChain (Relation.TransGen sheet.Refers) :=
    List.IsChain.imp (fun _ _ => .single) hpath
  have hnodup : (key :: path).Nodup := by
    refine hchain.pairwise.imp ?_
    intro a b hab heq
    exact h b (heq ▸ hab)
  have hle := (hnodup.subperm (hpath.subset_keys hkey)).length_le
  rwa [List.length_cons, keys, List.length_map] at hle

/-- The steps forward on a path within a depth are not more than the greatest number. -/
theorem IsPath.forward_le {depth : Nat} (h : sheet.IsPath key path) (hdepth : path.length ≤ depth) :
    forward (key :: path) ≤ sheet.staleWithin depth key := by
  induction path generalizing key depth with
  | nil => exact Nat.zero_le _
  | cons other path ih =>
    obtain ⟨hrefers, hpath⟩ := isPath_cons.1 h
    obtain ⟨depth, rfl⟩ := Nat.exists_eq_succ_of_ne_zero (n := depth) (by
      rintro rfl
      cases hdepth)
    have hrest := ih hpath (Nat.le_of_succ_le_succ hdepth)
    have hsup := Finset.le_sup (f := fun other =>
      (if key < other then 1 else 0) + sheet.staleWithin depth other)
      (List.mem_toFinset.2 hrefers.2)
    rw [forward, staleWithin]
    exact Nat.le_trans (Nat.add_le_add_left hrest _) hsup

/-- Some path has the greatest number of steps forward. -/
theorem exists_isPath (hkey : key ∈ sheet.keys) (depth : Nat) :
    ∃ path, sheet.IsPath key path ∧ forward (key :: path) = sheet.staleWithin depth key := by
  induction depth generalizing key with
  | zero => exact ⟨[], .nil, rfl⟩
  | succ depth ih =>
    rw [staleWithin]
    obtain hnil | hne := (sheet.referred key).toFinset.eq_empty_or_nonempty
    · rw [hnil]
      exact ⟨[], .nil, rfl⟩
    · obtain ⟨other, hmem, hsup⟩ := Finset.exists_mem_eq_sup _ hne fun other =>
        (if key < other then 1 else 0) + sheet.staleWithin depth other
      have hrefers : sheet.Refers key other := ⟨hkey, List.mem_toFinset.1 hmem⟩
      obtain ⟨path, hpath, hforward⟩ := ih hrefers.mem_keys
      exact ⟨other :: path, isPath_cons.2 ⟨hrefers, hpath⟩, by rw [hsup, forward, hforward]⟩

/-- The number of passes in which a cell can be out of date is the greatest number of forward steps
on a path from it. -/
theorem Acyclic.isGreatest_stale (h : sheet.Acyclic) (hkey : key ∈ sheet.keys) :
    IsGreatest {m | ∃ path, sheet.IsPath key path ∧ forward (key :: path) = m}
      (sheet.stale key) := by
  refine ⟨exists_isPath hkey sheet.size, ?_⟩
  rintro m ⟨path, hpath, rfl⟩
  exact hpath.forward_le (h.length_lt hkey hpath).le

/-- A cell of a sheet without cycles is out of date for fewer passes than the sheet has cells. -/
theorem Acyclic.stale_lt (h : sheet.Acyclic) (hkey : key ∈ sheet.keys) :
    sheet.stale key < sheet.size := by
  obtain ⟨path, hpath, hforward⟩ := exists_isPath hkey sheet.size
  rw [stale, ← hforward]
  exact (forward_le_length key path).trans_lt (h.length_lt hkey hpath)

/-! ## Exact values solve their equations -/

/-- A depth that no path reaches is as good as any greater depth. -/
theorem exactWithin_eq (hkey : key ∈ sheet.keys) {depth more : Nat}
    (hdepth : ∀ path, sheet.IsPath key path → path.length < depth) (hmore : depth ≤ more) :
    sheet.exactWithin settings more key = sheet.exactWithin settings depth key := by
  induction depth generalizing key more with
  | zero => exact absurd (hdepth [] .nil) (Nat.lt_irrefl 0)
  | succ depth ih =>
    obtain ⟨more, rfl⟩ := Nat.exists_eq_succ_of_ne_zero (Nat.ne_zero_of_lt hmore)
    rw [exactWithin, exactWithin]
    refine cellValue_congr_refers hkey ?_
    intro other hrefers
    refine ih hrefers.mem_keys ?_ (Nat.le_of_succ_le_succ hmore)
    intro path hpath
    exact Nat.lt_of_succ_lt_succ (hdepth (other :: path) (isPath_cons.2 ⟨hrefers, hpath⟩))

/-- In a sheet without cycles each cell has an exact value. -/
theorem Acyclic.exact (h : sheet.Acyclic) : sheet.Exact settings (sheet.exactValue settings) := by
  intro key hkey
  have hdepth : ∀ path, sheet.IsPath key path → path.length < sheet.size :=
    fun _ => h.length_lt hkey
  rw [exactValue, ← exactWithin_eq hkey hdepth (Nat.le_succ sheet.size), exactWithin]

/-! ## Recalculations one after the other -/

/-- The sheet after a number of recalculations. -/
def passes (settings : Settings) (n : Nat) (sheet : Sheet) : Sheet :=
  (fun sheet => (sheet.recalculate settings).sheet)^[n] sheet

/-- The values after a number of recalculations. -/
def valuesAfter (settings : Settings) (sheet : Sheet) (values : String → Float) :
    Nat → String → Float
  | 0 => values
  | n + 1 => (sheet.withValues (sheet.valuesAfter settings values n)).recalculated settings

/-- Of values that are given one after the other the last ones count. -/
theorem withValues_withValues :
    (sheet.withValues values).withValues values' = sheet.withValues values' := by
  rw [withValues, withValues, List.map_map]
  rfl

/-- Passes over a sheet change its values only. -/
theorem WellFormed.passes (h : sheet.WellFormed) (n : Nat) :
    (sheet.withValues values).passes settings n =
      sheet.withValues (sheet.valuesAfter settings values n) := by
  induction n with
  | zero => rfl
  | succ n ih =>
    rw [Sheet.passes, Function.iterate_succ_apply', ← Sheet.passes, ih, h.withValues.recalculate,
      withValues_withValues]
    rfl

/-- The value after a recalculation is that of the formula where the cells before have their new
values and the others their old ones. -/
theorem WellFormed.valuesAfter_succ (h : sheet.WellFormed) (hkey : key ∈ sheet.keys) (n : Nat) :
    sheet.valuesAfter settings values (n + 1) key =
      (sheet.withValues fun other =>
        if other < key then sheet.valuesAfter settings values (n + 1) other
        else sheet.valuesAfter settings values n other).cellValue settings (sheet.formula key) := by
  have hkey' : key ∈ (sheet.withValues (sheet.valuesAfter settings values n)).keys := by
    rwa [keys_withValues]
  have hsolves : sheet.valuesAfter settings values (n + 1) key = _ :=
    h.withValues.solves_recalculated key hkey'
  rw [during, withValues_withValues, formula_withValues] at hsolves
  refine hsolves.trans (cellValue_congr ?_)
  intro other hother
  split
  · rfl
  · exact h.valueAt_withValues hother

/-- A cell is exact after one recalculation and one more for each step forward on a path from it. -/
theorem WellFormed.valuesAfter_eq (h : sheet.WellFormed) (hacyclic : sheet.Acyclic)
    {exact : String → Float} (hexact : sheet.Exact settings exact) (hkey : key ∈ sheet.keys)
    {depth m n : Nat} (hdepth : ∀ path, sheet.IsPath key path → path.length < depth)
    (hm : ∀ path, sheet.IsPath key path → forward (key :: path) ≤ m) (hn : 1 + m ≤ n) :
    sheet.valuesAfter settings values n key = exact key := by
  induction depth generalizing key m n with
  | zero => exact absurd (hdepth [] .nil) (Nat.lt_irrefl 0)
  | succ depth ih =>
    obtain ⟨n, rfl⟩ := Nat.exists_eq_succ_of_ne_zero (n := n) (by omega)
    rw [h.valuesAfter_succ hkey, hexact key hkey]
    refine cellValue_congr_refers hkey ?_
    intro other hrefers
    have hdepth' : ∀ path, sheet.IsPath other path → path.length < depth := fun path hpath =>
      Nat.lt_of_succ_lt_succ (hdepth (other :: path) (isPath_cons.2 ⟨hrefers, hpath⟩))
    have hforward : ∀ path, sheet.IsPath other path →
        (if key < other then 1 else 0) + forward (other :: path) ≤ m := fun path hpath =>
      hm (other :: path) (isPath_cons.2 ⟨hrefers, hpath⟩)
    split
    · next hbefore =>
      -- the cell is visited before, and so has its new value already
      refine ih hrefers.mem_keys hdepth' (m := m) ?_ hn
      intro path hpath
      exact Nat.le_trans (Nat.le_add_left _ _) (hforward path hpath)
    · next hnot =>
      -- no cell refers to itself, so the cell is visited later: this is a step forward
      have hne : key ≠ other := by
        rintro rfl
        exact hacyclic key (.single hrefers)
      have hlt : key < other := Decidable.byContradiction fun hge =>
        hne (String.le_antisymm (String.not_lt.1 hnot) (String.not_lt.1 hge))
      simp only [if_pos hlt] at hforward
      have hone := hforward [] .nil
      refine ih hrefers.mem_keys hdepth' (m := m - 1) ?_ (by omega)
      intro path hpath
      have hle := hforward path hpath
      omega

/-- Where every reference goes down in some strict order, there is no cycle. -/
theorem acyclic_of_decreasing (r : String → String → Prop) (hirrefl : ∀ a, ¬ r a a)
    (htrans : ∀ a b c, r a b → r b c → r a c)
    (h : ∀ key other, sheet.Refers key other → r key other) : sheet.Acyclic := by
  have hpath : ∀ key other, Relation.TransGen sheet.Refers key other → r key other := by
    intro key other hpath
    induction hpath with
    | single hrefers => exact h _ _ hrefers
    | tail _ hrefers ih => exact htrans _ _ _ ih (h _ _ hrefers)
  intro key hcycle
  exact hirrefl key (hpath key key hcycle)

/-- Formulas that name smaller keys only make no cycle. -/
theorem acyclic_of_backward (h : ∀ key other, sheet.Refers key other → other < key) :
    sheet.Acyclic :=
  acyclic_of_decreasing (fun key other => other < key) String.lt_irrefl
    (fun _ _ _ hab hbc => String.lt_trans hbc hab) h

/-- Where cells refer to smaller keys only, no path has a forward step. -/
theorem forward_of_backward (h : ∀ key other, sheet.Refers key other → other < key)
    (hpath : sheet.IsPath key path) : forward (key :: path) = 0 := by
  induction path generalizing key with
  | nil => rfl
  | cons other path ih =>
    obtain ⟨hrefers, hrest⟩ := isPath_cons.1 hpath
    rw [forward, if_neg (String.lt_asymm (h key other hrefers)), ih hrest]

/-- Without cycles, all cells are exact after as many recalculations as there are cells. -/
theorem WellFormed.passes_eq (h : sheet.WellFormed) (hacyclic : sheet.Acyclic)
    {exact : String → Float} (hexact : sheet.Exact settings exact) (values : String → Float)
    {n : Nat} (hn : sheet.size ≤ n) :
    (sheet.withValues values).passes settings n = sheet.withValues exact := by
  rw [h.passes]
  refine withValues_congr ?_
  intro key hkey
  have hstale := hacyclic.stale_lt hkey
  exact h.valuesAfter_eq hacyclic hexact hkey (fun _ => hacyclic.length_lt hkey)
    (fun path hpath => (hacyclic.isGreatest_stale hkey).2 ⟨path, hpath, rfl⟩) (by omega)

/-- The exact values of a sheet without cycles are unique. -/
theorem Acyclic.exact_unique (hacyclic : sheet.Acyclic) (h : sheet.WellFormed)
    {exact exact' : String → Float} (hexact : sheet.Exact settings exact)
    (hexact' : sheet.Exact settings exact') : ∀ key ∈ sheet.keys, exact key = exact' key := by
  intro key hkey
  have heq : sheet.withValues exact = sheet.withValues exact' :=
    (h.passes_eq hacyclic hexact exact Nat.le.refl).symm.trans
      (h.passes_eq hacyclic hexact' exact Nat.le.refl)
  have hvalue : (sheet.withValues exact).valueAt key = exact key := h.valueAt_withValues hkey
  rw [← hvalue, heq, h.valueAt_withValues hkey]

/-- A recalculation leaves a sheet with exact values as it is. -/
theorem WellFormed.recalculate_exact (h : sheet.WellFormed) (hacyclic : sheet.Acyclic)
    {exact : String → Float} (hexact : sheet.Exact settings exact) :
    ((sheet.withValues exact).recalculate settings).sheet = sheet.withValues exact := by
  have hsize := h.passes_eq hacyclic hexact exact (Nat.le_refl sheet.size)
  have hnext := h.passes_eq hacyclic hexact exact (Nat.le_succ sheet.size)
  rw [Sheet.passes, Function.iterate_succ_apply', ← Sheet.passes, hsize] at hnext
  exact hnext

/-- Whatever the values were before, recalculations make a sheet without cycles exact. A cell is
exact after one recalculation and one more for each step forward on a path of references from it,
and so the whole sheet after as many as it has cells; then it stays as it is. If all references go
back to smaller keys, there are no cycles and one recalculation is enough. -/
theorem recalculate_converges (settings : Settings) (sheet : Sheet) (h : sheet.WellFormed) :
    (sheet.Acyclic →
      sheet.Exact settings (sheet.exactValue settings) ∧
      (∀ exact, sheet.Exact settings exact →
        ∀ key ∈ sheet.keys, exact key = sheet.exactValue settings key) ∧
      (∀ key ∈ sheet.keys,
        IsGreatest {m | ∃ path, sheet.IsPath key path ∧ forward (key :: path) = m}
          (sheet.stale key) ∧
        ∀ values n, 1 + sheet.stale key ≤ n →
          ((sheet.withValues values).passes settings n).value? key =
            some (sheet.exactValue settings key)) ∧
      (∀ values n, sheet.size ≤ n →
        (sheet.withValues values).passes settings n =
          sheet.withValues (sheet.exactValue settings)) ∧
      ((sheet.withValues (sheet.exactValue settings)).recalculate settings).sheet =
        sheet.withValues (sheet.exactValue settings)) ∧
    ((∀ key other, sheet.Refers key other → other < key) →
      sheet.Acyclic ∧ ∀ values, ((sheet.withValues values).recalculate settings).sheet =
        sheet.withValues (sheet.exactValue settings)) := by
  constructor
  · intro hacyclic
    have hexact : sheet.Exact settings (sheet.exactValue settings) := hacyclic.exact
    refine ⟨hexact, ?_, ?_, ?_, h.recalculate_exact hacyclic hexact⟩
    · intro exact hother
      exact hacyclic.exact_unique h hother hexact
    · intro key hkey
      have hgreatest := hacyclic.isGreatest_stale hkey
      refine ⟨hgreatest, ?_⟩
      intro values n hn
      rw [h.passes, value?_withValues, h.normal key hkey, if_pos hkey]
      exact congrArg some (h.valuesAfter_eq hacyclic hexact hkey (fun _ => hacyclic.length_lt hkey)
        (fun path hpath => hgreatest.2 ⟨path, hpath, rfl⟩) hn)
    · intro values n hn
      exact h.passes_eq hacyclic hexact values hn
  · intro hbackward
    have hacyclic := acyclic_of_backward hbackward
    refine ⟨hacyclic, ?_⟩
    intro values
    refine (h.passes 1).trans (withValues_congr ?_)
    intro key hkey
    exact h.valuesAfter_eq hacyclic hacyclic.exact hkey (fun _ => hacyclic.length_lt hkey)
      (fun path hpath => (forward_of_backward hbackward hpath).le) (Nat.le_refl 1)

/-- The first cell refers forward to the second, and this to the third; the fourth refers back to
the first. So the fourth is exact after three recalculations, and all are after five. -/
theorem recalculate_two_steps_forward :
    let sheet := run {} [.edit (.setFormula "a1" "b1+1"), .edit (.setFormula "b1" "C1*2"),
      .edit (.setFormula "C1" "7"), .edit (.setFormula "d1" "max(A1, c1)"),
      .edit (.setFormula "E1" "D1+Z9")]
    sheet.WellFormed ∧ sheet.Acyclic ∧ sheet.stale "D1" = 2 ∧
      (∀ values, ((sheet.withValues values).passes {} 3).value? "D1" = some 15) ∧
      ∀ values, (((sheet.withValues values).passes {} 5).value? "E1") = some notANumber := by
  intro sheet
  have hsheet : sheet.WellFormed := run_wellFormed ..
  let rank : String → Nat := ["C1", "B1", "A1", "D1", "E1"].idxOf
  have hrank : ∀ key ∈ sheet.keys, ∀ other ∈ sheet.referred key, rank other < rank key := by
    decide +kernel
  have hacyclic : sheet.Acyclic :=
    acyclic_of_decreasing (fun key other => rank other < rank key) (fun _ => Nat.lt_irrefl _)
      (fun _ _ _ hab hbc => Nat.lt_trans hbc hab)
      fun key other hrefers => hrank key hrefers.1 other hrefers.2
  obtain ⟨-, -, hcells, hall, -⟩ := (recalculate_converges {} sheet hsheet).1 hacyclic
  have hstale : sheet.stale "D1" = 2 := by decide +kernel
  have hD1 : sheet.exactValue {} "D1" = 15 := by decide +kernel
  have hE1 : sheet.exactValue {} "E1" = notANumber := by decide +kernel
  have hsize : sheet.size = 5 := by decide +kernel
  refine ⟨hsheet, hacyclic, hstale, ?_, ?_⟩
  · intro values
    rw [(hcells "D1" (by decide +kernel)).2 values 3 (by rw [hstale]), hD1]
  · intro values
    rw [hall values 5 hsize.le, value?_withValues, if_pos (by decide +kernel)]
    exact congrArg some hE1

end Sheet

/-! ## Spreadsheets -/

namespace Spreadsheet

variable {s : Spreadsheet}

/-- The spreadsheet after a number of recalculations. -/
def passes (n : Nat) (s : Spreadsheet) : Spreadsheet := (fun s => s.recalculate.2)^[n] s

/-- One pass more is a recalculation after the others. -/
theorem passes_succ (n : Nat) : s.passes (n + 1) = (s.passes n).recalculate.2 :=
  Function.iterate_succ_apply' ..

@[simp] theorem settings_passes (n : Nat) : (s.passes n).settings = s.settings := by
  induction n with
  | zero => rfl
  | succ n ih =>
    rw [passes_succ]
    exact ih

/-- Passes over a spreadsheet are passes over its sheet. -/
theorem sheet_passes (n : Nat) : (s.passes n).sheet = s.sheet.passes s.settings n := by
  induction n with
  | zero => rfl
  | succ n ih =>
    rw [passes_succ, Sheet.passes, Function.iterate_succ_apply', ← Sheet.passes, ← ih]
    exact congrArg (fun settings => ((s.passes n).sheet.recalculate settings).sheet)
      (settings_passes n)

/-- Recalculations change nothing but values. -/
theorem sheet_passes_eq (h : s.sheet.WellFormed) (n : Nat) :
    (s.passes n).sheet =
      s.sheet.withValues (s.sheet.valuesAfter s.settings s.sheet.valueAt n) := by
  rw [sheet_passes, ← h.passes, h.withValues_valueAt]

end Spreadsheet

end FormulaSheet
