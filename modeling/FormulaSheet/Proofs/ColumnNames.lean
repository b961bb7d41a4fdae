import FormulaSheet.Grid.Column
import FormulaSheet.Proofs.Names
import Mathlib.Data.List.Induction

/-!
# Column names are numbers

The name of a column is a number written in bijective base 26. `columnValue` reads the number off
letters again (`columnValue_columnLetters`), so that no two columns have one name. Letters that are
appended make the number greater (`columnValue_le_append`), and so the first column whose name
begins with given letters is the one that they name.
-/

namespace FormulaSheet

/-! ## Letters -/

/-- The number that letters stand for in bijective base 26. -/
def columnValue (letters : List Char) : Nat :=
  letters.foldl (fun value c => 26 * value + (c.toNat - 'A'.toNat + 1)) 0

/-- The letters for 0 to 25 are the capital letters in their order. -/
theorem columnLetter_spec : ∀ digit < 26, (columnLetter digit).isUpper = true ∧
    (columnLetter digit).toNat - 'A'.toNat = digit := by
  decide

/-- A letter on the right makes the others weigh 26 times as much. -/
theorem columnValue_append_singleton (letters : List Char) (c : Char) :
    columnValue (letters ++ [c]) = 26 * columnValue letters + (c.toNat - 'A'.toNat + 1) :=
  List.foldl_append ..

/-- More letters name a later column. -/
theorem columnValue_le_append (letters more : List Char) :
    columnValue letters ≤ columnValue (letters ++ more) := by
  induction more using List.reverseRecOn with
  | nil => simp
  | append_singleton more c ih =>
    rw [← List.append_assoc, columnValue_append_singleton]
    omega

/-! ## Letters of a number -/

theorem columnLetters_zero (suffix : List Char) : columnLetters 0 suffix = suffix := by
  rw [columnLetters, if_pos rfl]

/-- The last letter of a number is its remainder, and the others are those of its quotient. -/
theorem columnLetters_succ (n : Nat) (suffix : List Char) :
    columnLetters (n + 1) suffix = columnLetters (n / 26) (columnLetter (n % 26) :: suffix) := by
  rw [columnLetters, if_neg (Nat.succ_ne_zero n), Nat.add_sub_cancel]

/-- What follows the letters of a number is left as it is. -/
theorem columnLetters_append (number : Nat) (suffix : List Char) :
    columnLetters number suffix = columnLetters number [] ++ suffix := by
  induction number using Nat.strongRecOn generalizing suffix with
  | ind number ih =>
    cases number with
    | zero => rw [columnLetters_zero, columnLetters_zero, List.nil_append]
    | succ n =>
      have hrest := ih (n / 26) (by omega)
      rw [columnLetters_succ, columnLetters_succ, hrest, hrest [_], List.append_assoc,
        List.singleton_append]

/-- The last letter of a number, and the letters of the number that weighs 26 times as much. -/
theorem columnLetters_succ_nil (n : Nat) :
    columnLetters (n + 1) [] = columnLetters (n / 26) [] ++ [columnLetter (n % 26)] := by
  rw [columnLetters_succ, columnLetters_append]

/-- A number is written in capital letters. -/
theorem isUpper_of_mem_columnLetters {number : Nat} {c : Char}
    (h : c ∈ columnLetters number []) : c.isUpper = true := by
  induction number using Nat.strongRecOn with
  | ind number ih =>
    cases number with
    | zero =>
      rw [columnLetters_zero] at h
      cases h
    | succ n =>
      rw [columnLetters_succ_nil, List.mem_append, List.mem_singleton] at h
      obtain h | rfl := h
      · exact ih (n / 26) (by omega) h
      · exact (columnLetter_spec (n % 26) (Nat.mod_lt n (by decide))).1

/-- The letters of a number stand for it. -/
theorem columnValue_columnLetters (number : Nat) :
    columnValue (columnLetters number []) = number := by
  induction number using Nat.strongRecOn with
  | ind number ih =>
    cases number with
    | zero =>
      rw [columnLetters_zero]
      rfl
    | succ n =>
      have hdigit := (columnLetter_spec (n % 26) (Nat.mod_lt n (by decide))).2
      rw [columnLetters_succ_nil, columnValue_append_singleton, ih (n / 26) (by omega), hdigit]
      omega

/-! ## Names -/

/-- The name of a column is its number, counted from 1, in letters. -/
theorem toList_columnName (col : Nat) : (columnName col).toList = columnLetters (col + 1) [] :=
  String.toList_ofList

/-- The name of a column numbers it, counted from 1. -/
theorem columnValue_columnName (col : Nat) : columnValue (columnName col).toList = col + 1 := by
  rw [toList_columnName, columnValue_columnLetters]

/-- Columns are named in capital letters. -/
theorem isUpper_of_mem_columnName {col : Nat} {c : Char} (h : c ∈ (columnName col).toList) :
    c.isUpper = true := by
  rw [toList_columnName] at h
  exact isUpper_of_mem_columnLetters h

/-- A column has no name that begins with given letters unless it is as far on as they name. -/
theorem le_of_prefix_columnName {letters : List Char} {col : Nat}
    (h : letters <+: (columnName col).toList) : columnValue letters ≤ col + 1 := by
  obtain ⟨more, hmore⟩ := h
  rw [← columnValue_columnName col, ← hmore]
  exact columnValue_le_append letters more

end FormulaSheet
