import FormulaSheet.Proofs.ColumnNames
import Mathlib.Data.Char
import Mathlib.Data.List.Shortlex
import Mathlib.Tactic.Ring

/-!
# Columns are numbered in order

The capital letters of a text are the name of just one column, the one that they number in bijective
base 26 (`columnLetters_columnValue`), and columns come in the order of their names, the shorter
ones first (`columnValue_lt_of_shortlex`).

The letters can be computed in words of 64 bits (`wordLetters`): as long as the index is not the
greatest word, no operation overflows (`wordName?_eq`).
-/

namespace FormulaSheet

/-- Capital letters, and at least one. -/
def IsColumnName (s : List Char) : Prop := s ≠ [] ∧ ∀ c ∈ s, c.isUpper = true

instance (s : List Char) : Decidable (IsColumnName s) :=
  decidable_of_iff (s.isEmpty = false ∧ s.all Char.isUpper = true) (by
    rw [IsColumnName, List.isEmpty_eq_false_iff, List.all_eq_true])

variable {s t : List Char} {c d : Char}

/-! ## Letters that number a column -/

/-- A capital letter is the one that its place in the alphabet gives back. -/
theorem columnLetter_of_isUpper (h : c.isUpper = true) :
    columnLetter (c.toNat - 'A'.toNat) = c := by
  obtain ⟨hfirst, -⟩ := isUpper_iff.1 h
  rw [columnLetter, show 'A'.toNat = 65 from rfl, Nat.add_sub_cancel' hfirst, Char.ofNat_toNat]

/-- There are 26 capital letters. -/
theorem digit_lt_of_isUpper (h : c.isUpper = true) : c.toNat - 'A'.toNat < 26 := by
  obtain ⟨-, hlast⟩ := isUpper_iff.1 h
  rw [show 'A'.toNat = 65 from rfl]
  omega

/-- Letters are the letters of the number that they stand for. -/
theorem columnLetters_columnValue (h : ∀ c ∈ s, c.isUpper = true) :
    columnLetters (columnValue s) [] = s := by
  induction s using List.reverseRecOn with
  | nil => exact columnLetters_zero []
  | append_singleton s c ih =>
    obtain ⟨hs, hc⟩ := List.forall_mem_append.1 h
    have hc : c.isUpper = true := hc c (List.mem_singleton.2 rfl)
    have hdigit := digit_lt_of_isUpper hc
    have hquotient : (26 * columnValue s + (c.toNat - 'A'.toNat)) / 26 = columnValue s := by omega
    have hremainder : (26 * columnValue s + (c.toNat - 'A'.toNat)) % 26 = c.toNat - 'A'.toNat := by
      omega
    rw [columnValue_append_singleton, ← Nat.add_assoc, columnLetters_succ_nil, hquotient,
      hremainder, ih hs, columnLetter_of_isUpper hc]

/-- Letters number no column before the first. -/
theorem columnValue_pos (h : s ≠ []) : 0 < columnValue s := by
  obtain ⟨s, c, rfl⟩ := List.eq_nil_or_concat' s |>.resolve_left h
  rw [columnValue_append_singleton]
  omega

/-- The name of a column is the one text of capital letters that numbers it. -/
theorem isColumnName_and_columnValue_iff {name : String} {n : Nat} :
    IsColumnName name.toList ∧ columnValue name.toList = n + 1 ↔ name = columnName n := by
  constructor
  · rintro ⟨⟨-, hupper⟩, hvalue⟩
    rw [← String.ofList_toList (s := name), ← columnLetters_columnValue hupper, hvalue]
    rfl
  · rintro rfl
    refine ⟨⟨fun hnil => ?_, fun c => isUpper_of_mem_columnName⟩, columnValue_columnName n⟩
    have hvalue := columnValue_columnName n
    rw [hnil] at hvalue
    cases hvalue

/-- No two columns have one name. -/
theorem columnName_injective {m n : Nat} (h : columnName m = columnName n) : m = n := by
  have hvalue := columnValue_columnName m
  rw [h, columnValue_columnName] at hvalue
  omega

/-! ## Order -/

/-- The number of the first column with a name of `length` letters, which are all `A`. -/
def firstOfLength : Nat → Nat
  | 0 => 0
  | length + 1 => 26 * firstOfLength length + 1

/-- Longer names begin at later columns. -/
theorem firstOfLength_mono {k l : Nat} (h : k ≤ l) : firstOfLength k ≤ firstOfLength l := by
  induction h with
  | refl => exact Nat.le_refl _
  | step _ ih =>
    rw [firstOfLength]
    omega

/-- The names shorter than a length are as many as the powers of 26 below it add up to. -/
theorem firstOfLength_eq (k : Nat) : 25 * firstOfLength k + 1 = 26 ^ k := by
  induction k with
  | zero => rfl
  | succ k ih =>
    rw [firstOfLength, Nat.pow_succ, ← ih]
    ring

/-- Letters number a column between `A…A` and `Z…Z`. -/
theorem columnValue_bounds (h : ∀ c ∈ s, c.isUpper = true) :
    firstOfLength s.length ≤ columnValue s ∧ columnValue s ≤ 26 * firstOfLength s.length := by
  induction s using List.reverseRecOn with
  | nil => exact ⟨Nat.le_refl 0, Nat.le_refl 0⟩
  | append_singleton s c ih =>
    obtain ⟨hs, hc⟩ := List.forall_mem_append.1 h
    have hdigit := digit_lt_of_isUpper (hc c (List.mem_singleton.2 rfl))
    have hbounds := ih hs
    rw [columnValue_append_singleton, List.length_append, List.length_singleton, firstOfLength]
    omega

/-- A letter on the left weighs 26 to the power of the number of letters behind it. -/
theorem columnValue_cons (c : Char) (s : List Char) :
    columnValue (c :: s) = (c.toNat - 'A'.toNat + 1) * 26 ^ s.length + columnValue s := by
  induction s using List.reverseRecOn with
  | nil => simp [columnValue]
  | append_singleton s d ih =>
    rw [← List.cons_append, columnValue_append_singleton, columnValue_append_singleton, ih,
      List.length_append, List.length_singleton, Nat.pow_succ]
    ring

/-- Of two names of one length the alphabetically first numbers the first column. -/
theorem columnValue_lt_of_lex (hs : ∀ c ∈ s, c.isUpper = true) (ht : ∀ c ∈ t, c.isUpper = true)
    (hlength : s.length = t.length) (h : List.Lex (· < ·) s t) : columnValue s < columnValue t := by
  induction h with
  | nil => cases hlength
  | @cons c s t _ ih =>
    have hlength : s.length = t.length := Nat.succ_inj.1 hlength
    have hlt := ih (fun d hd => hs d (.tail c hd)) (fun d hd => ht d (.tail c hd)) hlength
    rw [columnValue_cons, columnValue_cons, hlength]
    omega
  | @rel c s d t hcd =>
    have hlength : s.length = t.length := Nat.succ_inj.1 hlength
    have hs' := (columnValue_bounds fun e he => hs e (.tail c he)).2
    have ht' := (columnValue_bounds fun e he => ht e (.tail d he)).1
    have hpower := firstOfLength_eq t.length
    obtain ⟨hc, -⟩ := isUpper_iff.1 (hs c List.mem_cons_self)
    have hdigits : c.toNat - 'A'.toNat + 1 + 1 ≤ d.toNat - 'A'.toNat + 1 := by
      have hcd : c.toNat < d.toNat := hcd
      rw [show 'A'.toNat = 65 from rfl]
      omega
    have hweight := Nat.mul_le_mul_right (26 ^ t.length) hdigits
    rw [Nat.add_mul, Nat.one_mul] at hweight
    rw [columnValue_cons, columnValue_cons, hlength]
    rw [hlength] at hs'
    omega

/-- The order of names, by length and then alphabetical, is the order of the columns. -/
theorem columnValue_lt_of_shortlex (hs : ∀ c ∈ s, c.isUpper = true)
    (ht : ∀ c ∈ t, c.isUpper = true) (h : List.Shortlex (· < ·) s t) :
    columnValue s < columnValue t := by
  obtain hlength | ⟨hlength, hlex⟩ := List.shortlex_def.1 h
  · calc
      columnValue s ≤ 26 * firstOfLength s.length := (columnValue_bounds hs).2
      _ < firstOfLength (s.length + 1) := Nat.lt_succ_self _
      _ ≤ firstOfLength t.length := firstOfLength_mono hlength
      _ ≤ columnValue t := (columnValue_bounds ht).1
  · exact columnValue_lt_of_lex hs ht hlength hlex

/-- Columns come in the order of their names by length and then alphabetically. -/
theorem lt_iff_shortlex_columnName {m n : Nat} :
    m < n ↔ List.Shortlex (· < ·) (columnName m).toList (columnName n).toList := by
  have hlt : ∀ m n, List.Shortlex (· < ·) (columnName m).toList (columnName n).toList → m < n := by
    intro m n h
    have hvalue := columnValue_lt_of_shortlex (fun _ => isUpper_of_mem_columnName)
      (fun _ => isUpper_of_mem_columnName) h
    rw [columnValue_columnName, columnValue_columnName] at hvalue
    omega
  refine ⟨fun h => ?_, hlt m n⟩
  obtain hmn | heq | hnm := trichotomous_of (List.Shortlex (· < ·)) (columnName m).toList
    (columnName n).toList
  · exact hmn
  · exact absurd (columnName_injective (String.toList_injective heq)) (Nat.ne_of_lt h)
  · exact absurd (hlt n m hnm) (Nat.lt_asymm h)

/-! ## Words -/

section
variable {rest : UInt64}

/-- The successor of a word that is not the greatest is its successor as a number. -/
theorem toNat_add_one (h : rest.toNat + 1 < 2 ^ 64) : (rest + 1).toNat = rest.toNat + 1 := by
  rw [UInt64.toNat_add, show UInt64.toNat 1 = 1 from rfl, Nat.mod_eq_of_lt h]

/-- The successor of a word that is not the greatest does not overflow. -/
theorem not_add_one_lt (h : rest.toNat + 1 < 2 ^ 64) : ¬ rest + 1 < rest := by
  rw [UInt64.lt_iff_toNat_lt, toNat_add_one h]
  omega

/-- A word that is not 0 is positive as a number. -/
theorem toNat_pos (h : rest ≠ 0) : 0 < rest.toNat :=
  UInt64.lt_iff_toNat_lt.1 (UInt64.pos_iff_ne_zero.2 h)

/-- Taking one off a word does not go below 0 if the word is not 0. -/
theorem toNat_sub_one (h : rest ≠ 0) : (rest - 1).toNat = rest.toNat - 1 :=
  UInt64.toNat_sub_of_le rest 1 (UInt64.le_iff_toNat_le.2 (toNat_pos h))

/-- The quotient of words is that of their numbers. -/
theorem toNat_quotient (h : rest ≠ 0) : ((rest - 1) / 26).toNat = (rest.toNat - 1) / 26 := by
  rw [UInt64.toNat_div, toNat_sub_one h]
  rfl

/-- The remainder fits into a byte. -/
theorem toNat_digit (h : rest ≠ 0) :
    ((rest - 1) % 26).toUInt8.toNat = (rest.toNat - 1) % 26 := by
  have hmod : (rest - 1).toNat % 26 < 26 := Nat.mod_lt _ (by decide)
  rw [UInt64.toNat_toUInt8, UInt64.toNat_mod, show UInt64.toNat 26 = 26 from rfl,
    Nat.mod_eq_of_lt (by omega), toNat_sub_one h]

/-- A letter fits into a byte. -/
theorem toNat_letter (h : rest ≠ 0) :
    ('A'.toUInt8 + ((rest - 1) % 26).toUInt8).toNat = 65 + (rest.toNat - 1) % 26 := by
  have hmod : (rest.toNat - 1) % 26 < 26 := Nat.mod_lt _ (by decide)
  rw [UInt8.toNat_add, toNat_digit h, show 'A'.toUInt8.toNat = 65 from rfl]
  omega

end

/-- The letters of a number as bytes, followed by `letters`, computed in words of 64 bits, or
nothing if a letter overflows its byte. One is taken off the number only where it is not zero. -/
def wordLetters (rest : UInt64) (letters : List UInt8) : Option (List UInt8) :=
  if rest = 0 then some letters
  else
    let digit := ((rest - 1) % 26).toUInt8
    let letter := 'A'.toUInt8 + digit
    if letter < digit then none else wordLetters ((rest - 1) / 26) (letter :: letters)
termination_by rest.toNat
decreasing_by
  have hrest : rest ≠ 0 := by assumption
  have hpos := toNat_pos hrest
  rw [toNat_quotient hrest]
  omega

/-- The name of a column as bytes, computed in words of 64 bits, or nothing if an operation
overflows. -/
def wordName? (index : UInt64) : Option (List UInt8) :=
  if index + 1 < index then none else wordLetters (index + 1) []

/-- The characters that bytes stand for in ASCII. -/
def charsOfBytes (bytes : List UInt8) : List Char := bytes.map fun b => Char.ofNat b.toNat

/-- No letter overflows, whatever the number is. -/
theorem wordLetters_eq (rest : UInt64) (letters : List UInt8) :
    (wordLetters rest letters).map charsOfBytes =
      some (columnLetters rest.toNat (charsOfBytes letters)) := by
  fun_induction wordLetters rest letters with
  | case1 letters =>
    rw [Option.map_some, UInt64.toNat_zero, columnLetters_zero]
  | case2 rest letters hrest digit letter hoverflow =>
    have hlt : letter.toNat < digit.toNat := UInt8.lt_iff_toNat_lt.1 hoverflow
    rw [toNat_letter hrest, toNat_digit hrest] at hlt
    omega
  | case3 rest letters hrest digit letter hoverflow ih =>
    have hpos := toNat_pos hrest
    have hletter : charsOfBytes (letter :: letters) =
        columnLetter ((rest.toNat - 1) % 26) :: charsOfBytes letters := by
      rw [charsOfBytes, List.map_cons, toNat_letter hrest]
      rfl
    rw [ih, toNat_quotient hrest, hletter, ← columnLetters_succ, Nat.sub_add_cancel hpos]

/-- Only the greatest word overflows as an index. -/
theorem wordName?_eq {index : UInt64} (h : index.toNat + 1 < 2 ^ 64) :
    (wordName? index).map charsOfBytes = some (columnName index.toNat).toList := by
  rw [wordName?, if_neg (not_add_one_lt h), wordLetters_eq, toNat_add_one h, toList_columnName]
  rfl

/-- For every index below the greatest word the name is computed in words without an overflow, and
it is the one text of capital letters that numbers the column in bijective base 26. Every such text
is the name of just one column, as far as its number is a word, and the order of the columns is that
of their names by length and then alphabetically. -/
theorem column_numbering :
    (∀ index : UInt64, index.toNat + 1 < 2 ^ 64 →
      (wordName? index).map charsOfBytes = some (columnName index.toNat).toList ∧
      ∀ name : String, IsColumnName name.toList ∧ columnValue name.toList = index.toNat + 1 ↔
        name = columnName index.toNat) ∧
    (∀ name : String, IsColumnName name.toList → columnValue name.toList < 2 ^ 64 →
      ∃! index, index + 1 < 2 ^ 64 ∧ columnName index = name) ∧
    ∀ m n, m < n ↔ List.Shortlex (· < ·) (columnName m).toList (columnName n).toList := by
  refine ⟨fun index h => ⟨wordName?_eq h, fun name => isColumnName_and_columnValue_iff⟩, ?_,
    fun m n => lt_iff_shortlex_columnName⟩
  intro name hname hvalue
  have hpos := columnValue_pos hname.1
  have hindex : columnValue name.toList - 1 + 1 = columnValue name.toList := Nat.sub_add_cancel hpos
  have heq : name = columnName (columnValue name.toList - 1) :=
    isColumnName_and_columnValue_iff.1 ⟨hname, hindex.symm⟩
  refine ⟨columnValue name.toList - 1, ⟨by omega, heq.symm⟩, ?_⟩
  rintro index ⟨-, hother⟩
  exact columnName_injective (hother.trans heq)

/-- The last column, and the columns on either side of the border to three letters. -/
theorem column_numbering_at_borders :
    (wordName? 18446744073709551614).map charsOfBytes = some "GKGWBYLWRXTLPO".toList ∧
    columnName 701 = "ZZ" ∧ columnName 702 = "AAA" ∧
    (∃! index, index + 1 < 2 ^ 64 ∧ columnName index = "AAA") ∧
    List.Shortlex (· < ·) (columnName 701).toList (columnName 702).toList := by
  obtain ⟨hindices, hnames, horder⟩ := column_numbering
  obtain ⟨hword, hlast⟩ := hindices 18446744073709551614 (by decide)
  have hlast : "GKGWBYLWRXTLPO" = columnName 18446744073709551614 := (hlast _).1 (by decide +kernel)
  have hzz : "ZZ" = columnName 701 := ((hindices 701 (by decide)).2 "ZZ").1 (by decide +kernel)
  have haaa : "AAA" = columnName 702 := ((hindices 702 (by decide)).2 "AAA").1 (by decide +kernel)
  rw [hlast]
  exact ⟨hword, hzz.symm, haaa.symm, hnames "AAA" (by decide +kernel) (by decide +kernel),
    (horder 701 702).1 (by decide)⟩

end FormulaSheet
