import FormulaSheet.Grid.Position
import FormulaSheet.Proofs.ColumnNumbering
import FormulaSheet.Proofs.Faults
import FormulaSheet.Proofs.ValueText

/-!
# Names of positions

The name of a position is made of capital letters and then digits, and so can be taken apart again
(`Position.name_injective`). In a formula it is the name of its cell, unless its letters begin with
`NOT`: then it is read as the negation of what the rest of the name is read as
(`Position.parse_name_of_not`). The name can be computed in words of 64 bits
(`Position.wordName?_eq`), and a list of positions can be sorted by row and then by column in one
way only (`Position.sort_eq_of_perm`).
-/

namespace FormulaSheet

variable {letters digits s w : List Char} {c : Char}

/-! ## Characters -/

/-- Capital letters are letters. -/
theorem isLetter_of_isUpper (h : c.isUpper = true) : isLetter c = true := by
  obtain ⟨hfirst, hlast⟩ := isUpper_iff.1 h
  show (if c.toNat < 65 then false else decide (c.toNat ≤ 90) || _) = true
  rw [if_neg (Nat.not_lt.2 hfirst), decide_eq_true hlast, Bool.true_or]

/-- Digits are letters or numerals. -/
theorem isLetterOrNumeral_of_isDigit (h : c.isDigit = true) : isLetterOrNumeral c = true := by
  obtain ⟨hfirst, hlast⟩ := isDigit_iff.1 h
  have hnumeral : isNumeral c = true := by
    show (if c.toNat < 48 then false else decide (c.toNat ≤ 57) || _) = true
    rw [if_neg (Nat.not_lt.2 hfirst), decide_eq_true hlast, Bool.true_or]
  rw [isLetterOrNumeral, hnumeral, Bool.or_true]

/-- No digit is a capital letter. -/
theorem not_isUpper_of_isDigit (h : c.isDigit = true) : c.isUpper = false := by
  refine Bool.eq_false_iff.2 ?_
  intro hupper
  have hdigit := isDigit_iff.1 h
  have hletter := isUpper_iff.1 hupper
  omega

/-! ## Capital letters before digits -/

section

variable (hletters : ∀ c ∈ letters, c.isUpper = true) (hdigits : ∀ c ∈ digits, c.isDigit = true)

include hletters hdigits

/-- Capital letters and digits are their own upper case. -/
theorem upperCase_of_mem_append : ∀ c ∈ letters ++ digits, upperCase c = [c] :=
  List.forall_mem_append.2 ⟨fun c hc => upperCase_of_isUpper (hletters c hc),
    fun c hc => upperCase_of_isDigit (hdigits c hc)⟩

/-- Capital letters and digits can stand in a name. -/
theorem isLetterOrNumeral_of_mem_append : ∀ c ∈ letters ++ digits, isLetterOrNumeral c = true :=
  List.forall_mem_append.2
    ⟨fun c hc => isLetterOrNumeral_of_isLetter (isLetter_of_isUpper (hletters c hc)),
      fun c hc => isLetterOrNumeral_of_isDigit (hdigits c hc)⟩

/-- The letters are told apart from the digits. -/
theorem span_isUpper_append : (letters ++ digits).takeWhile Char.isUpper = letters ∧
    (letters ++ digits).dropWhile Char.isUpper = digits :=
  Grammar.span_append hletters fun c hc =>
    not_isUpper_of_isDigit (hdigits c (List.mem_of_mem_head? hc))

/-- Capital letters before digits spell a name. -/
theorem spells_name (hne : letters ≠ []) :
    (Token.name (letters ++ digits)).Spells (letters ++ digits) := by
  have hall := isLetterOrNumeral_of_mem_append hletters hdigits
  cases letters with
  | nil => exact absurd rfl hne
  | cons c cs =>
    have hc := isLetter_of_isUpper (hletters c List.mem_cons_self)
    exact .name hc (List.forall_mem_cons.1 hall).2

end

/-! ## The word at the beginning -/

/-- In upper case, the word `not` is at the beginning only as `NOT`. -/
theorem prefix_of_take_toLower (hs : ∀ c ∈ s, upperCase c = [c])
    (h : (s.take 3).map Char.toLower = ['n', 'o', 't']) : "NOT".toList <+: s := by
  have hfixed : upperCaseText (s.take 3) = s.take 3 :=
    upperCaseText_of_fixed fun c hc => hs c (List.mem_of_mem_take hc)
  have htake : s.take 3 = "NOT".toList := by
    rw [← hfixed, ← upperCaseText_map_toLower, h]
    decide +kernel
  exact htake ▸ List.take_prefix 3 s

/-- Capital letters at the beginning do not reach into the digits. -/
theorem prefix_letters (hw : ∀ c ∈ w, c.isUpper = true)
    (hdigits : ∀ c ∈ digits, c.isDigit = true) (h : w <+: letters ++ digits) : w <+: letters := by
  obtain h | ⟨more, rfl⟩ := List.prefix_or_prefix_of_prefix h (List.prefix_append letters digits)
  · exact h
  · have hmore : more <+: digits := (List.prefix_append_right_inj letters).1 h
    cases more with
    | nil => rw [List.append_nil]
    | cons c more =>
      have hdigit := not_isUpper_of_isDigit (hdigits c (hmore.subset List.mem_cons_self))
      rw [hw c (List.mem_append_right _ List.mem_cons_self)] at hdigit
      cases hdigit

/-- The word `NOT` before a text, without white space of its own. -/
def Layout.afterNot (l : Layout) : Layout where
  before := []
  lexemes := ⟨.keyword "not", "NOT".toList, l.before, .keyword (by decide) (by decide), l.blank⟩ ::
    l.lexemes
  blank := allBlank_nil
  notNot := List.forall_mem_cons.2 ⟨id, l.notNot⟩
  apart := by
    refine List.isChain_cons.2 ⟨?_, l.apart⟩
    intro x _ hname
    exact hname.elim

/-- The lexeme for a negation puts three letters before the text. -/
theorem Layout.text_afterNot (l : Layout) : l.afterNot.text = "NOT".toList ++ l.text := by
  simp [Layout.text, Layout.afterNot, Lexeme.text]

/-- What is read behind a negation is negated. -/
theorem Derives.afterNot {l : Layout} {e : Expr} (h : Derives .signed l.tokens e) :
    Derives .signed l.afterNot.tokens (.unary .not e) :=
  h.sign .not

section

variable (hletters : ∀ c ∈ letters, c.isUpper = true) (hdigits : ∀ c ∈ digits, c.isDigit = true)

include hletters hdigits

/-- Letters that do not begin with the word do not begin a negation. -/
theorem not_beginsWithNot (hnot : ¬ "NOT".toList <+: letters) :
    ¬ (Token.name (letters ++ digits)).BeginsWithNot := by
  intro hbegins
  have hprefix := prefix_of_take_toLower (upperCase_of_mem_append hletters hdigits) hbegins
  exact hnot (prefix_letters (List.all_eq_true.1 rfl) hdigits hprefix)

/-- Capital letters and digits are read as a number or a name after any number of negations. -/
theorem exists_signed (hne : digits ≠ []) :
    ∃ (l : Layout) (e : Expr), l.text = letters ++ digits ∧ Derives .signed l.tokens e ∧
      ∀ name ∈ e.references, name.toList <:+ letters ++ digits := by
  induction hlength : letters.length using Nat.strongRecOn generalizing letters with
  | ind length ih =>
    by_cases hnot : "NOT".toList <+: letters
    · obtain ⟨rest, rfl⟩ := hnot
      have hlt : rest.length < length := by
        rw [← hlength, List.length_append]
        exact Nat.lt_add_of_pos_left (by decide)
      obtain ⟨l, e, htext, hd, hreferences⟩ := ih _ hlt (List.forall_mem_append.1 hletters).2 rfl
      refine ⟨l.afterNot, .unary .not e, ?_, hd.afterNot, ?_⟩
      · rw [l.text_afterNot, htext, List.append_assoc]
      · intro name hname
        rw [List.append_assoc]
        exact (hreferences name hname).trans (List.suffix_append _ _)
    · by_cases hnil : letters = []
      · subst hnil
        refine ⟨.ofSign false (.whole hne hdigits) id, _, ?_, @Derives.signed [] _ _ .number, ?_⟩
        · simp [Layout.text, Layout.ofSign, Lexeme.text]
        · exact List.forall_mem_nil _
      · refine ⟨.ofSign false (spells_name hletters hdigits hnil)
          (not_beginsWithNot hletters hdigits hnot), _, ?_, @Derives.signed [] _ _ .name, ?_⟩
        · simp [Layout.text, Layout.ofSign, Lexeme.text]
        · refine List.forall_mem_singleton.2 ?_
          rw [String.toList_ofList]

end

/-! ## Names of positions -/

namespace Position

variable {p q : Position} {sheet : Sheet} {settings : Settings}

/-- A name is the letters of the column before the digits of the row. -/
theorem toList_name (p : Position) :
    p.name.toList = (columnName p.col).toList ++ Nat.toDigits 10 (p.row + 1) := by
  rw [name, String.toList_ofList, columnLetters_append, toList_columnName]

/-- The letters of a name are capital letters. -/
theorem isUpper_of_mem_letters (p : Position) : ∀ c ∈ (columnName p.col).toList, c.isUpper = true :=
  fun _ => isUpper_of_mem_columnName

/-- The digits of a name are digits. -/
theorem isDigit_of_mem_digits (p : Position) :
    ∀ c ∈ Nat.toDigits 10 (p.row + 1), c.isDigit = true :=
  fun _ => Nat.isDigit_of_mem_toDigits (by decide) (by decide)

/-- The characters of a name are their own upper case. -/
theorem upperCase_of_mem_name (p : Position) : ∀ c ∈ p.name.toList, upperCase c = [c] := by
  rw [toList_name]
  exact upperCase_of_mem_append p.isUpper_of_mem_letters p.isDigit_of_mem_digits

/-- The letters of a name give the column and the digits the row. -/
theorem name_injective (h : p.name = q.name) : p = q := by
  have hchars := congrArg String.toList h
  rw [toList_name, toList_name] at hchars
  obtain ⟨hletters, hdigits⟩ :=
    span_isUpper_append p.isUpper_of_mem_letters p.isDigit_of_mem_digits
  obtain ⟨hletters', hdigits'⟩ :=
    span_isUpper_append q.isUpper_of_mem_letters q.isDigit_of_mem_digits
  rw [hchars] at hletters hdigits
  have hcol : p.col + 1 = q.col + 1 := by
    rw [← columnValue_columnName, ← columnValue_columnName, ← hletters, hletters']
  have hrow : p.row + 1 = q.row + 1 := by
    rw [← Nat.ofDigitChars_ten_toDigits (n := p.row + 1), ← hdigits, hdigits',
      Nat.ofDigitChars_ten_toDigits]
  exact congrArg₂ Position.mk (Nat.succ.inj hrow) (Nat.succ.inj hcol)

/-- The name of a position is its own normal form. -/
theorem normalName_name (p : Position) : normalName p.name = p.name := by
  rw [normalName, upperCaseText_of_fixed p.upperCase_of_mem_name, String.ofList_toList]

/-- The name in any case of its letters has the name for its normal form. -/
theorem normalName_of_toLower {written : String}
    (h : written.toList.map Char.toLower = p.name.toList.map Char.toLower) :
    normalName written = p.name :=
  (normalName_eq_of_toLower h).trans p.normalName_name

/-! ## Names of positions in formulas -/

/-- A name is read as a reference unless its letters begin with `NOT`. -/
theorem parse_name (h : ¬ "NOT".toList <+: (columnName p.col).toList) :
    parse p.name = .ok (.cell p.name) := by
  have hne : (columnName p.col).toList ≠ [] := by
    intro hnil
    have hvalue := columnValue_columnName p.col
    rw [hnil] at hvalue
    exact Nat.succ_ne_zero _ hvalue.symm
  have hparse := parse_ofSign false
    (spells_name p.isUpper_of_mem_letters p.isDigit_of_mem_digits hne)
    (not_beginsWithNot p.isUpper_of_mem_letters p.isDigit_of_mem_digits h) .name
  rw [← toList_name] at hparse
  simpa using hparse

/-- A name has the value of its cell, or fails for want of it. -/
theorem evaluate_name (h : ¬ "NOT".toList <+: (columnName p.col).toList) :
    sheet.evaluate settings p.name =
      match sheet.value? p.name with
      | some value => .ok value
      | none => .error (.fault (.unknownCell p.name)) := by
  rw [Sheet.evaluate_of_parse_ok (parse_name h), Expr.eval, Sheet.lookup, normalName_name]
  cases sheet.value? p.name <;> rfl

/-- A name that begins with `NOT` is read as a negation, and the cell of the name is not among the
cells that the negation refers to. -/
theorem parse_name_of_not (h : "NOT".toList <+: (columnName p.col).toList) :
    ∃ e, parse (String.ofList (p.name.toList.drop 3)) = .ok e ∧
      parse p.name = .ok (.unary .not e) ∧ ∀ name ∈ e.references, normalName name ≠ p.name := by
  obtain ⟨rest, hrest⟩ := h
  have hletters := p.isUpper_of_mem_letters
  have hname := p.toList_name
  rw [← hrest] at hletters hname
  rw [List.append_assoc] at hname
  obtain ⟨l, e, htext, hd, hreferences⟩ := exists_signed (List.forall_mem_append.1 hletters).2
    p.isDigit_of_mem_digits Nat.toDigits_ne_nil
  have hnot := Layout.parse_text hd.afterNot.of_signed
  rw [l.text_afterNot, htext, ← hname, String.ofList_toList] at hnot
  have hdrop : p.name.toList.drop 3 = l.text := by
    rw [hname, List.drop_left' (by decide), htext]
  refine ⟨e, hdrop ▸ Layout.parse_text hd.of_signed, hnot, ?_⟩
  intro name hmem heq
  have hsuffix : name.toList <:+ p.name.toList.drop 3 := hdrop ▸ htext ▸ hreferences name hmem
  have hfixed : ∀ c ∈ name.toList, upperCase c = [c] := fun c hc =>
    p.upperCase_of_mem_name c (List.mem_of_mem_drop (hsuffix.subset hc))
  rw [normalName, upperCaseText_of_fixed hfixed, String.ofList_toList] at heq
  have hlength := hsuffix.length_le
  rw [heq, hname, List.length_drop, List.length_append] at hlength
  have hthree : "NOT".toList.length = 3 := by decide
  omega

/-! ## Cells of positions -/

/-- The name of a position finds its cell in any case. -/
theorem get?_of_toLower {written : String}
    (h : written.toList.map Char.toLower = p.name.toList.map Char.toLower) :
    sheet.get? written = sheet.get? p.name := by
  rw [Sheet.get?, normalName_of_toLower h, Sheet.get?, normalName_name]

/-- A formula that is set under the name of a position, in any case of its letters, changes the cell
of this position only. -/
theorem get?_setFormula_of_toLower {written read text : String}
    (hwritten : written.toList.map Char.toLower = p.name.toList.map Char.toLower)
    (hread : read.toList.map Char.toLower = q.name.toList.map Char.toLower) :
    (sheet.setFormula written text).2.get? read =
      if p = q then some { (sheet.get? p.name).getD {} with formula := text }
      else sheet.get? q.name := by
  rw [Sheet.get?_setFormula, normalName_of_toLower hwritten, normalName_of_toLower hread,
    get?_of_toLower hwritten, get?_of_toLower hread]
  refine if_congr ?_ rfl rfl
  exact ⟨fun h => (name_injective h).symm, fun h => h ▸ rfl⟩

/-! ## Order -/

/-- Positions are ordered by row and then by column. -/
theorem le_iff : p.le q = true ↔ toLex (p.row, p.col) ≤ toLex (q.row, q.col) := by
  rw [le, Prod.Lex.toLex_le_toLex]
  simp

/-- No two positions have one place in the order. -/
theorem eq_of_le_of_le (h : p.le q = true) (h' : q.le p = true) : p = q := by
  have heq := toLex.injective (le_antisymm (le_iff.1 h) (le_iff.1 h'))
  cases p
  cases q
  cases heq
  rfl

/-- Sorted positions ascend. -/
theorem pairwise_sort (positions : List Position) :
    (sort positions).Pairwise fun p q => p.le q = true := by
  refine List.pairwise_mergeSort ?_ ?_ positions
  · intro p q r hpq hqr
    exact le_iff.2 ((le_iff.1 hpq).trans (le_iff.1 hqr))
  · intro p q
    rw [Bool.or_eq_true, le_iff, le_iff]
    exact le_total _ _

/-- Sorting depends on the positions alone, and not on their order before. -/
theorem sort_eq_of_perm {positions others : List Position} (h : positions.Perm others) :
    sort positions = sort others := by
  have hperm : (sort positions).Perm (sort others) :=
    (List.mergeSort_perm positions le).trans (h.trans (List.mergeSort_perm others le).symm)
  exact hperm.eq_of_pairwise (fun p q _ _ => eq_of_le_of_le) (pairwise_sort positions)
    (pairwise_sort others)

/-! ## Positions in words -/

/-- The name of a position, computed in words of 64 bits, or nothing if an operation overflows. -/
def wordName? (row col : UInt64) : Option (List Char) :=
  if row + 1 < row then none
  else (FormulaSheet.wordName? col).map fun letters =>
    charsOfBytes letters ++ Nat.toDigits 10 (row + 1).toNat

/-- Only the greatest word overflows as a row or a column. -/
theorem wordName?_eq {row col : UInt64} (hrow : row.toNat + 1 < 2 ^ 64)
    (hcol : col.toNat + 1 < 2 ^ 64) :
    wordName? row col = some (name ⟨row.toNat, col.toNat⟩).toList := by
  have hmap : wordName? row col = ((FormulaSheet.wordName? col).map charsOfBytes).map
      (· ++ Nat.toDigits 10 (row + 1).toNat) := by
    rw [wordName?, if_neg (not_add_one_lt hrow), Option.map_map]
    rfl
  rw [hmap, FormulaSheet.wordName?_eq hcol, Option.map_some, toNat_add_one hrow, toList_name]

/-- Each position has a cell of its own: its name is a normal form and no other position's, so that
a formula set under the name, in any case, changes no other cell. In a formula the name refers to
this cell, the names that begin with a function or with `and` or `or` included, unless its letters
begin with `NOT`. Then it is read as the negation of the rest of the name, which does not refer to
the cell. The first of these names is `NOT1`. In words of 64 bits the same names are computed, as
long as neither the row nor the column is the greatest word. -/
theorem name_addresses_cell :
    (∀ p : Position, normalName p.name = p.name) ∧
    (∀ p q : Position, p.name = q.name → p = q) ∧
    (∀ (p q : Position) (written read : String),
      written.toList.map Char.toLower = p.name.toList.map Char.toLower →
      read.toList.map Char.toLower = q.name.toList.map Char.toLower →
      ∀ (sheet : Sheet) (text : String), (sheet.setFormula written text).2.get? read =
        if p = q then some { (sheet.get? p.name).getD {} with formula := text }
        else sheet.get? q.name) ∧
    (∀ p : Position, ¬ "NOT".toList <+: (columnName p.col).toList →
      parse p.name = .ok (.cell p.name) ∧
      ∀ (settings : Settings) (sheet : Sheet), sheet.evaluate settings p.name =
        match sheet.value? p.name with
        | some value => .ok value
        | none => .error (.fault (.unknownCell p.name))) ∧
    (∀ p : Position, "NOT".toList <+: (columnName p.col).toList →
      ∃ e, parse (String.ofList (p.name.toList.drop 3)) = .ok e ∧
        parse p.name = .ok (.unary .not e) ∧
        ∀ name ∈ e.references, normalName name ≠ p.name) ∧
    columnName 9873 = "NOT" ∧ name ⟨0, 9873⟩ = "NOT1" ∧
    (∀ col, "NOT".toList <+: (columnName col).toList → 9873 ≤ col) ∧
    ∀ row col : UInt64, row.toNat + 1 < 2 ^ 64 → col.toNat + 1 < 2 ^ 64 →
      wordName? row col = some (name ⟨row.toNat, col.toNat⟩).toList := by
  refine ⟨normalName_name, fun _ _ => name_injective, ?_, ?_, fun _ => parse_name_of_not,
    by decide +kernel, by decide +kernel, ?_, fun _ _ => wordName?_eq⟩
  · intro p q written read hwritten hread sheet text
    exact get?_setFormula_of_toLower hwritten hread
  · intro p h
    exact ⟨parse_name h, fun settings sheet => evaluate_name h⟩
  · intro col h
    have hvalue : columnValue "NOT".toList = 9874 := by decide +kernel
    have hle := le_of_prefix_columnName h
    omega

/-- The names `MAX1` and `OR20` are read as references, and a formula that is set under `max1` is
not found under `Or20`. The name `NOTNOT7` is read as the negation of what `NOT7` is read as. The
name `OR20` is also computed in words. -/
theorem name_addresses_cell_of_words :
    parse "MAX1" = .ok (.cell "MAX1") ∧
      Sheet.empty.evaluate {} "OR20" = .error (.fault (.unknownCell "OR20")) ∧
      (Sheet.empty.setFormula "max1" "7").2.get? "Or20" = none ∧
      (∃ e, parse "NOT7" = .ok e ∧ parse "NOTNOT7" = .ok (.unary .not e)) ∧
      wordName? 19 407 = some "OR20".toList := by
  obtain ⟨-, -, hcells, hread, hnot, -, -, -, hword⟩ := name_addresses_cell
  have hmax : name ⟨0, 8837⟩ = "MAX1" := by decide +kernel
  have hor : name ⟨19, 407⟩ = "OR20" := by decide +kernel
  have hnotnot : name ⟨6, 173555297⟩ = "NOTNOT7" := by decide +kernel
  have hwords : ¬ "NOT".toList <+: (columnName 8837).toList ∧
      ¬ "NOT".toList <+: (columnName 407).toList ∧
      "NOT".toList <+: (columnName 173555297).toList := by decide +kernel
  have hget := hcells ⟨0, 8837⟩ ⟨19, 407⟩ "max1" "Or20" (by rw [hmax]; decide)
    (by rw [hor]; decide) .empty "7"
  obtain ⟨e, hrest, hparse, -⟩ := hnot ⟨6, 173555297⟩ hwords.2.2
  have hdrop : String.ofList ("NOTNOT7".toList.drop 3) = "NOT7" := by decide
  rw [hnotnot] at hrest hparse
  rw [hdrop] at hrest
  refine ⟨hmax ▸ (hread ⟨0, 8837⟩ hwords.1).1, ?_, hget, ⟨e, hrest, hparse⟩, ?_⟩
  · exact hor ▸ (hread ⟨19, 407⟩ hwords.2.1).2 {} .empty
  · exact hor ▸ hword 19 407 (by decide) (by decide)

end Position

end FormulaSheet
