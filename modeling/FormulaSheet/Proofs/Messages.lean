import FormulaSheet.Proofs.Expectations
import FormulaSheet.Proofs.FailureLog

/-!
# What messages tell

Errors and log entries are kept as data and put in words for a reader. The words lose nothing: the
message of an error determines the error (`FormulaError.message_injective`), a list of expectations
can be read back from its text (`Expectation.listText_injective`), and the text of an entry in the
log of a sheet determines the entry (`Sheet.WellFormed.eq_of_text_eq`). The last holds because the
names in a sheet are in upper case, so that the words behind a name show where it ends.
-/

namespace FormulaSheet

/-! ## Lists of expectations -/

namespace Expectation

variable {x y : Expectation} {xs ys : List Expectation}

/-- One expectation is told by its label alone. -/
theorem listText_singleton : listText [x] = x.text := by
  rw [listText, furtherText, String.append_empty]

/-- Behind an expectation that is not the last, the next one stands after a comma. -/
theorem furtherText_cons (hne : xs ≠ []) :
    furtherText (x :: xs) = ", " ++ x.text ++ furtherText xs := by
  cases xs with
  | nil => exact absurd rfl hne
  | cons next further => rfl

/-- A list of two or more expectations has commas between its members and a word before the last. -/
theorem listText_concat (first last : Expectation) (middle : List Expectation) :
    listText (first :: middle ++ [last]) =
      ", ".intercalate ((first :: middle).map text) ++ ", or " ++ last.text := by
  induction middle generalizing first with
  | nil => simp [listText, furtherText, String.append_assoc]
  | cons next middle ih =>
    have hnext := ih next
    rw [List.cons_append, listText] at hnext
    rw [List.cons_append, listText, List.cons_append, furtherText_cons (by simp),
      List.map_cons, List.map_cons, String.intercalate_cons_cons, ← List.map_cons]
    simp only [String.append_assoc] at hnext ⊢
    rw [hnext]

/-- No label begins with the letter of the word before the last label. -/
theorem text_append_ne_or {u v : String} : x.text ++ u ≠ "or " ++ v := by
  intro h
  have hlist := congrArg String.toList h
  cases x <;> simp [text] at hlist

/-- Of expectations after the first, the next one and the text of the others can be read back. -/
theorem furtherText_cons_inj (h : furtherText (x :: xs) = furtherText (y :: ys)) :
    x = y ∧ furtherText xs = furtherText ys := by
  have hlast (x : Expectation) : furtherText [x] = ", " ++ ("or " ++ x.text) := by
    rw [furtherText, ← String.append_assoc]
    rfl
  have hnext (x x' : Expectation) (xs : List Expectation) : furtherText (x :: x' :: xs) =
      ", " ++ (x.text ++ furtherText (x' :: xs)) := by
    rw [furtherText_cons (List.cons_ne_nil _ _), String.append_assoc]
  cases xs with
  | nil =>
    cases ys with
    | nil =>
      rw [hlast, hlast, String.append_right_inj, String.append_right_inj] at h
      exact ⟨text_injective h, rfl⟩
    | cons y' ys =>
      rw [hlast, hnext, String.append_right_inj] at h
      exact absurd h.symm text_append_ne_or
  | cons x' xs =>
    cases ys with
    | nil =>
      rw [hnext, hlast, String.append_right_inj] at h
      exact absurd h text_append_ne_or
    | cons y' ys =>
      rw [hnext, hnext, String.append_right_inj] at h
      exact text_append_inj h

/-- Expectations after the first can be read back. -/
theorem furtherText_injective (h : furtherText xs = furtherText ys) : xs = ys := by
  have hne (x : Expectation) (xs : List Expectation) : furtherText (x :: xs) ≠ "" := by
    cases xs with
    | nil => simp [furtherText]
    | cons next further => simp [furtherText]
  induction xs generalizing ys with
  | nil =>
    cases ys with
    | nil => rfl
    | cons y ys => exact absurd h.symm (hne y ys)
  | cons x xs ih =>
    cases ys with
    | nil => exact absurd h (hne x xs)
    | cons y ys =>
      obtain ⟨rfl, hrest⟩ := furtherText_cons_inj h
      rw [ih hrest]

/-- A list of expectations can be read back from its words. -/
theorem listText_injective (h : listText xs = listText ys) : xs = ys := by
  have hne (x : Expectation) (xs : List Expectation) : listText (x :: xs) ≠ "" := by
    cases x <;> simp [listText, text]
  cases xs with
  | nil =>
    cases ys with
    | nil => rfl
    | cons y ys => exact absurd h.symm (hne y ys)
  | cons x xs =>
    cases ys with
    | nil => exact absurd h (hne x xs)
    | cons y ys =>
      rw [listText, listText] at h
      obtain ⟨rfl, hrest⟩ := text_append_inj h
      rw [furtherText_injective hrest]

example : listText [character '(', kind, ending] =
    "'(', something else, or end of input" := by
  decide

end Expectation

/-! ## Errors -/

/-- The message of a syntax error names the character that was found, in quotes, and then what could
stand there. -/
theorem ParseError.message_unexpected (found : Char) (first last : Expectation)
    (middle : List Expectation) : (unexpected found (first :: middle ++ [last])).message =
      "syntax error: found '" ++ String.singleton found ++ "' expected " ++
        ", ".intercalate ((first :: middle).map Expectation.text) ++ ", or " ++ last.text := by
  change "syntax error: found " ++ (Expectation.character found).text ++ " expected " ++
    Expectation.listText (first :: middle ++ [last]) = _
  rw [Expectation.listText_concat]
  apply String.toList_inj.1
  simp [Expectation.text]

example : ((parse "1 < 2 < 3").map Expr.references).mapError ParseError.message = .error
    "syntax error: found '<' expected '*', '/', '+', '-', something else, or end of input" := by
  decide +kernel

/-- The message of a syntax error determines the character that was found and all expectations. -/
theorem ParseError.message_injective {a b : ParseError} (h : a.message = b.message) : a = b := by
  have hlist := congrArg String.toList h
  cases a <;> cases b
  case unexpectedEnd.unexpectedEnd => rfl
  case unexpected.unexpected found expected found' expected' =>
    unfold message at h
    simp only [String.append_assoc, String.append_right_inj] at h
    obtain ⟨hfound, hrest⟩ := Expectation.text_append_inj h
    cases hfound
    rw [Expectation.listText_injective ((String.append_right_inj _).1 hrest)]
  all_goals
    unfold message at hlist
    simp at hlist

/-- A number and what follows it are told apart if no digit follows. -/
theorem repr_append_inj {m n : Nat} {u v : String} (hu : ∀ c ∈ u.toList.head?, c.isDigit = false)
    (hv : ∀ c ∈ v.toList.head?, c.isDigit = false) (h : m.repr ++ u = n.repr ++ v) :
    m = n ∧ u = v := by
  have hdigits (k : Nat) : ∀ c ∈ k.repr.toList, c.isDigit = true := by
    rw [Nat.toList_repr]
    exact fun c hc => Nat.isDigit_of_mem_toDigits (by decide) (by decide) hc
  obtain ⟨hm, hu⟩ := Grammar.span_append (hdigits m) hu
  obtain ⟨hn, hv⟩ := Grammar.span_append (hdigits n) hv
  rw [← String.toList_append, h, String.toList_append] at hm hu
  exact ⟨Nat.repr_injective (String.toList_inj.1 (hm.symm.trans hn)),
    String.toList_inj.1 (hu.symm.trans hv)⟩

/-- The message of a fault names the missing cell, or the function and both numbers. -/
theorem Fault.message_injective {a b : Fault} (h : a.message = b.message) : a = b := by
  have hlist := congrArg String.toList h
  unfold message at h hlist
  cases a <;> cases b
  case unknownCell.unknownCell name name' =>
    rw [String.append_left_inj, String.append_right_inj] at h
    rw [h]
  case arity.arity function expected found function' expected' found' =>
    have hfunction : function = function' := by
      cases function <;> cases function' <;> first | rfl | simp [Builtin.name] at hlist
    subst hfunction
    simp only [String.append_assoc, String.append_right_inj] at h
    obtain ⟨hexpected, hrest⟩ := repr_append_inj (by simp) (by simp) h
    rw [hexpected, Nat.repr_injective ((String.append_right_inj _).1 hrest)]
  all_goals simp at hlist

example : (Fault.arity .max 2 1).message = "`max` takes 2 arguments, got 1" := by decide

/-- No syntax error has the message of a fault. -/
theorem ParseError.message_ne_message {e : ParseError} {f : Fault} : e.message ≠ f.message := by
  intro h
  have hlist := congrArg String.toList h
  unfold message Fault.message at hlist
  cases e <;> cases f <;> simp at hlist

/-- The message of an error tells whether the formula could not be parsed or not be evaluated, and
all that is kept of the reason. -/
theorem FormulaError.message_injective {a b : FormulaError} (h : a.message = b.message) :
    a = b := by
  cases a with
  | parse e =>
    cases b with
    | parse e' => rw [ParseError.message_injective h]
    | fault f' => exact absurd h ParseError.message_ne_message
  | fault f =>
    cases b with
    | parse e' => exact absurd h.symm ParseError.message_ne_message
    | fault f' => rw [Fault.message_injective h]

/-! ## The log -/

/-- Levels have different names. -/
theorem LogLevel.name_injective {a b : LogLevel} (h : a.name = b.name) : a = b := by
  cases a <;> cases b <;> first | rfl | simp [name] at h

/-- A recalculation reports its failures as details and the whole on the level above. -/
theorem Recalculation.levels_log (r : Recalculation) :
    r.log.map (·.level) = List.replicate r.failures.length .trace ++ [.debug] := by
  rw [log, List.map_append, List.map_map]
  exact congrArg (· ++ _) (List.map_eq_replicate_iff.2 fun _ _ => rfl)

/-- A name in normal form ends before the first small letter behind it. -/
theorem normalName_append_inj {a b u v : String} (ha : normalName a = a) (hb : normalName b = b)
    (h : a ++ (" f" ++ u) = b ++ (" f" ++ v)) : a = b ∧ u = v := by
  -- The space counts to the name here, so that all before the letter can be taken at once.
  have hsmall {name : String} (hname : normalName name = name) :
      ∀ c ∈ name.toList ++ [' '], (c != 'f') = true := by
    intro c hc
    rw [← hname] at hc
    refine bne_iff_ne.2 ?_
    rintro rfl
    obtain hc | hc := List.mem_append.1 hc
    · exact absurd (upperCase_of_mem_normalName hc) (by decide)
    · exact absurd hc (by decide)
  have hlist : (a.toList ++ [' ']) ++ 'f' :: u.toList = (b.toList ++ [' ']) ++ 'f' :: v.toList := by
    simpa using congrArg String.toList h
  obtain ⟨hname, hrest⟩ := Grammar.span_append (hsmall ha) (t := 'f' :: u.toList) (by simp)
  obtain ⟨hname', hrest'⟩ := Grammar.span_append (hsmall hb) (t := 'f' :: v.toList) (by simp)
  rw [hlist] at hname hrest
  exact ⟨String.toList_inj.1 (List.append_cancel_right (hname.symm.trans hname')),
    String.toList_inj.1 (List.cons.inj (hrest.symm.trans hrest')).2⟩

namespace LogEntry

/-- Entries of different levels have different texts. -/
theorem level_eq_of_text_eq {x y : LogEntry} (h : x.text = y.text) : x.level = y.level := by
  have hlist := congrArg String.toList h
  unfold text at hlist
  cases x <;> cases y <;> first | rfl | simp at hlist

/-- The last entry of a log tells both of its counts. -/
theorem finished_text_injective {m n m' n' : Nat}
    (h : (finished m n).text = (finished m' n').text) : m = m' ∧ n = n' := by
  unfold text at h
  simp only [String.append_assoc, String.append_right_inj] at h
  obtain ⟨hm, hrest⟩ := repr_append_inj (by simp) (by simp) h
  rw [String.append_right_inj, String.append_left_inj] at hrest
  exact ⟨hm, Nat.repr_injective hrest⟩

/-- The text of a failure tells the cell and the error if the name of the cell is in normal form. -/
theorem failed_text_injective {a b : Failure} (ha : normalName a.name = a.name)
    (hb : normalName b.name = b.name) (h : (failed a).text = (failed b).text) : a = b := by
  have hword (s : String) :
      " failed to evaluate: " ++ s = " f" ++ ("ailed to evaluate: " ++ s) := by
    rw [← String.append_assoc]
    rfl
  unfold text at h
  simp only [String.append_assoc, String.append_right_inj, hword] at h
  obtain ⟨hname, hrest⟩ := normalName_append_inj ha hb h
  rw [String.append_right_inj] at hrest
  exact congrArg₂ Failure.mk hname (FormulaError.message_injective hrest)

end LogEntry

/-- The cells in the log of a sheet are told by their names in normal form. -/
theorem Sheet.WellFormed.normalName_of_failed {sheet : Sheet} {settings : Settings}
    {failure : Failure} (h : sheet.WellFormed)
    (hmem : .failed failure ∈ (sheet.recalculate settings).log) :
    normalName failure.name = failure.name := by
  rw [Spreadsheet.mem_failed_log, Sheet.failures_recalculate] at hmem
  exact h.normal _ (h.mem_names_failures.1 (List.mem_map_of_mem hmem)).1

/-- The text of an entry in the log of a sheet determines the entry. -/
theorem Sheet.WellFormed.eq_of_text_eq {sheet other : Sheet} {settings settings' : Settings}
    {x y : LogEntry} (h : sheet.WellFormed) (h' : other.WellFormed)
    (hx : x ∈ (sheet.recalculate settings).log) (hy : y ∈ (other.recalculate settings').log)
    (htext : x.text = y.text) : x = y := by
  have hlevel := LogEntry.level_eq_of_text_eq htext
  cases x with
  | failed a =>
    cases y with
    | failed b =>
      rw [LogEntry.failed_text_injective (h.normalName_of_failed hx) (h'.normalName_of_failed hy)
        htext]
    | finished m n => cases hlevel
  | finished m n =>
    cases y with
    | failed b => cases hlevel
    | finished m' n' =>
      obtain ⟨rfl, rfl⟩ := LogEntry.finished_text_injective htext
      rfl

example :
    let s := ((Spreadsheet.empty {}).setFormula "c1" "y8").setFormula "a1" "1+"
    s.recalculate.1.map (fun entry => (entry.level.name, entry.text)) =
      [("trace", "cell A1 failed to evaluate: unexpected end of formula"),
        ("trace", "cell C1 failed to evaluate: unknown cell `Y8`"),
        ("debug", "recalculated 2 cells, 2 failed to evaluate")] := by
  decide +kernel

end FormulaSheet
