import FormulaSheet.Proofs.Obstacles
import Mathlib.Data.List.DropRight

/-!
# Errors at the first offending character

A text is viable if it can be completed to a formula, which it can just if the cursor gets over it
(`viable_iff`). So the error of a text tells where the text stops being viable
(`error_at_first_offence`): the end is unexpected if all but the white space at the end of the text
is viable, and otherwise the character behind the longest viable prefix is.
-/

namespace FormulaSheet

open Grammar Cursor

/-- A text that can be completed to a formula. -/
def Viable (u : List Char) : Prop := ∃ t e, parse (String.ofList (u ++ t)) = .ok e

/-- A text without the white space at its end. -/
def trimEnd (s : List Char) : List Char := s.rdropWhile isBlank

variable {s u v : List Char} {c : Char} {q q' : Cursor}

/-! ## Viable texts -/

/-- A text at which a cursor stops is no formula behind it. -/
theorem Cursor.Stops.not_accepting {o : Obstacle} (h : q.Stops s o) (hs : q.advance s = some q') :
    q'.accepting = false := by
  obtain ⟨q'', ⟨v, rfl, hv⟩, hstuck, -⟩ := h
  rw [advance_append, hv, Option.bind_some] at hs
  cases hrest : o.rest with
  | nil =>
    rw [hrest] at hs hstuck
    cases hs
    exact hstuck
  | cons c r =>
    rw [hrest] at hs hstuck
    rw [advance_cons, show q''.step c = none from hstuck] at hs
    cases hs

/-- A text is a formula if the cursor gets over it to where a formula may end. -/
theorem parse_ok_iff (s : List Char) : (∃ e, parse (String.ofList s) = .ok e) ↔
    ∃ q, start.advance s = some q ∧ q.accepting = true := by
  have hs : (String.ofList s).toList = s := String.toList_ofList
  rcases run_formula_spec s with ⟨e, o, q, hrun, hq, ha⟩ | ⟨o, hrun, hstops⟩
  · exact ⟨fun _ => ⟨q, hq, ha⟩, fun _ => ⟨e, parse_eq_ok_iff.2 ⟨[], o, by rw [hs, hrun]⟩⟩⟩
  · constructor
    · rintro ⟨e, he⟩
      obtain ⟨r, o', ho'⟩ := parse_eq_ok_iff.1 he
      rw [hs, hrun] at ho'
      cases ho'
    · rintro ⟨q, hq, ha⟩
      rw [hstops.not_accepting hq] at ha
      cases ha

/-- A text is viable if the cursor gets over it. -/
theorem viable_iff (u : List Char) : Viable u ↔ ∃ q, start.advance u = some q := by
  constructor
  · rintro ⟨t, e, he⟩
    obtain ⟨q, hq, -⟩ := (parse_ok_iff (u ++ t)).1 ⟨e, he⟩
    rw [advance_append] at hq
    obtain ⟨q', hq', -⟩ := Option.bind_eq_some_iff.1 hq
    exact ⟨q', hq'⟩
  · rintro ⟨q, hq⟩
    obtain ⟨t, q', ht, ha⟩ := completes q
    refine ⟨t, (parse_ok_iff (u ++ t)).2 ⟨q', ?_, ha⟩⟩
    rw [advance_append, hq, Option.bind_some, ht]

/-- The beginnings of what is viable are viable. -/
theorem Viable.of_isPrefix (h : Viable u) (hv : v <+: u) : Viable v := by
  obtain ⟨w, rfl⟩ := hv
  obtain ⟨t, e, he⟩ := h
  exact ⟨w ++ t, e, by rw [← List.append_assoc, he]⟩

/-- A viable text stays viable with a character that the cursor behind it lets pass. -/
theorem viable_append_iff (hu : start.advance u = some q) (c : Char) :
    Viable (u ++ [c]) ↔ (q.step c).isSome = true := by
  rw [viable_iff, advance_append, hu, Option.bind_some, Option.isSome_iff_exists]
  simp only [advance_cons, advance_nil, Option.bind_fun_some]

/-! ## Errors -/

/-- The error of a text that is no formula, and the cursor at the place of the error. -/
theorem parse_error_spec (s : String) (h : ∀ e, parse s ≠ .ok e) :
    ∃ u o q, s.toList = u ++ o.rest ∧ formula.run s.toList = .blocked o ∧
      start.advance u = some q ∧ q.Stuck o.rest ∧ o.expected = q.expected ∧
      parse s = .error (.ofObstacle o) := by
  rcases run_formula_spec s.toList with ⟨e, o, q, hrun, -⟩ | ⟨o, hrun, q, ⟨u, hs, hu⟩, hstuck, he⟩
  · exact absurd (parse_eq_ok_iff.2 ⟨[], o, hrun⟩) (h e)
  · refine ⟨u, o, q, hs, hrun, hu, hstuck, he, ?_⟩
    unfold parse
    rw [hrun]

/-- To cut white space off the end leaves a beginning of the text. -/
theorem trimEnd_isPrefix (s : List Char) : trimEnd s <+: s := List.rdropWhile_prefix isBlank s

/-- White space at the end of a text is trimmed. -/
theorem trimEnd_append_blank {r : List Char} (h : allBlank r = true) (u : List Char) :
    trimEnd (u ++ r) = trimEnd u := by
  have hr : ∀ c ∈ r.reverse, isBlank c = true := by
    simpa [allBlank] using h
  rw [trimEnd, List.rdropWhile, List.reverse_append, List.dropWhile_append_of_pos hr]
  rfl

/-- What stands before a text that is not all white space is not trimmed. -/
theorem isPrefix_trimEnd {r : List Char} (h : allBlank (c :: r) = false) (u : List Char) :
    u ++ [c] <+: trimEnd (u ++ c :: r) := by
  have hne : (c :: r).reverse.dropWhile isBlank ≠ [] := by
    rw [Ne, List.dropWhile_eq_nil_iff]
    intro hall
    have : allBlank (c :: r) = true := List.all_eq_true.2 fun d hd => hall d (List.mem_reverse.2 hd)
    rw [h] at this
    cases this
  have htrim : trimEnd (u ++ c :: r) = u ++ trimEnd (c :: r) := by
    rw [trimEnd, List.rdropWhile, List.reverse_append, List.dropWhile_append,
      if_neg (by simpa using hne), List.reverse_append, List.reverse_reverse]
    rfl
  obtain ⟨d, t, ht⟩ : ∃ d t, trimEnd (c :: r) = d :: t :=
    List.exists_cons_of_ne_nil (by simpa [trimEnd, List.rdropWhile] using hne)
  obtain ⟨w, hw⟩ := trimEnd_isPrefix (c :: r)
  rw [ht] at hw
  obtain rfl : d = c := (List.cons.inj hw).1
  rw [htrim, ht]
  exact ⟨t, by simp⟩

/-- An obstacle before white space only is an early end. -/
theorem ofObstacle_of_blank {o : Obstacle} (h : allBlank o.rest = true) :
    ParseError.ofObstacle o = .unexpectedEnd := by
  cases hrest : o.rest with
  | nil => simp [ParseError.ofObstacle, hrest]
  | cons c r => simp [ParseError.ofObstacle, hrest, hrest ▸ h]

/-- An obstacle before anything else is a syntax error at its character. -/
theorem ofObstacle_of_not_blank {o : Obstacle} (h : allBlank o.rest = false) :
    ∃ c r, o.rest = c :: r ∧ ParseError.ofObstacle o = .unexpected c o.expected := by
  cases hrest : o.rest with
  | nil =>
    rw [hrest] at h
    cases h
  | cons c r => exact ⟨c, r, rfl, by simp [ParseError.ofObstacle, hrest, hrest ▸ h]⟩

/-- The viable prefixes of a text end before a character that cannot be completed. -/
theorem isPrefix_of_viable {r : List Char} (h : ¬ Viable (u ++ [c])) (hv : v <+: u ++ c :: r)
    (hviable : Viable v) : v <+: u := by
  have hc : u ++ [c] <+: u ++ c :: r := ⟨r, by simp⟩
  rcases List.prefix_or_prefix_of_prefix hv hc with hvu | hvu
  · exact (List.prefix_concat_iff.1 hvu).resolve_left fun heq => h (heq ▸ hviable)
  · exact absurd (hviable.of_isPrefix hvu) h

/-- A text that is no formula ends too early if all but the white space at its end can be completed.
Otherwise the error names the character behind the longest prefix that can be. -/
theorem error_at_first_offence (s : String) (h : ∀ e, parse s ≠ .ok e) :
    (parse s = .error .unexpectedEnd ↔ Viable (trimEnd s.toList)) ∧
    (¬ Viable (trimEnd s.toList) → ∃ u found r expected, s.toList = u ++ found :: r ∧
      parse s = .error (.unexpected found expected) ∧ Viable u ∧ ¬ Viable (u ++ [found]) ∧
      ∀ v, v <+: s.toList → Viable v → v <+: u) := by
  obtain ⟨u, o, q, hs, -, hu, hstuck, -, herror⟩ := parse_error_spec s h
  have huv : Viable u := (viable_iff u).2 ⟨q, hu⟩
  rw [hs, herror]
  cases hb : allBlank o.rest with
  | true =>
    have htrim : Viable (trimEnd (u ++ o.rest)) := by
      rw [trimEnd_append_blank hb]
      exact huv.of_isPrefix (trimEnd_isPrefix u)
    exact ⟨⟨fun _ => htrim, fun _ => by rw [ofObstacle_of_blank hb]⟩, fun hnot =>
      absurd htrim hnot⟩
  | false =>
    obtain ⟨c, r, hrest, hfound⟩ := ofObstacle_of_not_blank hb
    rw [hrest] at hb hstuck ⊢
    have hnot : ¬ Viable (u ++ [c]) := by
      rw [viable_append_iff hu, show q.step c = none from hstuck]
      exact Bool.false_ne_true
    have htrim : ¬ Viable (trimEnd (u ++ c :: r)) := fun hv =>
      hnot (hv.of_isPrefix (isPrefix_trimEnd hb u))
    refine ⟨⟨fun he => ?_, fun hv => absurd hv htrim⟩, fun _ =>
      ⟨u, c, r, o.expected, rfl, by rw [hfound], huv, hnot, fun v => isPrefix_of_viable hnot⟩⟩
    rw [hfound] at he
    cases he

/-- A text with an error has no expression. -/
theorem ne_ok_of_error {s : String} {x : ParseError} (h : parse s = .error x) (e : Expr) :
    parse s ≠ .ok e := by
  rw [h]
  exact fun he => by cases he

/-- An open group can be completed, and a second operator of a comparison cannot. -/
theorem open_group_and_second_comparison :
    Viable (trimEnd "(1 ".toList) ∧ ¬ Viable (trimEnd "1<2<3".toList) ∧
    ∃ u found r expected, "1<2<3".toList = u ++ found :: r ∧
      parse "1<2<3" = .error (.unexpected found expected) ∧ Viable u ∧ ¬ Viable (u ++ [found]) ∧
      ∀ v, v <+: "1<2<3".toList → Viable v → v <+: u := by
  have hopen : parse "(1 " = .error .unexpectedEnd := rfl
  have hsecond : parse "1<2<3" = .error (.unexpected '<' ([.kind] ++
    ['.', '*', '/', '+', '-'].map .character ++ [.ending])) := rfl
  have hnot : ¬ Viable (trimEnd "1<2<3".toList) := fun hv => by
    have := (error_at_first_offence "1<2<3" (ne_ok_of_error hsecond)).1.2 hv
    rw [hsecond] at this
    cases this
  exact ⟨(error_at_first_offence "(1 " (ne_ok_of_error hopen)).1.1 hopen, hnot,
    (error_at_first_offence "1<2<3" (ne_ok_of_error hsecond)).2 hnot⟩

end FormulaSheet
