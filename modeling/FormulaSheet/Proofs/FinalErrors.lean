import FormulaSheet.Proofs.Viability

/-!
# Syntax errors are final

A text has one obstacle, which lies where the cursor is stuck (`parse_eq_error_iff`). If it is stuck
at a character, it is stuck there whatever follows. So a syntax error stays the same when more is
put behind the text, while a text that ends too early can still become a formula or a syntax error
(`syntax_error_is_final`).
-/

namespace FormulaSheet

open Cursor

variable {s t u v w r : List Char} {text : String} {c found : Char} {p q q' : Cursor}
  {o o' : Obstacle} {expected : List Expectation}

/-! ## The place where a cursor is stuck -/

/-- A cursor does not get beyond the place of a text where it is stuck. -/
theorem Cursor.Stuck.isPrefix (h : q.Stuck r) (hu : p.advance u = some q)
    (hv : p.advance v = some q') (hs : v ++ w = u ++ r) : v <+: u := by
  rcases List.prefix_or_prefix_of_prefix ⟨w, hs⟩ ⟨r, rfl⟩ with hvu | ⟨x, rfl⟩
  · exact hvu
  cases x with
  | nil => simp
  | cons d x =>
    rw [List.append_assoc, List.append_cancel_left_eq] at hs
    rw [← hs] at h
    rw [advance_append, hu, Option.bind_some, advance_cons, show q.step d = none from h] at hv
    cases hv

/-- A text has no more than one obstacle. -/
theorem Cursor.Stops.unique (h : p.Stops s o) (h' : p.Stops s o') : o = o' := by
  obtain ⟨q, ⟨u, hs, hu⟩, hstuck, he⟩ := h
  obtain ⟨q', ⟨v, hs', hv⟩, hstuck', he'⟩ := h'
  rw [hs] at hs'
  have hvu := hstuck.isPrefix hu hv hs'.symm
  obtain rfl := hvu.eq_of_length_le (hstuck'.isPrefix hv hu hs').length_le
  rw [hu] at hv
  cases hv
  obtain ⟨rest, expected⟩ := o
  obtain ⟨rest', expected'⟩ := o'
  obtain rfl : rest = rest' := List.append_cancel_left hs'
  obtain rfl : expected = expected' := he.trans he'.symm
  rfl

/-- What is put behind a text does not move an obstacle at one of its characters. -/
theorem Cursor.Stops.append (h : p.Stops s o) (ho : o.rest ≠ []) (t : List Char) :
    p.Stops (s ++ t) ⟨o.rest ++ t, o.expected⟩ := by
  obtain ⟨q, ⟨u, hs, hu⟩, hstuck, he⟩ := h
  refine ⟨q, ⟨u, by rw [hs, List.append_assoc], hu⟩, ?_, he⟩
  obtain ⟨c, r, hrest⟩ := List.exists_cons_of_ne_nil ho
  rw [hrest] at hstuck ⊢
  exact hstuck

/-- A text has the error of the obstacle where the cursor is stuck. -/
theorem parse_eq_error_iff {error : ParseError} : parse text = .error error ↔
    ∃ o, start.Stops text.toList o ∧ error = .ofObstacle o := by
  constructor
  · intro h
    obtain ⟨u, o, q, hs, -, hu, hstuck, he, herror⟩ := parse_error_spec text (ne_ok_of_error h)
    rw [h] at herror
    exact ⟨o, ⟨q, ⟨u, hs, hu⟩, hstuck, he⟩, Except.error.inj herror⟩
  · rintro ⟨o, hstops, rfl⟩
    have hnot : ∀ e, parse text ≠ .ok e := by
      intro e he
      rw [← String.ofList_toList (s := text)] at he
      obtain ⟨q, hq, haccepting⟩ := (parse_ok_iff _).1 ⟨e, he⟩
      rw [hstops.not_accepting hq] at haccepting
      cases haccepting
    obtain ⟨u, o', q, hs, -, hu, hstuck, he, herror⟩ := parse_error_spec text hnot
    rw [herror, hstops.unique ⟨q, ⟨u, hs, hu⟩, hstuck, he⟩]

/-! ## The two kinds of errors -/

/-- An obstacle is a syntax error if something other than white space is left there. -/
theorem ofObstacle_eq_unexpected_iff : ParseError.ofObstacle o = .unexpected found expected ↔
    ∃ r, o = ⟨found :: r, expected⟩ ∧ allBlank (found :: r) = false := by
  constructor
  · intro h
    cases hb : allBlank o.rest with
    | true =>
      rw [ofObstacle_of_blank hb] at h
      cases h
    | false =>
      obtain ⟨c, r, hrest, hfound⟩ := ofObstacle_of_not_blank hb
      rw [hfound] at h
      cases h
      exact ⟨r, by rw [← hrest], hrest ▸ hb⟩
  · rintro ⟨r, rfl, hb⟩
    exact if_neg (Bool.eq_false_iff.1 hb)

/-- An obstacle is an early end if only white space is left there. -/
theorem ofObstacle_eq_unexpectedEnd_iff :
    ParseError.ofObstacle o = .unexpectedEnd ↔ allBlank o.rest = true := by
  refine ⟨fun h => ?_, ofObstacle_of_blank⟩
  by_contra hb
  obtain ⟨c, r, -, hfound⟩ := ofObstacle_of_not_blank (Bool.eq_false_iff.2 hb)
  rw [hfound] at h
  cases h

/-! ## Longer texts -/

/-- A text is not blank if a part of it is not. -/
theorem not_allBlank_append (h : allBlank u = false ∨ allBlank v = false) :
    allBlank (u ++ v) = false := by
  rw [allBlank, List.all_append]
  rcases h with h | h
  · rw [← allBlank, h, Bool.false_and]
  · rw [Bool.and_comm, ← allBlank, h, Bool.false_and]

/-- A syntax error stays whatever is put behind the text. -/
theorem parse_append_of_unexpected (h : parse text = .error (.unexpected found expected))
    (more : String) : parse (text ++ more) = .error (.unexpected found expected) := by
  obtain ⟨o, hstops, ho⟩ := parse_eq_error_iff.1 h
  obtain ⟨r, rfl, hb⟩ := ofObstacle_eq_unexpected_iff.1 ho.symm
  have hstops' := hstops.append (List.cons_ne_nil found r) more.toList
  rw [← String.toList_append] at hstops'
  have hb' : allBlank ((found :: r) ++ more.toList) = false := not_allBlank_append (.inl hb)
  exact parse_eq_error_iff.2 ⟨_, hstops', (ofObstacle_eq_unexpected_iff.2 ⟨_, rfl, hb'⟩).symm⟩

/-- No formula holds this character. -/
theorem Cursor.step_hash (q : Cursor) : q.step '#' = none := by
  have hoperate : ∀ q : Cursor, q.operate '#' = none := fun _ => rfl
  obtain ⟨place, compared, frames⟩ := q
  cases place with
  | word w =>
    rw [step_word (q := ⟨.operand, compared, frames⟩) rfl, hoperate, if_neg (by simp),
      if_neg (by simp [show isBlank '#' = false from rfl])]
  | operator | function | whole | fraction | point | operand | a | an | o => rfl

/-- A mark that fits nowhere does not move the obstacle of a text. -/
theorem Cursor.Stops.append_hash (h : p.Stops s o) :
    p.Stops (s ++ ['#']) ⟨o.rest ++ ['#'], o.expected⟩ := by
  by_cases ho : o.rest = []
  · obtain ⟨q, ⟨u, hs, hu⟩, -, he⟩ := h
    exact ⟨q, ⟨u, by rw [hs, List.append_assoc], hu⟩, by rw [ho]; exact q.step_hash, he⟩
  · exact h.append ho _

/-- A text that ends too early can become a syntax error. -/
theorem exists_unexpected_of_unexpectedEnd (h : parse text = .error .unexpectedEnd) :
    ∃ more found expected, parse (text ++ more) = .error (.unexpected found expected) := by
  obtain ⟨o, hstops, -⟩ := parse_eq_error_iff.1 h
  obtain ⟨c, r, hrest⟩ : ∃ c r, o.rest ++ ['#'] = c :: r :=
    List.exists_cons_of_ne_nil (by simp)
  have hb : allBlank (o.rest ++ ['#']) = false := not_allBlank_append (.inr rfl)
  have hstops' := hstops.append_hash
  rw [hrest] at hb hstops'
  refine ⟨"#", c, o.expected, parse_eq_error_iff.2 ⟨⟨c :: r, o.expected⟩, ?_, ?_⟩⟩
  · rw [String.toList_append]
    exact hstops'
  · exact (ofObstacle_eq_unexpected_iff.2 ⟨r, rfl, hb⟩).symm

/-- A text that ends too early, and in no white space, can become a formula. -/
theorem exists_ok_of_unexpectedEnd (h : parse text = .error .unexpectedEnd)
    (htrim : trimEnd text.toList = text.toList) : ∃ more e, parse (text ++ more) = .ok e := by
  obtain ⟨o, ⟨q, ⟨u, hs, hu⟩, -⟩, ho⟩ := parse_eq_error_iff.1 h
  have hb := ofObstacle_eq_unexpectedEnd_iff.1 ho.symm
  have hprefix : text.toList <+: u := by
    rw [← htrim, hs, trimEnd_append_blank hb]
    exact trimEnd_isPrefix u
  obtain ⟨t, e, he⟩ := ((viable_iff u).2 ⟨q, hu⟩).of_isPrefix hprefix
  exact ⟨String.ofList t, e, by rw [← he, String.ofList_append, String.ofList_toList]⟩

/-- Whatever is put behind a text with a syntax error, the longer text has the same error: the same
character is found, and the same is expected in the same order. A text that ends too early can
become a syntax error, and if there is no white space at its end, it can become a formula. -/
theorem syntax_error_is_final :
    (∀ (text more : String) (found : Char) (expected : List Expectation),
      parse text = .error (.unexpected found expected) →
      parse (text ++ more) = .error (.unexpected found expected)) ∧
    ∀ text : String, parse text = .error .unexpectedEnd →
      (∃ more found expected, parse (text ++ more) = .error (.unexpected found expected)) ∧
      (trimEnd text.toList = text.toList → ∃ more e, parse (text ++ more) = .ok e) :=
  ⟨fun _ more _ _ h => parse_append_of_unexpected h more, fun _ h =>
    ⟨exists_unexpected_of_unexpectedEnd h, exists_ok_of_unexpectedEnd h⟩⟩

/-- A second operator of a comparison stays wrong with its operand, in spite of the white space and
the open group behind it, and half a keyword can be completed or not. -/
theorem second_comparison_stays_wrong :
    let error : ParseError := .unexpected '<' ([.kind] ++
      ['.', '*', '/', '+', '-'].map .character ++ [.ending])
    parse "1<2<" = .error error ∧ parse ("1<2<" ++ " 3 and (") = .error error ∧
    parse "1 an" = .error .unexpectedEnd ∧ (∃ more e, parse ("1 an" ++ more) = .ok e) ∧
      ∃ more found expected, parse ("1 an" ++ more) = .error (.unexpected found expected) := by
  obtain ⟨hfinal, hopen⟩ := syntax_error_is_final
  intro error
  have hsecond : parse "1<2<" = .error error := rfl
  have hhalf : parse "1 an" = .error .unexpectedEnd := rfl
  obtain ⟨hwrong, hright⟩ := hopen "1 an" hhalf
  exact ⟨hsecond, hfinal _ _ _ _ hsecond, hhalf, hright (by decide), hwrong⟩

end FormulaSheet
