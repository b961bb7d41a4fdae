import FormulaSheet.Proofs.Viability
import Mathlib.Data.List.Nodup

/-!
# What an error expects

The list of a syntax error is the list of the cursor at the place of the error, so it can be
compared with the steps of the cursor: `expected_iff_viable` says that each label is in the list
just if the text before the place can go on with what the label means, and that no label is there
twice.
-/

namespace FormulaSheet

open Grammar Cursor

/-- The characters that are tested for one by one. -/
def literals : List Char := ['*', '/', '+', '-', '=', '<', '>', '(', ')', ',', '.']

variable {q : Cursor} {u : List Char} {c : Char} {x : Expectation}

/-! ## Labels -/

/-- Labels are told apart whatever follows them: none is the beginning of another. -/
theorem Expectation.text_append_inj {x y : Expectation} {u v : String}
    (h : x.text ++ u = y.text ++ v) : x = y ∧ u = v := by
  have hchar : ∀ c : Char, (character c).text.toList = ['\'', c, '\''] := fun c => by
    simp [text]
  have hlist := congrArg String.toList h
  cases x <;> cases y
  case character.character c d =>
    rw [String.toList_append, String.toList_append, hchar, hchar] at hlist
    simpa [String.toList_inj] using hlist
  case kind.kind | ending.ending => exact ⟨rfl, (String.append_right_inj _).1 h⟩
  -- Labels of different sorts differ in their first character.
  all_goals simp [text] at hlist

/-- Labels have different texts. -/
theorem Expectation.text_injective {x y : Expectation} (h : x.text = y.text) : x = y :=
  (text_append_inj (u := "") (v := "") (by rw [h])).1

/-! ## The list of a cursor -/

/-- The labels up to a level are those of the place and those of each level up to it. -/
theorem mem_labels {k : Nat} : x ∈ q.labels k ↔
    x ∈ inside q.place ∨ ∃ j, j < k ∧ x ∈ operatorLabels q.compared (j + 1) := by
  induction k with
  | zero => simp [labels]
  | succ k ih =>
    rw [labels, mem_merge, ih]
    constructor
    · rintro ((h | ⟨j, hj, h⟩) | h)
      · exact .inl h
      · exact .inr ⟨j, Nat.lt_succ_of_lt hj, h⟩
      · exact .inr ⟨k, Nat.lt_succ_self k, h⟩
    · rintro (h | ⟨j, hj, h⟩)
      · exact .inl (.inl h)
      · obtain hj | rfl := Nat.lt_succ_iff_lt_or_eq.1 hj
        · exact .inl (.inr ⟨j, hj, h⟩)
        · exact .inr h

/-- No label of an operator is there twice. -/
theorem nodup_operatorLabels (compared : Bool) : ∀ k, (operatorLabels compared k).Nodup := by
  intro k
  unfold operatorLabels
  cases compared <;> split <;> simp

/-- No label of a place is there twice. -/
theorem nodup_inside (p : Place) : (inside p).Nodup := by
  cases p with
  | word w => rw [inside]; split <;> simp
  | function | whole | fraction | point | operand | operator | a | an | o => simp [inside]

/-- A cursor expects nothing twice. -/
theorem nodup_expected (q : Cursor) : q.expected.Nodup := by
  have hlabels : ∀ k, (q.labels k).Nodup := by
    intro k
    induction k with
    | zero => exact nodup_inside q.place
    | succ k ih => exact nodup_merge ih (nodup_operatorLabels _ _)
  have hclosers : q.closers.Nodup := by
    unfold closers
    split <;> simp
  obtain ⟨place, compared, frames⟩ := q
  cases place with
  | word | function | whole | fraction | operand => exact nodup_merge (hlabels 5) hclosers
  | operator | point | a | an | o => simp [expected]

/-- Behind a complete operand a cursor expects what can lengthen it, an operator of some level, or
the end of what is open. -/
theorem mem_expected_of_complete (hq : q.place.complete = true) : x ∈ q.expected ↔
    x ∈ inside q.place ∨ (∃ j, j < 5 ∧ x ∈ operatorLabels q.compared (j + 1)) ∨ x ∈ q.closers := by
  rw [expected_of_complete hq, mem_merge, mem_labels, or_assoc]

/-! ## What a cursor expects are its steps -/

/-- The characters that are tested for one by one begin no word and no white space. -/
theorem literals_spec : ∀ c ∈ literals, isBlank c = false ∧ c.isDigit = false ∧
    isLetter c = false ∧ isLetterOrNumeral c = false ∧ c.toLower ≠ 'n' ∧ c.toLower ≠ 'd' ∧
    c.toLower ≠ 'r' ∧ (levelOf c = 0 → c = '(' ∨ c = '.') :=
  List.all_iff_forall_prop.1 (by decide)

/-- Of these characters the operators are the labels of their level, the comparisons only as long as
none was read. -/
theorem mem_operatorLabels : ∀ c ∈ literals, ∀ compared : Bool,
    (∃ j, j < 5 ∧ .character c ∈ operatorLabels compared (j + 1)) ↔
      levelOf c = 1 ∨ levelOf c = 2 ∨ levelOf c = 3 ∧ compared = false :=
  List.all_iff_forall_prop.1 (by decide)

/-- Inside an operand only an opening parenthesis and a point are tested for by themselves. -/
theorem character_mem_inside {p : Place} (h : .character c ∈ inside p) : c = '(' ∨ c = '.' := by
  cases p with
  | word w =>
    rw [inside] at h
    split at h <;> simp at h
    exact .inl h
  | function | whole | fraction | point | operand | operator | a | an | o => simp_all [inside]

/-- The label of a character closes if the character does. -/
theorem character_mem_closers : .character c ∈ q.closers ↔ (q.close c).isSome = true := by
  obtain ⟨place, compared, frames⟩ := q
  cases frames with
  | nil => simp [closers, close]
  | cons f outer =>
    by_cases h : c = f.closer <;> simp [closers, close, h]

/-- What closes has the level of the closing marks. -/
theorem levelOf_of_close (h : (q.close c).isSome = true) : levelOf c = 6 := by
  unfold close at h
  split at h
  · cases h
  · split at h
    · next hc => rw [hc, closer_spec]
    · cases h

/-- None of these characters begins a word. -/
theorem literals_level : ∀ c ∈ literals,
    levelOf c = 0 ∨ levelOf c = 1 ∨ levelOf c = 2 ∨ levelOf c = 3 ∨ levelOf c = 6 :=
  List.all_iff_forall_prop.1 (by decide)

/-- Behind an operand a mark is expected if the cursor lets it pass. -/
theorem mark_expected (hq : q.place.complete = true) (hc : c ∈ literals) (hlevel : 0 < levelOf c) :
    .character c ∈ q.expected ↔ (q.step c).isSome = true := by
  obtain ⟨-, -, -, hl, -⟩ := literals_spec c hc
  have hinside : .character c ∉ inside q.place := fun h => by
    rcases character_mem_inside h with rfl | rfl <;> exact absurd hlevel (by decide)
  have hclose : levelOf c ≠ 6 → (q.close c).isSome = false := fun h =>
    Bool.eq_false_iff.2 fun h' => h (levelOf_of_close h')
  rw [mem_expected_of_complete hq, mem_operatorLabels c hc, character_mem_closers,
    step_of_level hq hlevel hl, operate]
  rcases literals_level c hc with h | h | h | h | h
  · omega
  · simp [hinside, h]
  · simp [hinside, h]
  · simp [hinside, h, hclose]
  · simp [hinside, h]

/-- The characters of an operand are expected behind it if they go on with it. -/
theorem part_expected (hq : q.place.complete = true) (hc : c = '(' ∨ c = '.') :
    .character c ∈ q.expected ↔ (q.step c).isSome = true := by
  have hlevel : levelOf c = 0 := by rcases hc with rfl | rfl <;> rfl
  have hliteral : c ∈ literals := by rcases hc with rfl | rfl <;> decide
  obtain ⟨hb, -, -, hl, -⟩ := literals_spec c hliteral
  have hclose : (q.close c).isSome = false := Bool.eq_false_iff.2 fun h => by
    rw [levelOf_of_close h] at hlevel
    cases hlevel
  have hoperate : ∀ q : Cursor, q.operate c = none := fun q => by rw [operate, hlevel, hb]; rfl
  rw [mem_expected_of_complete hq, mem_operatorLabels c hliteral, character_mem_closers, hclose,
    hlevel]
  obtain ⟨place, compared, frames⟩ := q
  cases place with
  | word w =>
    rw [step_word (q := ⟨.operand, compared, frames⟩) hl, hb, hoperate]
    rcases hc with rfl | rfl <;> cases hf : isFunction w <;> simp [inside, hf]
  | function => rcases hc with rfl | rfl <;> simp [inside, Cursor.step, hb, hoperate]
  | whole => rcases hc with rfl | rfl <;> simp [inside, Cursor.step, hoperate]
  | fraction => rcases hc with rfl | rfl <;> simp [inside, Cursor.step, hoperate]
  | operand => simp [inside, Cursor.step, hoperate]
  | operator | point | a | an | o => cases hq

/-- What a cursor expects by name is what it lets pass. -/
theorem character_expected (q : Cursor) (hc : c ∈ literals) :
    .character c ∈ q.expected ↔ (q.step c).isSome = true := by
  obtain ⟨hb, hdigit, hletter, -, hn, hd, hr, hpart⟩ := literals_spec c hc
  by_cases hq : q.place.complete = true
  · rcases Nat.eq_zero_or_pos (levelOf c) with h | h
    · exact part_expected hq (hpart h)
    · exact mark_expected hq hc h
  · obtain ⟨place, compared, frames⟩ := q
    cases place with
    | word | function | whole | fraction | operand => exact absurd rfl hq
    | operator =>
      by_cases h1 : c = '-'
      · subst h1
        simp [expected, Cursor.step, operandStep, hb]
      by_cases h2 : c = '('
      · subst h2
        simp [expected, Cursor.step, operandStep, hb]
      by_cases h3 : c = '.'
      · subst h3
        simp [expected, Cursor.step, operandStep, hb]
      · simp [expected, Cursor.step, operandStep, hb, hdigit, hletter, h1, h2, h3]
    | point => simp [expected, Cursor.step, hdigit]
    | a => simp [expected, Cursor.step, hn]
    | an => simp [expected, Cursor.step, hd]
    | o => simp [expected, Cursor.step, hr]

/-- Some letter or numeral may always come next. -/
theorem kind_expected (q : Cursor) : .kind ∈ q.expected ∧
    ∃ c, isLetterOrNumeral c = true ∧ (q.step c).isSome = true := by
  have hcomplete : ∀ q : Cursor, q.place.complete = true → .kind ∈ q.expected := fun q hq =>
    (mem_expected_of_complete hq).2 (.inr (.inl ⟨3, by decide, List.mem_singleton.2 rfl⟩))
  obtain ⟨place, compared, frames⟩ := q
  cases place with
  | word w =>
    refine ⟨hcomplete _ rfl, 'a', by decide, ?_⟩
    show (wordStep _ w 'a').isSome = true
    rw [wordStep]
    split
    · rfl
    · rfl
  | function | whole | fraction | operand => exact ⟨hcomplete _ rfl, 'a', by decide, rfl⟩
  | operator => exact ⟨List.mem_cons_self, '1', by decide, rfl⟩
  | point => exact ⟨List.mem_cons_self, '1', by decide, rfl⟩
  | a => exact ⟨List.mem_cons_self, 'n', by decide, rfl⟩
  | an => exact ⟨List.mem_cons_self, 'd', by decide, rfl⟩
  | o => exact ⟨List.mem_cons_self, 'r', by decide, rfl⟩

/-- The operators are tested for by kind or one by one. -/
theorem operatorLabels_spec (compared : Bool) {j : Nat} (hj : j < 5)
    (h : x ∈ operatorLabels compared (j + 1)) : x = .kind ∨ ∃ c ∈ literals, x = .character c := by
  have hall : ∀ (compared : Bool) (j : Nat), j < 5 →
      ∀ x ∈ operatorLabels compared (j + 1), x = .kind ∨ x ∈ literals.map .character := by
    decide
  obtain hkind | hmem := hall compared j hj x h
  · exact .inl hkind
  · obtain ⟨c, hc, rfl⟩ := List.mem_map.1 hmem
    exact .inr ⟨c, hc, rfl⟩

/-- Inside an operand the tests are by kind or for one of these characters. -/
theorem inside_spec {p : Place} (h : x ∈ inside p) :
    x = .kind ∨ ∃ c ∈ literals, x = .character c := by
  cases p with
  | word w =>
    rw [inside] at h
    split at h <;> simp at h
    · rcases h with rfl | rfl
      · exact .inr ⟨'(', by decide, rfl⟩
      · exact .inl rfl
    · exact .inl h
  | function => exact .inr ⟨'(', by decide, List.mem_singleton.1 h⟩
  | whole =>
    rcases List.mem_cons.1 h with h | h
    · exact .inl h
    · exact .inr ⟨'.', by decide, List.mem_singleton.1 h⟩
  | fraction => exact .inl (List.mem_singleton.1 h)
  | operand | operator | point | a | an | o => cases h

/-- The end is expected where a text may end. -/
theorem ending_expected (q : Cursor) : .ending ∈ q.expected ↔ q.accepting = true := by
  by_cases hq : q.place.complete = true
  · have hinside : Expectation.ending ∉ inside q.place := fun h => by
      rcases inside_spec h with h | ⟨c, -, h⟩ <;> cases h
    have hoperators : ¬ ∃ j, j < 5 ∧ .ending ∈ operatorLabels q.compared (j + 1) := by
      rintro ⟨j, hj, h⟩
      rcases operatorLabels_spec q.compared hj h with h | ⟨c, -, h⟩ <;> cases h
    rw [mem_expected_of_complete hq, accepting, hq]
    obtain ⟨place, compared, frames⟩ := q
    cases frames <;> simp_all [closers]
  · obtain ⟨place, compared, frames⟩ := q
    cases place with
    | word | function | whole | fraction | operand => exact absurd rfl hq
    | operator | point | a | an | o => simp [expected, accepting, Place.complete]

/-- A label is a kind, the end, or one of the characters that are tested for one by one. -/
theorem mem_expected_cases (h : x ∈ q.expected) :
    x = .kind ∨ x = .ending ∨ ∃ c ∈ literals, x = .character c := by
  by_cases hq : q.place.complete = true
  · rcases (mem_expected_of_complete hq).1 h with h | ⟨j, hj, h⟩ | h
    · exact (inside_spec h).imp_right .inr
    · exact (operatorLabels_spec q.compared hj h).imp_right .inr
    · obtain ⟨place, compared, frames⟩ := q
      cases frames with
      | nil => exact .inr (.inl (List.mem_singleton.1 h))
      | cons f outer =>
        refine .inr (.inr ⟨f.closer, ?_, List.mem_singleton.1 h⟩)
        obtain ⟨enclosure, compared⟩ := f
        cases enclosure <;> simp [Frame.closer, literals]
  · obtain ⟨place, compared, frames⟩ := q
    cases place with
    | word | function | whole | fraction | operand => exact absurd rfl hq
    | operator =>
      have hall : ∀ x ∈ expected ⟨.operator, compared, frames⟩,
          x = .kind ∨ ∃ c ∈ literals, x = .character c := by
        simp [expected, literals]
      exact (hall x h).imp_right .inr
    | point | a | an | o => exact .inl (List.mem_singleton.1 h)

/-! ## The list of an error -/

/-- The list of a syntax error holds each label just if the text before the error can go on with
what the label means, and it holds no label twice. -/
theorem expected_iff_viable (s : String) (found : Char) (expected : List Expectation)
    (h : parse s = .error (.unexpected found expected)) :
    ∃ u r, s.toList = u ++ found :: r ∧
      formula.run s.toList = .blocked ⟨found :: r, expected⟩ ∧
      (∀ c ∈ literals, .character c ∈ expected ↔ Viable (u ++ [c])) ∧
      (.kind ∈ expected ↔ ∃ c, isLetterOrNumeral c = true ∧ Viable (u ++ [c])) ∧
      (.ending ∈ expected ↔ ∃ e, parse (String.ofList u) = .ok e) ∧
      (expected.map Expectation.text).Nodup ∧
      ∀ x ∈ expected, x = .kind ∨ x = .ending ∨ ∃ c ∈ literals, x = .character c := by
  obtain ⟨u, o, q, hs, hrun, hu, -, he, herror⟩ := parse_error_spec s (ne_ok_of_error h)
  rw [h] at herror
  have hblank : allBlank o.rest = false := Bool.eq_false_iff.2 fun hb => by
    rw [ofObstacle_of_blank hb] at herror
    cases herror
  obtain ⟨c, r, hrest, hfound⟩ := ofObstacle_of_not_blank hblank
  rw [hfound] at herror
  cases herror
  refine ⟨u, r, hrest ▸ hs, ?_, fun c hc => ?_, ?_, ?_, ?_, fun x hx => ?_⟩
  · rw [hrun, ← hrest]
  · rw [viable_append_iff hu, he, character_expected q hc]
  · obtain ⟨hkind, c, hc, hstep⟩ := kind_expected q
    exact ⟨fun _ => ⟨c, hc, (viable_append_iff hu c).2 hstep⟩, fun _ => he ▸ hkind⟩
  · rw [he, ending_expected, parse_ok_iff]
    constructor
    · exact fun ha => ⟨q, hu, ha⟩
    · rintro ⟨q', hq', ha⟩
      rw [hu] at hq'
      cases hq'
      exact ha
  · rw [he]
    exact (nodup_expected q).map fun _ _ h => Expectation.text_injective h
  · exact mem_expected_cases (he ▸ hx)

/-- In the second argument of a call a closing parenthesis is expected, and no comma. -/
theorem expected_in_second_argument : ∃ u r, "max(1,2 3".toList = u ++ '3' :: r ∧
    formula.run "max(1,2 3".toList = .blocked ⟨'3' :: r,
      ['*', '/', '+', '-', '=', '<', '>'].map .character ++ [.kind, .character ')']⟩ ∧
    Viable (u ++ [')']) ∧ ¬ Viable (u ++ [',']) := by
  obtain ⟨u, r, hs, hrun, hmarks, -⟩ := expected_iff_viable "max(1,2 3" '3'
    (['*', '/', '+', '-', '=', '<', '>'].map .character ++ [.kind, .character ')']) rfl
  refine ⟨u, r, hs, hrun, (hmarks ')' (by decide)).1 (by decide), fun h => ?_⟩
  have := (hmarks ',' (by decide)).2 h
  revert this
  decide

end FormulaSheet
