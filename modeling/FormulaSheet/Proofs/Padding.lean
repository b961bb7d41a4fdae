import FormulaSheet.Proofs.FinalErrors
import FormulaSheet.Sheet.Evaluation
import Mathlib.Tactic.TFAE

/-!
# White space around a formula

White space before and after a text changes nothing: neither the expression that the text stands for
nor its error (`parse_padded`). A sentence takes the white space up into its layout. The obstacle of
a text that is none stays at its character, or it gets into the white space at the end, where it
still counts as the end of the text (`Cursor.Stops.padded`).

`padding_never_matters` adds that three readings of white space are one: that of the formulas
without a text, that of the reader, which skips it, and that of the errors, which do not count it.
-/

namespace FormulaSheet

open Cursor

variable {s u before after : List Char} {c : Char} {e : Expr} {o : Obstacle} {q q' : Cursor}

/-- Blank texts put together are blank. -/
theorem allBlank_append (hs : allBlank s = true) (hu : allBlank u = true) :
    allBlank (s ++ u) = true := by
  rw [allBlank, List.all_append, ← allBlank, hs, Bool.true_and]
  exact hu

/-! ## Sentences -/

/-- A lexeme with more white space after it. -/
def Lexeme.widened (x : Lexeme) (more : List Char) (h : allBlank more = true) : Lexeme :=
  { x with space := x.space ++ more, blank := allBlank_append x.blank h }

/-- More white space behind a lexeme leaves its token. -/
@[simp] theorem Lexeme.token_widened {x : Lexeme} {more : List Char} {h : allBlank more = true} :
    (x.widened more h).token = x.token := rfl

/-- More white space behind a lexeme leaves it apart from the one before. -/
@[simp] theorem Lexeme.apart_widened {x y : Lexeme} {more : List Char}
    {h : allBlank more = true} : y.Apart (x.widened more h) ↔ y.Apart x := .rfl

/-- A layout with more white space before it. -/
def Layout.shifted (l : Layout) (more : List Char) (h : allBlank more = true) : Layout :=
  { l with before := more ++ l.before, blank := allBlank_append h l.blank }

/-- White space behind a sentence belongs to it. -/
theorem Sentence.append_blank (h : Sentence s e) (ha : allBlank after = true) :
    Sentence (s ++ after) e := by
  obtain ⟨⟨before, xs, hblank, hnotNot, hapart⟩, rfl, hd⟩ := h
  rcases List.eq_nil_or_concat' xs with rfl | ⟨xs, x, rfl⟩
  · exact ⟨⟨before ++ after, [], allBlank_append hblank ha, hnotNot, hapart⟩,
      by simp [Layout.text], hd⟩
  · rw [List.forall_mem_append] at hnotNot
    rw [List.isChain_append] at hapart
    obtain ⟨hinit, -, hlast⟩ := hapart
    refine ⟨⟨before, xs ++ [x.widened after ha], hblank, ?_, ?_⟩, ?_, ?_⟩
    · exact List.forall_mem_append.2 ⟨hnotNot.1, by simpa using hnotNot.2⟩
    · exact List.isChain_append.2 ⟨hinit, .singleton _, by simpa using hlast⟩
    · simp [Layout.text, Lexeme.text, Lexeme.widened]
    · simpa [Layout.tokens] using hd

/-- White space around a sentence is part of its layout. -/
theorem Sentence.padded (h : Sentence s e) (hb : allBlank before = true)
    (ha : allBlank after = true) : Sentence (before ++ s ++ after) e := by
  obtain ⟨l, rfl, hd⟩ := h
  exact append_blank ⟨l.shifted before hb, List.append_assoc .., hd⟩ ha

/-! ## Obstacles -/

/-- White space does not decide whether a text may end. -/
theorem Cursor.accepting_of_step_blank (hb : isBlank c = true) (h : q.step c = some q') :
    q'.accepting = q.accepting := by
  have hword : isLetterOrNumeral c = false := Bool.eq_false_iff.2 fun hc => by
    rw [not_isBlank_of_isLetterOrNumeral hc] at hb
    cases hb
  have hdigit : c.isDigit = false := Bool.eq_false_iff.2 fun hc => by
    rw [not_isBlank_of_isDigit hc] at hb
    cases hb
  have hparen : c ≠ '(' := by rintro rfl; cases hb
  have hpoint : c ≠ '.' := by rintro rfl; cases hb
  obtain ⟨place, compared, frames⟩ := q
  cases place with
  | operator =>
    simp only [step, operandStep, hb, if_true, Option.some.injEq] at h
    rw [← h]
  | word w =>
    rw [step_word (q := ⟨.operand, compared, frames⟩) hword, operate_blank _ hb,
      beq_eq_false_iff_ne.2 hparen, hb, Bool.and_false, Bool.and_true,
      if_neg Bool.false_ne_true] at h
    split_ifs at h <;> cases h <;> rfl
  | function =>
    simp only [step, hb, if_true, Option.some.injEq] at h
    rw [← h]
  | whole =>
    simp only [step, hdigit, hpoint, Bool.false_eq_true, if_false, operate_blank _ hb,
      Option.some.injEq] at h
    rw [← h]
    rfl
  | fraction =>
    simp only [step, hdigit, Bool.false_eq_true, if_false, operate_blank _ hb,
      Option.some.injEq] at h
    rw [← h]
    rfl
  | point =>
    simp only [step, hdigit, Bool.false_eq_true, if_false] at h
    cases h
  | operand =>
    simp only [step, operate_blank _ hb, Option.some.injEq] at h
    rw [← h]
  | a | an | o =>
    -- here no operand has ended, and after one more character none has either
    simp only [step] at h
    split_ifs at h
    cases h
    rfl

/-- Where a text may not end, it is stuck in white space or behind it. -/
theorem Cursor.exists_stops_blank (hq : q.accepting = false) (hs : allBlank s = true) :
    ∃ o, q.Stops s o ∧ allBlank o.rest = true := by
  induction s generalizing q with
  | nil => exact ⟨⟨[], q.expected⟩, ⟨q, .refl q [], hq, rfl⟩, allBlank_nil⟩
  | cons c s ih =>
    obtain ⟨hc, hblank⟩ := Bool.and_eq_true_iff.1 hs
    cases hstep : q.step c with
    | none => exact ⟨⟨c :: s, q.expected⟩, ⟨q, .refl q _, hstep, rfl⟩, hs⟩
    | some q' =>
      obtain ⟨o, hstops, ho⟩ := ih ((accepting_of_step_blank hc hstep).trans hq) hblank
      exact ⟨o, hstops.of_walks (.step hstep (.refl q' s)), ho⟩

/-- White space at the end of a text does not change its error. -/
theorem Cursor.Stops.append_blank (h : q.Stops s o) (ha : allBlank after = true) :
    ∃ o', q.Stops (s ++ after) o' ∧ ParseError.ofObstacle o' = .ofObstacle o := by
  cases hrest : o.rest with
  | nil =>
    obtain ⟨q', ⟨u, hs, hu⟩, hstuck, -⟩ := h
    rw [hrest] at hs hstuck
    obtain ⟨o', hstops, ho'⟩ := exists_stops_blank hstuck ha
    refine ⟨o', hstops.of_walks ⟨u, by rw [hs, List.append_nil], hu⟩, ?_⟩
    rw [ofObstacle_of_blank ho', ofObstacle_of_blank (by rw [hrest]; exact allBlank_nil)]
  | cons found r =>
    have happend := h.append (by rw [hrest]; exact List.cons_ne_nil found r) after
    refine ⟨_, happend, ?_⟩
    cases hb : allBlank o.rest with
    | true => rw [ofObstacle_of_blank hb, ofObstacle_of_blank (allBlank_append hb ha)]
    | false =>
      have ho : o = ⟨found :: r, o.expected⟩ := by rw [← hrest]
      have hb' := not_allBlank_append (v := after) (.inl hb)
      rw [hrest] at hb hb' ⊢
      exact (ofObstacle_eq_unexpected_iff.2 ⟨r ++ after, rfl, hb'⟩).trans
        (ofObstacle_eq_unexpected_iff.2 ⟨r, ho, hb⟩).symm

/-- A cursor before a text goes over white space. -/
theorem Cursor.walks_start_blank (hb : allBlank before = true) (s : List Char) :
    start.Walks (before ++ s) start s := by
  refine .of_stays (fun c hc => ?_) s
  have hc : isBlank c = true := List.all_eq_true.1 hb c hc
  simp [step, start, operandStep, hc]

/-- White space around a text with an error leaves the error as it is. -/
theorem Cursor.Stops.padded (h : start.Stops s o) (hb : allBlank before = true)
    (ha : allBlank after = true) : ∃ o', start.Stops (before ++ s ++ after) o' ∧
      ParseError.ofObstacle o' = .ofObstacle o :=
  (h.of_walks (walks_start_blank hb s)).append_blank ha

/-! ## Texts -/

/-- White space around a text changes neither its expression nor its error. -/
theorem parse_padded {before after : String} (hb : allBlank before.toList = true)
    (ha : allBlank after.toList = true) (text : String) :
    parse (before ++ text ++ after) = parse text := by
  have htext : (before ++ text ++ after).toList =
      before.toList ++ text.toList ++ after.toList := by
    rw [String.toList_append, String.toList_append]
  cases h : parse text with
  | ok e =>
    refine parse_complete ?_
    rw [htext]
    exact (parse_sound h).padded hb ha
  | error error =>
    obtain ⟨o, hstops, rfl⟩ := parse_eq_error_iff.1 h
    obtain ⟨o', hstops', ho⟩ := hstops.padded hb ha
    exact parse_eq_error_iff.2 ⟨o', htext ▸ hstops', ho.symm⟩

/-- White space alone is no formula, and ends too early. -/
theorem parse_blank {text : String} (h : allBlank text.toList = true) :
    parse text = .error .unexpectedEnd := by
  have hempty : parse (text ++ "" ++ "") = parse "" := parse_padded h rfl ""
  rwa [String.append_empty, String.append_empty] at hempty

/-! ## One notion of white space -/

/-- A character that is no white space ends a text too early only if the cursor gets over it to
where no formula may end. -/
theorem Cursor.step_of_unexpectedEnd (hu : start.advance u = some q) (hc : isBlank c = false)
    (h : parse (String.ofList (u ++ [c])) = .error .unexpectedEnd) :
    ∃ q', q.step c = some q' ∧ q'.accepting = false := by
  obtain ⟨o, ⟨q', ⟨v, hs, hv⟩, hstuck, -⟩, ho⟩ := parse_eq_error_iff.1 h
  have hblank := ofObstacle_eq_unexpectedEnd_iff.1 ho.symm
  rw [String.toList_ofList] at hs
  have hrest : o.rest = [] := by
    refine Classical.not_not.1 fun hne => ?_
    have hlast : o.rest.getLast? = some c := by
      rw [← List.getLast?_append_of_ne_nil v hne, ← hs, List.getLast?_concat]
    have hmem := List.all_eq_true.1 hblank c (List.mem_of_getLast? hlast)
    rw [hc] at hmem
    cases hmem
  rw [hrest, List.append_nil] at hs
  rw [← hs, advance_append, hu, Option.bind_some, advance_cons] at hv
  obtain ⟨q'', hstep, hq''⟩ := Option.bind_eq_some_iff.1 hv
  cases hq''
  rw [hrest] at hstuck
  exact ⟨q', hstep, hstuck⟩

/-- What a text may begin with that is no white space and no formula by itself. -/
theorem eq_of_unexpectedEnd (hc : isBlank c = false)
    (h : parse (String.ofList [c]) = .error .unexpectedEnd) : c = '-' ∨ c = '(' ∨ c = '.' := by
  obtain ⟨q, hstep, hq⟩ := step_of_unexpectedEnd (u := []) rfl hc h
  change start.operandStep c = some q at hstep
  by_cases h1 : c = '-'
  · exact .inl h1
  by_cases h2 : c = '('
  · exact .inr (.inl h2)
  by_cases h3 : c = '.'
  · exact .inr (.inr h3)
  rw [operandStep, hc, if_neg Bool.false_ne_true, if_neg h1, if_neg h2, if_neg h3] at hstep
  split_ifs at hstep
  · cases hstep
    cases hq
  · cases hstep
    cases hq

/-- None of these can stand next to a name without a difference. -/
theorem parse_next_to_name (h : c = '-' ∨ c = '(' ∨ c = '.') :
    parse (String.ofList [c] ++ "x") ≠ .ok (.cell "x") ∧
      parse ("x" ++ String.ofList [c]) ≠ .ok (.cell "x") := by
  rcases h with rfl | rfl | rfl
  · have hbefore : parse (String.ofList ['-'] ++ "x") = .ok (.unary .neg (.cell "x")) := rfl
    have hbehind : parse ("x" ++ String.ofList ['-']) = .error .unexpectedEnd := rfl
    rw [hbefore, hbehind]
    exact ⟨nofun, nofun⟩
  · have hbefore : parse (String.ofList ['('] ++ "x") = .error .unexpectedEnd := rfl
    obtain ⟨error, hbehind⟩ : ∃ error, parse ("x" ++ String.ofList ['(']) = .error error := ⟨_, rfl⟩
    rw [hbefore, hbehind]
    exact ⟨nofun, nofun⟩
  · have hbefore : parse (String.ofList ['.'] ++ "x") = .error (.unexpected 'x' [.kind]) := rfl
    obtain ⟨error, hbehind⟩ : ∃ error, parse ("x" ++ String.ofList ['.']) = .error error := ⟨_, rfl⟩
    rw [hbefore, hbehind]
    exact ⟨nofun, nofun⟩

/-- A character that makes no difference next to any text is white space. -/
theorem isBlank_of_skipped (hempty : parse (String.ofList [c]) = .error .unexpectedEnd)
    (hname : parse (String.ofList [c] ++ "x") = .ok (.cell "x") ∨
      parse ("x" ++ String.ofList [c]) = .ok (.cell "x")) : isBlank c = true := by
  by_contra hc
  obtain ⟨hbefore, hbehind⟩ :=
    parse_next_to_name (eq_of_unexpectedEnd (Bool.eq_false_iff.2 hc) hempty)
  exact hname.elim hbefore hbehind

/-- White space is what formulas without a text consist of, what the reader skips before a text and
behind it, and what an error at the end of a text does not count. -/
theorem isBlank_tfae (c : Char) :
    [allBlank [c] = true,
      ∀ text, parse (String.ofList [c] ++ text) = parse text,
      ∀ text, parse (text ++ String.ofList [c]) = parse text,
      parse ("." ++ String.ofList [c]) = .error .unexpectedEnd].TFAE := by
  have hc : allBlank [c] = isBlank c := Bool.and_true _
  have hlist : (String.ofList [c]).toList = [c] := String.toList_ofList
  have hname : parse "x" = .ok (.cell "x") := rfl
  tfae_have 1 → 2 := by
    intro h text
    have hpadded : parse (String.ofList [c] ++ text ++ "") = parse text :=
      parse_padded (by rwa [hlist]) rfl text
    rwa [String.append_empty] at hpadded
  tfae_have 1 → 3 := by
    intro h text
    have hpadded : parse ("" ++ text ++ String.ofList [c]) = parse text :=
      parse_padded rfl (by rwa [hlist]) text
    rwa [String.empty_append] at hpadded
  tfae_have 3 → 4 := fun h => h "."
  tfae_have 2 → 1 := by
    intro h
    have hempty := h ""
    rw [String.append_empty] at hempty
    rw [hc]
    exact isBlank_of_skipped hempty (.inl ((h "x").trans hname))
  tfae_have 4 → 1 := by
    intro h
    rw [hc]
    by_contra hblank
    rw [show "." ++ String.ofList [c] = String.ofList (['.'] ++ [c]) from String.ofList_append.symm]
      at h
    -- only a digit gets over a lone point, and a formula may end behind it
    obtain ⟨q, hstep, hq⟩ :=
      step_of_unexpectedEnd (u := ['.']) rfl (Bool.eq_false_iff.2 hblank) h
    change (if c.isDigit then some (Cursor.mk .fraction false []) else none) = some q at hstep
    split_ifs at hstep
    cases hstep
    cases hq
  tfae_finish

/-! ## Cells -/

namespace Sheet

variable {settings : Settings} {sheet : Sheet} {text : String}

/-- Texts with the same expression have the same value. -/
theorem evaluate_congr_parse {other : String} (h : parse text = parse other) :
    sheet.evaluate settings text = sheet.evaluate settings other := by
  unfold evaluate
  generalize parse text = parsed at h ⊢
  rw [h]

/-- White space around the formula of a cell does not change the cell's value. -/
theorem evaluateCell_padded {before after : String} (hb : allBlank before.toList = true)
    (ha : allBlank after.toList = true) :
    sheet.evaluateCell settings (before ++ text ++ after) =
      sheet.evaluateCell settings text := by
  have htext : allBlank (before ++ text ++ after).toList = allBlank text.toList := by
    rw [String.toList_append, String.toList_append, allBlank, List.all_append, List.all_append,
      ← allBlank, hb, ← allBlank, ← allBlank, ha, Bool.true_and, Bool.and_true]
  rw [evaluateCell, evaluateCell, htext, evaluate_congr_parse (parse_padded hb ha text)]

end Sheet

/-- White space around a text changes neither its expression nor its error, and a text of white
space alone ends too early. So it does not change what a cell gets from a formula either, which is 0
if there is nothing but white space, and else the value of the formula as a text. All of it is about
one notion of white space. -/
theorem padding_never_matters :
    (∀ before after : String, allBlank before.toList = true → allBlank after.toList = true →
      ∀ text, parse (before ++ text ++ after) = parse text ∧
        ∀ (settings : Settings) (sheet : Sheet),
          sheet.evaluateCell settings (before ++ text ++ after) =
            sheet.evaluateCell settings text) ∧
    (∀ text : String, allBlank text.toList = true → parse text = .error .unexpectedEnd) ∧
    (∀ (settings : Settings) (sheet : Sheet) (text : String), sheet.evaluateCell settings text =
      if allBlank text.toList then .ok 0 else sheet.evaluate settings text) ∧
    ∀ c : Char,
      [allBlank [c] = true,
        ∀ text, parse (String.ofList [c] ++ text) = parse text,
        ∀ text, parse (text ++ String.ofList [c]) = parse text,
        parse ("." ++ String.ofList [c]) = .error .unexpectedEnd].TFAE :=
  ⟨fun _ _ hb ha text => ⟨parse_padded hb ha text, fun _ _ => Sheet.evaluateCell_padded hb ha⟩,
    fun _ => parse_blank, fun _ _ _ => rfl, isBlank_tfae⟩

/-- White space beyond ASCII around a parenthesis that nothing opens, and around a point that lacks
its digit. -/
theorem padding_around_errors :
    let before := "\u3000\t"
    let after := "\u00a0\n"
    allBlank before.toList = true ∧ allBlank after.toList = true ∧
    parse (before ++ "1)" ++ after) = .error (.unexpected ')' ([.kind] ++
      ['.', '*', '/', '+', '-', '=', '<', '>'].map .character ++ [.ending])) ∧
    parse (before ++ "2*." ++ after) = .error .unexpectedEnd ∧
    Sheet.empty.evaluateCell {} (before ++ "2*." ++ after) = Sheet.empty.evaluateCell {} "2*." := by
  intro before after
  have hb : allBlank before.toList = true := by decide +kernel
  have ha : allBlank after.toList = true := by decide +kernel
  obtain ⟨hpadded, -⟩ := padding_never_matters
  exact ⟨hb, ha, (hpadded before after hb ha "1)").1, (hpadded before after hb ha "2*.").1,
    (hpadded before after hb ha "2*.").2 {} .empty⟩

end FormulaSheet
