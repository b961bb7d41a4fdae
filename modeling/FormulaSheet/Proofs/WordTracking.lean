import FormulaSheet.Proofs.OperandTracking

/-!
# Cursors track the readers of words

An operand that begins with a letter is a call or a reference. The reader of a call takes `max` or
`min` off the front of the name that stands there and is blocked if no parenthesis follows, which
may be inside the name, at its end or behind white space. `Tested` keeps what of this counts at the
end of the name, where the reader of the reference tests for a further letter.
-/

namespace FormulaSheet

open Reader Grammar Cursor

variable {α : Type} {s m r t u w letters : List Char} {c l : Char} {k n : Nat} {q q' : Cursor}
  {o o' : Option Obstacle} {p : Obstacle} {inner : Reader Expr}

/-! ## What is tested inside a name -/

/-- At the end of a name nothing has been tested, or only that it goes on. -/
def WordTested (t : List Char) (o : Option Obstacle) : Prop := Tested t o [] ∨ Tested t o [.kind]

/-- What two parts of a run have tested of a word comes together. -/
theorem WordTested.join? (h : WordTested t o) (h' : WordTested t o') :
    WordTested t (Obstacle.join? o o') := by
  rcases h with h | h <;> rcases h' with h' | h'
  · exact .inl (h.join? h')
  · exact .inr (h.join? h')
  · exact .inr (h.join? h')
  · exact .inr (h.join? h')

/-- A test of a letter inside a name or at its end. -/
theorem wordTested_kind (u t : List Char) : WordTested t (some ⟨u ++ t, [.kind]⟩) := by
  cases u with
  | nil => exact .inr .here
  | cons c u =>
    refine .inl (.before (.some ?_))
    simp only [List.length_append, List.length_cons]
    omega

/-- The names of functions have three letters. -/
theorem length_of_isFunction (h : isFunction w = true) : w.length = 3 := by
  rw [isFunction, Bool.or_eq_true, decide_eq_true_iff, decide_eq_true_iff] at h
  rcases h with h | h <;> simpa using congrArg List.length h

section
variable (ht : ∀ c ∈ t.head?, isLetterOrNumeral c = false) (hs : skipBlanks m = letters ++ t)
include ht hs

/-- A keyword at the front of a name begins the name, and a missing one is missed inside it. -/
theorem run_keyword_of_name {word : String} (hword : word ∈ keywords) (v : α) :
    (∃ w u, letters = w ++ u ∧ w.map Char.toLower = word.toList ∧
      (keyword word v).run m = .read v (skipBlanks (u ++ t)) none) ∨
    ∃ u, letters.map Char.toLower ≠ word.toList ∧ letters.length < u.length + word.toList.length ∧
      (keyword word v).run m = .blocked ⟨u ++ t, [.kind]⟩ := by
  rcases run_keyword word v m with ⟨w, m', hs', hw, hrun⟩ | ⟨w, m', l, ls, hs', hw, hne, hrun⟩
  · obtain ⟨u, hu, rfl⟩ := prefix_of_name (hs.symm.trans hs')
      (isLetterOrNumeral_of_spelling hword hw) ht
    exact .inl ⟨w, u, hu, hw, hrun⟩
  · have hw' := isLetterOrNumeral_of_keyword word hword ⟨_, hw.symm⟩
    obtain ⟨u, rfl, rfl⟩ := prefix_of_name (hs.symm.trans hs') hw' ht
    refine .inr ⟨u, fun h => ?_, ?_, hrun⟩
    · rw [hw, List.map_append] at h
      cases u with
      | nil => cases List.append_cancel_left h
      | cons c u => exact hne c rfl (List.cons.inj (List.append_cancel_left h)).1
    · rw [hw]
      simp only [List.length_append, List.length_map, List.length_cons]
      omega

/-- The name of a function is read off a name that begins with it. -/
theorem run_functionName_of_name :
    (∃ f w u o, letters = w ++ u ∧ isFunction w = true ∧ Before t o ∧
      functionName.run m = .read f (skipBlanks (u ++ t)) o) ∨
    ∃ p, isFunction letters = false ∧ WordTested t (some p) ∧ functionName.run m = .blocked p := by
  rcases run_keyword_of_name ht hs (by decide : "max" ∈ keywords) Builtin.max with
    ⟨w, u, hu, hw, hrun⟩ | ⟨u, hmax, hlen, hrun⟩
  · refine .inl ⟨_, w, u, none, hu, ?_, .none, run_orElse_of_read hrun⟩
    rw [isFunction, hw]
    rfl
  · rcases run_keyword_of_name ht hs (by decide : "min" ∈ keywords) Builtin.min with
      ⟨w', u', hu', hw', hrun'⟩ | ⟨u', hmin, -, hrun'⟩
    · have hread : functionName.run m =
          .read .min (skipBlanks (u' ++ t)) (some ⟨u ++ t, [.kind]⟩) := by
        rw [functionName, run_orElse_of_blocked hrun, hrun']
        rfl
      refine .inl ⟨_, w', u', _, hu', ?_, .some ?_, hread⟩
      · rw [isFunction, hw']
        rfl
      · -- the word `max` is missed before the word `min` ends
        have hw : w'.length = 3 := by simpa using congrArg List.length hw'
        have hthree : "max".toList.length = 3 := rfl
        rw [hu', List.length_append] at hlen
        rw [List.length_append]
        omega
    · refine .inr ⟨_, ?_, (wordTested_kind u t).join? (wordTested_kind u' t), ?_⟩
      · rw [isFunction, Bool.or_eq_false_iff, decide_eq_false_iff_not, decide_eq_false_iff_not]
        exact ⟨hmax, hmin⟩
      · rw [functionName, run_orElse_of_blocked hrun, hrun']
        rfl

end

/-! ## Arguments -/

/-- Reads the arguments of a call. -/
def arguments (inner : Reader Expr) (f : Builtin) : Reader Expr :=
  mark '(' () >>= fun _ => inner >>= fun first => mark ',' () >>= fun _ =>
    inner >>= fun second => mark ')' () >>= fun _ => pure (.call f [first, second])

/-- A call is the name of a function with arguments behind it. -/
theorem call_eq (inner : Reader Expr) : call inner = functionName >>= arguments inner := rfl

/-- The arguments of a call are read, or they are blocked where the cursor is stuck. -/
theorem run_arguments {x : List Char} (hinner : Tracks 5 n inner) (hn : (skipBlanks x).length < n)
    (hs : skipBlanks m = '(' :: x) (q : Cursor) (f : Builtin) :
    (∃ p, (arguments inner f).run m = .blocked p ∧ (q.enter .first).Stops (skipBlanks x) p) ∨
    ∃ e r o, (arguments inner f).run m = .read e r o ∧ Before r o ∧ skipBlanks r = r ∧
      (q.enter .first).Walks (skipBlanks x) { q with place := .operand } r := by
  have hopen : (mark '(' ()).run m = .read () (skipBlanks x) none := run_mark_of_eq () hs
  have hfirst := hinner hn rfl (fun _ => rfl : 3 ≤ 5 → (q.enter .first).compared = false)
  have hrun : ∀ K : Unit → Reader Expr, (mark '(' () >>= K).run m = (K ()).run (skipBlanks x) :=
    fun K => by rw [run_bind_of_read hopen, Outcome.after_none]
  rw [arguments, hrun]
  rcases run_enclosed (f := ⟨.first, q.compared⟩) hfirst rfl (fun first => inner >>= fun second =>
      mark ')' () >>= fun _ => pure (Expr.call f [first, second])) with
    ⟨p, hrun₁, hstops⟩ | ⟨e, r, o, hrun₁, ho, hwalk, -⟩
  · exact .inl ⟨p, hrun₁, hstops⟩
  · have hr := Nat.lt_of_le_of_lt hwalk.length_le hn
    have hsecond := hinner (q := Frame.closed ⟨.first, q.compared⟩ q.frames) hr rfl (fun _ => rfl)
    rcases run_enclosed (f := ⟨.second, q.compared⟩) hsecond rfl
        (fun second => pure (Expr.call f [e, second])) with
      ⟨p, hrun₂, hstops⟩ | ⟨e', r', o', hrun₂, ho', hwalk', hr'⟩
    · refine .inl ⟨p.after o, hrun₁.trans (congrArg (Outcome.after o) hrun₂), ?_⟩
      rw [(ho.mono hstops.length_le).after_eq]
      exact hstops.of_walks hwalk
    · refine .inr ⟨_, r', _, hrun₁.trans (congrArg (Outcome.after o) hrun₂), ?_, hr',
        hwalk.trans hwalk'⟩
      exact (ho.mono hwalk'.length_le).join? ho'

/-! ## Operands that begin with a letter -/

/-- A further test by kind at the end of a word is the only one there. -/
theorem WordTested.kind (h : WordTested t o) :
    Tested t (Obstacle.join? o (some ⟨t, [.kind]⟩)) [.kind] := by
  rcases h with h | h
  · exact h.join? .here
  · exact h.join? .here

/-- An operand that is neither a number nor a group is left to the readers of words. -/
theorem run_atom_of_word {o₁ o₂ : Obstacle} (h₁ : number.run m = .blocked o₁)
    (h₂ : (group inner).run m = .blocked o₂) (p : Obstacle) :
    ((atom inner).run m).after (some p) =
      ((call inner <|> reference).run m).after (some (p.join (o₁.join o₂))) := by
  rw [atom, run_orElse_of_blocked h₁, run_orElse_of_blocked h₂, Outcome.after_after,
    Outcome.after_after, Obstacle.join?_assoc]
  rfl

/-- A name is read as a reference with the white space around it. -/
theorem run_reference_of_name (hc : isLetter c = true)
    (hw : ∀ d ∈ w, isLetterOrNumeral d = true) (ht : ∀ d ∈ t.head?, isLetterOrNumeral d = false)
    (hs : skipBlanks m = c :: w ++ t) : reference.run m =
      .read (.cell (String.ofList (c :: w))) (skipBlanks t) (some ⟨t, [.kind]⟩) := by
  obtain ⟨htake, hdrop⟩ := span_append hw ht
  rw [reference, run_token, hs, List.cons_append, run_cellName hc, htake, hdrop]

/-- Before a name the word `not` is missed inside the name. -/
theorem wordTested_of_sign (ht : ∀ d ∈ t.head?, isLetterOrNumeral d = false)
    (hs : skipBlanks m = c :: w ++ t) (hp : signReader.run m = .blocked p) :
    WordTested t (some p) := by
  obtain ⟨w', m', l, ls, hs', hword, -, -, rfl⟩ := sign_missed hp
  have hw' := isLetterOrNumeral_of_keyword "not" (by decide) ⟨_, hword.symm⟩
  obtain ⟨u, -, rfl⟩ := prefix_of_name (hs.symm.trans hs') hw' ht
  have hminus : WordTested t (some ⟨skipBlanks m, [.character '-']⟩) := by
    refine .inl (.before (.some ?_))
    simp only [hs, List.length_append, List.length_cons]
    omega
  exact (wordTested_kind u t).join? hminus

/-- A name does not begin with the word `not`. -/
theorem not_not_of_sign (hs : skipBlanks m = letters ++ t) (hp : signReader.run m = .blocked p) :
    (letters.take 3).map Char.toLower ≠ ['n', 'o', 't'] := by
  intro h
  have hsplit : skipBlanks m = letters.take 3 ++ (letters.drop 3 ++ t) := by
    rw [hs, ← List.append_assoc, List.take_append_drop]
  have hfails : (keyword "not" UnaryOp.not).Fails m := (fails_orElse.1 ⟨p, hp⟩).1
  exact hfails.not_reads (reads_keyword.2 ⟨rfl, _, _, hsplit, h, rfl⟩)

/-- The arguments of a call are missed where no parenthesis opens. -/
theorem run_arguments_of_ne (h : ∀ c ∈ (skipBlanks m).head?, c ≠ '(') (f : Builtin) :
    (arguments inner f).run m = .blocked ⟨skipBlanks m, [.character '(']⟩ :=
  run_bind_of_blocked (run_mark_of_ne () h)

/-- At the end of a name the arguments of a call are looked for if it is the name of a function. -/
theorem run_call_of_name (inner : Reader Expr)
    (hletters : ∀ d ∈ letters, isLetterOrNumeral d = true)
    (ht : ∀ d ∈ t.head?, isLetterOrNumeral d = false) (hs : skipBlanks m = letters ++ t) :
    (isFunction letters = false ∧ ∃ p, (call inner).run m = .blocked p ∧ WordTested t (some p)) ∨
    isFunction letters = true ∧ ∃ f o, Before t o ∧
      (call inner).run m = ((arguments inner f).run (skipBlanks t)).after o := by
  rcases run_functionName_of_name ht hs with ⟨f, w, u, o, rfl, hw, ho, hrun⟩ | ⟨p, hf, hp, hrun⟩
  · rw [call_eq, run_bind_of_read hrun]
    cases u with
    | nil => exact .inr ⟨by rwa [List.append_nil], f, o, ho, rfl⟩
    | cons d u =>
      have hd : isLetterOrNumeral d = true := hletters d (by simp)
      have hskip : skipBlanks (d :: u ++ t) = d :: u ++ t :=
        skipBlanks_eq_self (by simpa using not_isBlank_of_isLetterOrNumeral hd)
      have hpar : ∀ c ∈ (skipBlanks (d :: u ++ t)).head?, c ≠ '(' := by
        rw [hskip]
        rintro c hc rfl
        obtain rfl : d = '(' := Option.some.inj hc
        revert hd
        decide
      have hargs : (arguments inner f).run (skipBlanks (d :: u ++ t)) =
          .blocked ⟨d :: u ++ t, [.character '(']⟩ := by
        rw [run_arguments_of_ne (by rwa [skipBlanks_skipBlanks]), skipBlanks_skipBlanks, hskip]
      have hbefore : Before t (some ⟨d :: u ++ t, [.character '(']⟩) := .some (by
        simp only [List.length_append, List.length_cons]
        omega)
      refine .inl ⟨Bool.eq_false_iff.2 fun h => ?_, _, congrArg (Outcome.after o) hargs,
        .inl (.before (ho.join? hbefore))⟩
      have hlen := length_of_isFunction h
      have hlen' := length_of_isFunction hw
      rw [List.length_append, List.length_cons] at hlen
      omega
  · exact .inl ⟨hf, p, run_bind_of_blocked hrun, hp⟩

/-- The white space behind a name of a function is behind the name too. -/
theorem walks_function (hf : isFunction w = true) (hb : isBlank c = true) (s : List Char) :
    Walks { q with place := .word w } (c :: s) { q with place := .function } (skipBlanks s) := by
  have hc : isLetterOrNumeral c = false :=
    Bool.eq_false_iff.2 fun h => by rw [not_isBlank_of_isLetterOrNumeral h] at hb; cases hb
  have hpar : (c == '(') = false := by
    rw [beq_eq_false_iff_ne]
    rintro rfl
    revert hb
    decide
  have hstep : Cursor.step { q with place := .word w } c = some { q with place := .function } := by
    simp only [step_word hc, hf, hb, hpar]
    rfl
  have hstay : ∀ c, isBlank c = true →
      Cursor.step { q with place := .function } c = some { q with place := .function } :=
    fun c hb => by simp [Cursor.step, hb]
  exact .step hstep (walks_dropWhile (f := isBlank) hstay s)

/-- A text begins with white space, or there is none to skip. -/
theorem skipBlanks_eq_or (t : List Char) :
    skipBlanks t = t ∨ ∃ c t', t = c :: t' ∧ isBlank c = true ∧ skipBlanks t = skipBlanks t' := by
  cases t with
  | nil => exact .inl rfl
  | cons c t' =>
    cases hb : isBlank c with
    | true => exact .inr ⟨c, t', rfl, hb, List.dropWhile_cons_of_pos hb⟩
    | false => exact .inl (skipBlanks_eq_self (by simpa using hb))

/-- The parenthesis behind the name of a function opens the first argument of a call. -/
theorem walks_open {x : List Char} (hf : isFunction w = true) (h : skipBlanks t = '(' :: x) :
    Walks { q with place := .word w } t (q.enter .first) (skipBlanks x) := by
  rcases skipBlanks_eq_or t with ht | ⟨c, t', rfl, hb, ht⟩
  · rw [ht] at h
    have hstep : Cursor.step { q with place := .word w } '(' = some (q.enter .first) := by
      rw [step_word (by decide), hf]
      rfl
    exact h ▸ .step hstep (walks_skipBlanks rfl x)
  · rw [ht] at h
    have hstep : Cursor.step { q with place := .function } '(' = some (q.enter .first) := by
      simp [Cursor.step, show isBlank '(' = false from by decide, enter]
    have hwalk := walks_function (q := q) hf hb t'
    rw [h] at hwalk
    exact hwalk.trans (.step hstep (walks_skipBlanks rfl x))

section
variable (hq : q.place = .operator) (hp : signReader.run m = .blocked p)
  (hc : isLetter c = true) (hw : ∀ d ∈ w, isLetterOrNumeral d = true)
  (ht : ∀ d ∈ t.head?, isLetterOrNumeral d = false) (hs : skipBlanks m = c :: w ++ t)
include hq hp hc hw ht hs

omit ht in
/-- A cursor and the readers before that of a call on a name. -/
theorem word_spec (inner : Reader Expr) :
    q.Walks m { q with place := .word (c :: w) } t ∧
    ∃ p', Before t (some p') ∧
      ((atom inner).run m).after (some p) =
        ((call inner <|> reference).run m).after (some (p.join p')) := by
  obtain ⟨hdigit, hdot, hpar, -⟩ := isLetter_spec hc
  have hwalk := walks_skipBlanks hq m
  rw [hs] at hwalk
  have hnumber : number.run m = .blocked ⟨skipBlanks m, [.kind, .character '.']⟩ :=
    run_number_of_not (by simp [hs, hdigit, hdot])
  have hgroup : (group inner).run m = .blocked ⟨skipBlanks m, [.character '(']⟩ :=
    run_group_of_not (by simp [hs, hpar])
  refine ⟨hwalk.trans (walks_name hq hc hw (not_not_of_sign hs hp) t), _, ?_,
    run_atom_of_word hnumber hgroup p⟩
  rw [Obstacle.join_mk]
  refine .some ?_
  simp only [hs, List.length_append, List.length_cons]
  omega

/-- A name that is not that of a function. -/
theorem atom_tracked_of_name (hf : isFunction (c :: w) = false) :
    q.Tracked 0 m (((atom inner).run m).after (some p)) := by
  obtain ⟨hwalk, p', hp', hrun⟩ := word_spec hq hp hc hw hs inner
  have hletters : ∀ d ∈ c :: w, isLetterOrNumeral d = true :=
    List.forall_mem_cons.2 ⟨isLetterOrNumeral_of_isLetter hc, hw⟩
  rcases run_call_of_name inner hletters ht hs with ⟨-, p'', hcall, hp''⟩ | ⟨hf', -⟩
  · have hsign := wordTested_of_sign ht hs hp
    have htested := ((hsign.join? (.inl (.before hp'))).join? hp'').kind
    rw [hrun, run_orElse_of_blocked hcall, run_reference_of_name hc hw ht hs, Outcome.after_after]
    refine tracked_token hwalk rfl rfl rfl (fun d hd => ?_) ?_
    · rw [step_word (ht d hd), hf]
      rfl
    · have hinside : inside (.word (c :: w)) = [.kind] := by rw [inside, hf]; rfl
      show Tested t _ (inside (.word (c :: w)))
      rw [hinside]
      exact htested
  · rw [hf] at hf'
    cases hf'

omit hq hc hw ht in
/-- Before the name of a function the word `not` is missed at its first letter. -/
theorem before_of_sign (hf : isFunction (c :: w) = true) : Before t (some p) := by
  have hm : c.toLower = 'm' := by
    rw [isFunction, Bool.or_eq_true, decide_eq_true_iff, decide_eq_true_iff] at hf
    rcases hf with h | h <;> exact (List.cons.inj h).1
  rw [sign_missed_at_head hp (by simp [hs, hm])]
  refine .some ?_
  simp only [hs, List.length_append, List.length_cons]
  omega

/-- The name of a function without its arguments is a name. -/
theorem atom_tracked_of_function (hf : isFunction (c :: w) = true)
    (hne : ∀ d ∈ (skipBlanks t).head?, d ≠ '(') :
    q.Tracked 0 m (((atom inner).run m).after (some p)) := by
  obtain ⟨hwalk, p', hp', hrun⟩ := word_spec hq hp hc hw hs inner
  have hletters : ∀ d ∈ c :: w, isLetterOrNumeral d = true :=
    List.forall_mem_cons.2 ⟨isLetterOrNumeral_of_isLetter hc, hw⟩
  have hbefore : Before t (some (p.join p')) := (before_of_sign hp hs hf).join? hp'
  rcases run_call_of_name inner hletters ht hs with ⟨hf', -⟩ | ⟨-, f, o, ho, hcall⟩
  · rw [hf] at hf'
    cases hf'
  rw [run_arguments_of_ne (by rwa [skipBlanks_skipBlanks]), skipBlanks_skipBlanks] at hcall
  have hcall' : (call inner).run m = .blocked (Obstacle.after o ⟨skipBlanks t, [.character '(']⟩) :=
    hcall
  rw [hrun, run_orElse_of_blocked hcall', run_reference_of_name hc hw ht hs, Outcome.after_after]
  rcases skipBlanks_eq_or t with hskip | ⟨d, t', rfl, hb, hskip⟩
  · -- the test for a parenthesis and that for a further letter are made at the same place
    have hpar : Tested t (some ⟨t, [.character '(']⟩) [.character '('] := .here
    have hkind : Tested t (some ⟨t, [.kind]⟩) [.kind] := .here
    have htested := ((Tested.before hbefore).join? ((Tested.before ho).join? hpar)).join? hkind
    have hinside : inside (.word (c :: w)) = [.character '(', .kind] := by rw [inside, hf]; rfl
    refine tracked_token hwalk rfl rfl rfl (fun d hd => ?_) ?_
    · rw [← hskip] at hd
      have hblank := isBlank_head_skipBlanks hd
      have hpar : (d == '(') = false := beq_eq_false_iff_ne.2 (hne d hd)
      rw [hskip] at hd
      rw [step_word (ht d hd), hf, hblank, hpar]
      rfl
    · show Tested t _ (inside (.word (c :: w)))
      rw [hinside, hskip]
      exact htested
  · rw [hskip]
    rw [hskip] at hne
    have hlen : (skipBlanks t').length < (d :: t').length :=
      Nat.lt_succ_of_le (length_skipBlanks_le t')
    have hpar : Tested (skipBlanks t') (some ⟨skipBlanks t', [.character '(']⟩) [.character '('] :=
      .here
    have htested := ((Tested.before (hbefore.mono (Nat.le_of_lt hlen))).join?
      ((Tested.before (ho.mono (Nat.le_of_lt hlen))).join? hpar)).join?
        (.before (.some hlen : Before _ (some ⟨d :: t', [.kind]⟩)))
    have htoken := tracked_token (v := Expr.cell (String.ofList (c :: w)))
      (hwalk.trans (walks_function hf hb t')) rfl rfl rfl (fun d hd => ?_) htested
    · rwa [skipBlanks_skipBlanks] at htoken
    · simp [Cursor.step, isBlank_head_skipBlanks hd, hne d hd]

/-- The name of a function with an open parenthesis behind it begins a call. -/
theorem atom_tracked_of_call {x : List Char} (hinner : Tracks 5 n inner) (hn : m.length ≤ n)
    (hf : isFunction (c :: w) = true) (hx : skipBlanks t = '(' :: x) :
    q.Tracked 0 m (((atom inner).run m).after (some p)) := by
  obtain ⟨hwalk, p', hp', hrun⟩ := word_spec hq hp hc hw hs inner
  have hletters : ∀ d ∈ c :: w, isLetterOrNumeral d = true :=
    List.forall_mem_cons.2 ⟨isLetterOrNumeral_of_isLetter hc, hw⟩
  have hbefore : Before t (some (p.join p')) := (before_of_sign hp hs hf).join? hp'
  rcases run_call_of_name inner hletters ht hs with ⟨hf', -⟩ | ⟨-, f, o, ho, hcall⟩
  · rw [hf] at hf'
    cases hf'
  have hwalk' := hwalk.trans (walks_open hf hx)
  have hxlen : (skipBlanks x).length < (skipBlanks t).length := by
    rw [hx]
    exact Nat.lt_succ_of_le (length_skipBlanks_le x)
  have htlen := length_skipBlanks_le t
  have hlen : (skipBlanks x).length < n := by
    have hmlen := length_skipBlanks_le m
    simp only [hs, List.length_append, List.length_cons] at hmlen
    omega
  rw [hrun]
  rcases run_arguments hinner hlen ((skipBlanks_skipBlanks t).trans hx) q f with
    ⟨p'', hargs, hstops⟩ | ⟨e, r, o', hargs, ho', hr, hwalk''⟩
  · -- the name is read as a reference, and nothing can follow it
    have hp'' : p''.rest.length < (skipBlanks t).length := Nat.lt_of_le_of_lt hstops.length_le hxlen
    have hp''t : p''.rest.length ≤ t.length := by omega
    have hcall' : (call inner).run m = .blocked p'' := by
      rw [hcall, hargs, Outcome.after, (ho.mono hp''t).after_eq]
    have hjoin : p''.join ⟨t, [.kind]⟩ = p'' :=
      Obstacle.join_of_nearer (Nat.lt_of_lt_of_le hp'' htlen)
    rw [run_orElse_of_blocked hcall', run_reference_of_name hc hw ht hs, Outcome.after,
      Obstacle.join?_some, hjoin, Outcome.after, (hbefore.mono hp''t).join?_eq]
    exact .doomed (hstops.of_walks hwalk') hp'' (by rw [hx]; rfl) (by decide) (by decide)
  · have hcall' : (call inner).run m = .read e r (Obstacle.join? o o') := by
      rw [hcall, hargs]
      rfl
    have hrlen := hwalk''.length_le
    have htoken : q.Tracked 0 m (Outcome.read e (skipBlanks r)
        (Obstacle.join? (some (p.join p')) (Obstacle.join? o o'))) :=
      tracked_token (hwalk'.trans hwalk'') rfl rfl rfl (fun _ _ => rfl)
        (.before ((hbefore.mono (by omega)).join? ((ho.mono (by omega)).join? ho')))
    rw [run_orElse_of_read hcall', Outcome.after]
    rwa [hr] at htoken

end

/-! ## Operands -/

/-- Atoms are tracked where no sign was read. -/
theorem atom_tracked (hinner : Tracks 5 n inner) (hn : m.length ≤ n) (hq : q.place = .operator)
    (hp : signReader.run m = .blocked p) : q.Tracked 0 m (((atom inner).run m).after (some p)) := by
  cases hs : skipBlanks m with
  | nil => exact atom_tracked_of_not hq hp (by simp [hs]) (by simp [hs]) (by simp [hs])
  | cons c x =>
    by_cases hdigit : c.isDigit = true
    · exact atom_tracked_of_digit hq hp hs hdigit
    by_cases hdot : c = '.'
    · exact atom_tracked_of_point hq hp (hdot ▸ hs)
    by_cases hpar : c = '('
    · exact atom_tracked_of_group hinner hn hq hp (hpar ▸ hs)
    by_cases hc : isLetter c = true
    · have hsplit : skipBlanks m =
          c :: x.takeWhile isLetterOrNumeral ++ x.dropWhile isLetterOrNumeral := by
        rw [hs, List.cons_append, List.takeWhile_append_dropWhile]
      have hw : ∀ d ∈ x.takeWhile isLetterOrNumeral, isLetterOrNumeral d = true :=
        fun d hd => List.mem_takeWhile_imp hd
      have ht : ∀ d ∈ (x.dropWhile isLetterOrNumeral).head?, isLetterOrNumeral d = false :=
        fun d hd => not_of_head_dropWhile hd
      cases hf : isFunction (c :: x.takeWhile isLetterOrNumeral) with
      | false => exact atom_tracked_of_name hq hp hc hw ht hsplit hf
      | true =>
        obtain ⟨y, hy⟩ | hne := begins_or_head_ne '(' (skipBlanks (x.dropWhile isLetterOrNumeral))
        · exact atom_tracked_of_call hq hp hc hw ht hsplit hinner hn hf hy
        · exact atom_tracked_of_function hq hp hc hw ht hsplit hf hne
    · exact atom_tracked_of_not hq hp (by simp [hs, hdigit, hdot]) (by simp [hs, hpar])
        (by simp [hs, hc])

/-- Signed operands are tracked if the inside of parentheses is. -/
theorem signed_tracks (hinner : Tracks 5 n inner) : Tracks 0 (n + 1) (signed inner) := by
  intro q s hs hq _
  obtain ⟨ops, m, p, hrun, hp, -, hw⟩ := run_signs hq (s.length + 1) (Nat.lt_succ_self s.length)
  have hsigns : (many signReader).run s = .read ops m (some p) := hrun
  have hm := hw.length_le
  have hatom := atom_tracked hinner (by omega) hq hp
  rw [signed, show (keyword "not" UnaryOp.not <|> mark '-' UnaryOp.neg) = signReader from rfl,
    run_bind_of_read hsigns]
  exact .of_walks hw rfl (fun _ => rfl) (hatom.bind_pure _)

end FormulaSheet
