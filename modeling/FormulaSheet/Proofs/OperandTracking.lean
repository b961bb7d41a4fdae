import FormulaSheet.Proofs.ParseComplete
import FormulaSheet.Proofs.Tracking

/-!
# Cursors track the readers of operands

`signed_tracks`: from where an operand is to begin, the cursor tracks the reader of an operand with
the operators before it, if it tracks the reader of what stands inside parentheses. The alternatives
of an operand are told apart by its first character. Names are the difficult case: the readers of
`not`, `max` and `min` look into a name before it is read as one, but not beyond its end unless the
name is that of a function.
-/

namespace FormulaSheet

open Reader Grammar Cursor

variable {α β : Type} {s m r t w : List Char} {c l : Char} {k n : Nat} {q q' q'' : Cursor}
  {o : Option Obstacle} {p : Obstacle}

/-! ## Words that are looked for -/

/-- A word that is not there is missed at its first letter that differs. -/
theorem run_letters_of_blocked {word : List Char} (h : (letters word).run s = .blocked p) :
    p.expected = [.kind] ∧ ∃ w l ls, s = w ++ p.rest ∧ word = w.map Char.toLower ++ l :: ls ∧
      ∀ c ∈ p.rest.head?, c.toLower ≠ l := by
  induction word generalizing s with
  | nil => cases h
  | cons l word ih =>
    cases s with
    | nil =>
      rw [run_letters_cons_nil] at h
      cases h
      exact ⟨rfl, [], l, word, rfl, rfl, by simp⟩
    | cons c s =>
      rw [run_letters_cons] at h
      split at h
      · next hc =>
        obtain ⟨he, w, l', ls, rfl, rfl, hne⟩ := ih h
        exact ⟨he, c :: w, l', ls, rfl, by simp [hc], hne⟩
      · next hc =>
        cases h
        exact ⟨rfl, [], l, word, rfl, rfl, by simpa using hc⟩

/-- A word that is there is read without an obstacle. -/
theorem run_letters_of_read {word : List Char} {u : Unit}
    (h : (letters word).run s = .read u r o) : o = none := by
  induction word generalizing s with
  | nil => cases h; rfl
  | cons l word ih =>
    cases s with
    | nil => cases h
    | cons c s =>
      rw [run_letters_cons] at h
      split at h
      · exact ih h
      · cases h

/-- What the reader of a keyword makes of a text. -/
theorem run_keyword (word : String) (v : α) (s : List Char) :
    (∃ w m, skipBlanks s = w ++ m ∧ w.map Char.toLower = word.toList ∧
      (keyword word v).run s = .read v (skipBlanks m) none) ∨
    ∃ w m l ls, skipBlanks s = w ++ m ∧ word.toList = w.map Char.toLower ++ l :: ls ∧
      (∀ c ∈ m.head?, c.toLower ≠ l) ∧ (keyword word v).run s = .blocked ⟨m, [.kind]⟩ := by
  rw [keyword, run_token]
  cases h : (letters word.toList).run (skipBlanks s) with
  | read u m o =>
    obtain rfl := run_letters_of_read h
    obtain ⟨w, hs, hw⟩ := reads_letters.1 ⟨none, h⟩
    exact .inl ⟨w, m, hs, hw, rfl⟩
  | blocked p =>
    obtain ⟨he, w, l, ls, hs, hword, hne⟩ := run_letters_of_blocked h
    exact .inr ⟨w, p.rest, l, ls, hs, hword, hne, by rw [← he]⟩

/-! ## The cursor on a word -/

/-- A cursor behind letters stays in the word that they begin, unless they become a `not`. -/
theorem walks_word_append {w : List Char} (hw : ∀ c ∈ w, isLetterOrNumeral c = true)
    (u : List Char) (hnot : ∀ v, v <+: w → v ≠ [] → (u ++ v).map Char.toLower ≠ ['n', 'o', 't'])
    (t : List Char) :
    Walks ⟨.word u, q.compared, q.frames⟩ (w ++ t) ⟨.word (u ++ w), q.compared, q.frames⟩ t := by
  induction w generalizing u with
  | nil =>
    rw [List.append_nil]
    exact .refl _ t
  | cons c w ih =>
    obtain ⟨hc, hw⟩ := List.forall_mem_cons.1 hw
    have hstep : Cursor.step ⟨.word u, q.compared, q.frames⟩ c =
        some ⟨.word (u ++ [c]), q.compared, q.frames⟩ := by
      have hne := hnot [c] ⟨w, rfl⟩ (by simp)
      simp only [Cursor.step, wordStep, if_neg hne, hc, if_true]
    refine .step hstep ?_
    have hrest := ih hw (u ++ [c]) fun v hv hne => ?_
    · rwa [List.append_assoc] at hrest
    · rw [List.append_assoc]
      exact hnot (c :: v) (List.cons_prefix_cons.2 ⟨rfl, hv⟩) (by simp)

/-- Where an operand is to begin a letter begins a word. -/
theorem step_of_letter (hq : q.place = .operator) (hc : isLetter c = true) :
    q.step c = some { q with place := .word [c] } := by
  obtain ⟨hdigit, hdot, hpar, hminus⟩ := isLetter_spec hc
  have hb := not_isBlank_of_isLetterOrNumeral (isLetterOrNumeral_of_isLetter hc)
  simp [Cursor.step, hq, operandStep, hb, hdigit, hdot, hpar, hminus, hc]

/-- A name leads the cursor to its end. -/
theorem walks_name (hq : q.place = .operator) (hc : isLetter c = true)
    (hw : ∀ d ∈ w, isLetterOrNumeral d = true)
    (hnot : ((c :: w).take 3).map Char.toLower ≠ ['n', 'o', 't']) (t : List Char) :
    q.Walks (c :: (w ++ t)) { q with place := .word (c :: w) } t := by
  refine .step (step_of_letter hq hc) (walks_word_append hw [c] (fun v hv _ hv' => hnot ?_) t)
  have hlen : ([c] ++ v).length = 3 := by
    simpa using congrArg List.length hv'
  have hprefix : [c] ++ v <+: c :: w := List.cons_prefix_cons.2 ⟨rfl, hv⟩
  rw [← hlen, ← List.prefix_iff_eq_take.1 hprefix]
  exact hv'

/-! ## Operators before an operand -/

/-- The word `not` leads the cursor back to where an operand is to begin. -/
theorem walks_not (hq : q.place = .operator) (hw : w.map Char.toLower = ['n', 'o', 't'])
    (t : List Char) : q.Walks (w ++ t) q t := by
  obtain ⟨a, b, c, rfl⟩ := List.length_eq_three.1 (by simpa using congrArg List.length hw)
  have hletters := isLetterOrNumeral_of_spelling (by decide : "not" ∈ keywords) hw
  have ha : isLetter a = true := isLetter_of_toLower (by rw [(List.cons.inj hw).1]; decide)
  have hb : isLetterOrNumeral b = true := hletters b (by simp)
  refine (walks_name hq ha (w := [b]) (by simpa using hb) (by simp) (c :: t)).trans ?_
  have hstep : Cursor.step { q with place := .word [a, b] } c = some q := by
    obtain ⟨place, compared, frames⟩ := q
    cases hq
    have hw' : ([a, b] ++ [c]).map Char.toLower = ['n', 'o', 't'] := hw
    simp only [Cursor.step, wordStep, if_pos hw']
  exact .step hstep (.refl q t)

/-- An operator before an operand is read and leaves the cursor where it is, or none begins there.
In that case the word `not` may still be missed further on. -/
theorem run_sign (hq : q.place = .operator) (s : List Char) :
    (∃ op r o, signReader.run s = .read op r o ∧ Before r o ∧ r.length < s.length ∧ q.Walks s q r) ∨
    ∃ w m l ls, skipBlanks s = w ++ m ∧ ['n', 'o', 't'] = w.map Char.toLower ++ l :: ls ∧
      (∀ c ∈ m.head?, c.toLower ≠ l) ∧ (∀ c ∈ (skipBlanks s).head?, c ≠ '-') ∧
      signReader.run s =
        .blocked (Obstacle.join ⟨m, [.kind]⟩ ⟨skipBlanks s, [.character '-']⟩) := by
  rcases run_keyword "not" UnaryOp.not s with
    ⟨w, m, hs, hw, hrun⟩ | ⟨w, m, l, ls, hs, hword, hne, hrun⟩
  · have hread : signReader.run s = .read .not (skipBlanks m) none := run_orElse_of_read hrun
    refine .inl ⟨_, _, _, hread, .none, signReader_advances ⟨_, hread⟩, ?_⟩
    have hwalk := walks_skipBlanks hq s
    rw [hs] at hwalk
    exact (hwalk.trans (walks_not hq hw m)).trans (walks_skipBlanks hq m)
  · obtain ⟨m', hs'⟩ | hne' := begins_or_head_ne '-' (skipBlanks s)
    · obtain rfl : w = [] := by
        cases w with
        | nil => rfl
        | cons c w =>
          obtain rfl : c = '-' := (List.cons.inj (hs.symm.trans hs')).1
          cases (List.cons.inj hword).1
      have hread : signReader.run s = .read .neg (skipBlanks m') (some ⟨m, [.kind]⟩) := by
        rw [signReader, run_orElse_of_blocked hrun, run_mark_of_eq _ hs']
        rfl
      have hm : m = '-' :: m' := hs.symm.trans hs'
      refine .inl ⟨_, _, _, hread, ?_, signReader_advances ⟨_, hread⟩, ?_⟩
      · have := length_skipBlanks_le m'
        refine .some ?_
        rw [hm, List.length_cons]
        omega
      · have hwalk := walks_skipBlanks hq s
        rw [hs'] at hwalk
        have hstep : q.step '-' = some q := by
          simp [Cursor.step, hq, operandStep, show isBlank '-' = false from by decide]
        exact (hwalk.trans (.step hstep (.refl q m'))).trans (walks_skipBlanks hq m')
    · refine .inr ⟨w, m, l, ls, hs, hword, hne, hne', ?_⟩
      rw [signReader, run_orElse_of_blocked hrun, run_mark_of_ne _ hne']
      rfl

/-- The operators before an operand leave the cursor where it is. -/
theorem run_signs (hq : q.place = .operator) (fuel : Nat) {s : List Char} (h : s.length < fuel) :
    ∃ ops m p, (manyUpTo signReader fuel).run s = .read ops m (some p) ∧
      signReader.run m = .blocked p ∧ p.rest.length ≤ m.length ∧ q.Walks s q m := by
  induction fuel generalizing s with
  | zero => exact absurd h (Nat.not_lt_zero _)
  | succ fuel ih =>
    rcases run_sign hq s with ⟨op, r, o, hrun, ho, hlen, hwalk⟩ | ⟨_, _, _, _, _, _, _, _, hrun⟩
    · obtain ⟨ops, m, p, hmany, hblocked, hp, hwalk'⟩ := ih (s := r) (by omega)
      refine ⟨op :: ops, m, p, ?_, hblocked, hp, hwalk.trans hwalk'⟩
      rw [run_manyUpTo_of_read hrun hmany, (ho.mono (Nat.le_trans hp hwalk'.length_le)).join?_eq]
    · refine ⟨[], s, _, run_manyUpTo_of_blocked hrun fuel, hrun, ?_, .refl q s⟩
      rw [Obstacle.length_rest_join]
      exact Nat.le_trans (Nat.min_le_right _ _) (length_skipBlanks_le s)

/-! ## Parentheses -/

/-- Where every operator has been tested, only a closing mark takes the cursor on. -/
theorem Cursor.Pause.step_none (h : q.Pause 5 r o) (hc : c ∈ r.head?) (hclose : q.close c = none) :
    q.step c = none := by
  obtain ⟨hstep, hblank⟩ := h.settled c hc
  rw [hstep, operate]
  rcases h.passed c hc with hl | hl | ⟨hl, hcompared⟩
  · have hle := levelOf_le c
    rw [show levelOf c = 6 by omega]
    exact hclose
  · rw [hl, hblank]
    rfl
  · rw [hl, hcompared]
    rfl

/-- A cursor behind an operand is stuck where every operator has been tested and nothing ends. -/
theorem Cursor.Pause.stops (h : q.Pause 5 r o) (hclose : ∀ c ∈ r.head?, q.close c = none)
    (hend : r = [] → q.frames ≠ []) :
    q.Stops r (Obstacle.after o ⟨r, q.closers⟩) := by
  have ho := h.tested.after_eq q.closers
  refine ⟨q, ?_, ?_, ?_⟩
  · rw [ho]
    exact .refl q r
  · rw [ho]
    cases r with
    | nil =>
      have := hend rfl
      show (q.place.complete && q.frames.isEmpty) = false
      rw [List.isEmpty_eq_false_iff.2 this, Bool.and_false]
    | cons c r => exact h.step_none rfl (hclose c rfl)
  · rw [ho, expected_of_complete h.complete]

/-- A cursor behind a closing mark goes over white space. -/
theorem walks_closed_skipBlanks (f : Frame) (outer : List Frame) (s : List Char) :
    (f.closed outer).Walks s (f.closed outer) (skipBlanks s) := by
  obtain ⟨enclosure, compared⟩ := f
  cases enclosure with
  | first => exact walks_skipBlanks rfl s
  | group | second => exact walks_operand_skipBlanks rfl s

/-- The marks that end what is enclosed have the level of closing marks. -/
theorem closer_spec (f : Frame) : levelOf f.closer = 6 := by
  obtain ⟨enclosure, compared⟩ := f
  cases enclosure <;> rfl

/-- What an open parenthesis encloses is read with the mark that ends it, or it is blocked where the
cursor is stuck. -/
theorem run_enclosed {f : Frame} {outer : List Frame} {inner : Reader Expr}
    (h : q.Tracked 5 s (inner.run s)) (hframes : q.frames = f :: outer) (next : Expr → Reader β) :
    (∃ p, (inner >>= fun e => mark f.closer () >>= fun _ => next e).run s = .blocked p ∧
      q.Stops s p) ∨
    ∃ e r o, (inner >>= fun e => mark f.closer () >>= fun _ => next e).run s =
      ((next e).run r).after o ∧ Before r o ∧ q.Walks s (f.closed outer) r ∧ skipBlanks r = r := by
  rw [run_bind]
  generalize inner.run s = out at h
  cases h with
  | blocked hs => exact .inl ⟨_, rfl, hs⟩
  | @doomed e r p c hs hp hc hblank hlevel =>
    have hr : skipBlanks r = r := skipBlanks_eq_self fun d hd => by
      obtain rfl : c = d := Option.some.inj (hc.symm.trans hd)
      exact hblank
    have hmark : (mark f.closer ()).run r = .blocked ⟨r, [.character f.closer]⟩ := by
      rw [run_mark_of_ne () fun d hd hdc => ?_, hr]
      rw [hr] at hd
      obtain rfl : c = d := Option.some.inj (hc.symm.trans hd)
      rw [hdc, closer_spec] at hlevel
      omega
    refine .inl ⟨p, ?_, hs⟩
    have hjoin : p.join ⟨r, [.character f.closer]⟩ = p := Obstacle.join_of_nearer hp
    simp only [run_bind_of_blocked hmark, Outcome.after, Obstacle.after, hjoin]
  | @paused e r o q' hw hf hcomp hp =>
    have hr : skipBlanks r = r := skipBlanks_eq_self fun c hc => (hp.settled c hc).2
    have hframes' : q'.frames = f :: outer := hf.trans hframes
    obtain ⟨m, rfl⟩ | hne := begins_or_head_ne f.closer r
    · have hstep : q'.step f.closer = some (f.closed outer) := by
        rw [(hp.settled _ rfl).1, operate, closer_spec]
        show q'.close f.closer = _
        rw [close, hframes']
        exact if_pos rfl
      have hlen := length_skipBlanks_le m
      refine .inr ⟨e, skipBlanks m, o, ?_, hp.tested.before_of_lt (Nat.lt_succ_of_le hlen),
        hw.trans (.step hstep (walks_closed_skipBlanks f outer m)), skipBlanks_skipBlanks m⟩
      simp only [run_bind_of_read (run_mark_of_eq () hr), Outcome.after_none]
    · have hmark : (mark f.closer ()).run r = .blocked ⟨r, [.character f.closer]⟩ := by
        rw [run_mark_of_ne () (by rwa [hr]), hr]
      have hclosers : q'.closers = [.character f.closer] := by rw [closers, hframes']
      have hstops : q'.Stops r (Obstacle.after o ⟨r, q'.closers⟩) :=
        hp.stops (fun c hc => by rw [close, hframes']; exact if_neg (hne c hc))
          fun _ => by rw [hframes']; exact List.cons_ne_nil _ _
      rw [hclosers] at hstops
      refine .inl ⟨_, ?_, hstops.of_walks hw⟩
      simp only [run_bind_of_blocked hmark, Outcome.after]

/-! ## Where an operand ends -/

/-- Behind a token that white space ends, the cursor pauses behind the white space. -/
theorem tracked_token {v : α} (hw : q.Walks s q' t) (hf : q'.frames = q.frames)
    (hcompared : q'.compared = q.compared) (hcomplete : q'.place.complete = true)
    (hstep : ∀ c ∈ t.head?, q'.step c = q'.operate c) (htested : Tested t o (inside q'.place)) :
    q.Tracked 0 s (.read v (skipBlanks t) o) := by
  have hpassed : ∀ (q : Cursor), ∀ c ∈ (skipBlanks t).head?,
      0 < levelOf c ∨ levelOf c = 0 ∨ levelOf c = 3 ∧ q.compared = true := fun _ c _ => by omega
  obtain ⟨c, t', rfl, hb⟩ | hnot := begins_or_head_not isBlank t
  · have hskip : skipBlanks (c :: t') = skipBlanks t' := List.dropWhile_cons_of_pos hb
    have hc : q'.step c = some { q' with place := .operand } :=
      (hstep c rfl).trans (operate_blank q' hb)
    have hlen := length_skipBlanks_le t'
    have hbefore : Before (skipBlanks t') o := htested.before_of_lt (Nat.lt_succ_of_le hlen)
    rw [hskip] at hpassed ⊢
    refine .paused (hw.trans (.step hc (walks_operand_skipBlanks rfl t'))) hf
      (fun _ => hcompared) ⟨rfl, fun d hd => ⟨rfl, isBlank_head_skipBlanks hd⟩, hpassed _, ?_⟩
    exact .before hbefore
  · rw [skipBlanks_eq_self hnot] at hpassed ⊢
    exact .paused hw hf (fun _ => hcompared)
      ⟨hcomplete, fun c hc => ⟨hstep c hc, hnot c hc⟩, hpassed _, htested⟩

/-! ## Alternatives that begin otherwise -/

section
variable {inner : Reader Expr}

/-- A number is blocked at a character that is neither a digit nor a point. -/
theorem run_number_of_not (h : ∀ c ∈ (skipBlanks m).head?, c.isDigit = false ∧ c ≠ '.') :
    number.run m = .blocked ⟨skipBlanks m, [.kind, .character '.']⟩ := by
  rw [number, run_token, run_decimal_of_not h]

/-- A group is blocked at a character that does not open one. -/
theorem run_group_of_not (h : ∀ c ∈ (skipBlanks m).head?, c ≠ '(') :
    (group inner).run m = .blocked ⟨skipBlanks m, [.character '(']⟩ :=
  run_bind_of_blocked (run_mark_of_ne () h)

/-- Neither a call nor a reference begins where no letter stands. -/
theorem run_word_of_not (h : ∀ c ∈ (skipBlanks m).head?, isLetter c = false) :
    (call inner <|> reference).run m = .blocked ⟨skipBlanks m, [.kind]⟩ := by
  have hm : ∀ c ∈ (skipBlanks m).head?, c.toLower ≠ 'm' := fun c hc hm => by
    have := h c hc
    rw [isLetter_of_toLower (by rw [hm]; decide)] at this
    cases this
  have hname : functionName.run m = .blocked ⟨skipBlanks m, [.kind]⟩ := by
    rw [functionName, run_orElse_of_blocked (run_keyword_of_head rfl hm _),
      run_keyword_of_head rfl hm]
    simp [Outcome.after, Obstacle.after, merge]
  have hreference : reference.run m = .blocked ⟨skipBlanks m, [.kind]⟩ := by
    rw [reference, run_token, run_cellName_of_not h]
  have hcall : (call inner).run m = .blocked ⟨skipBlanks m, [.kind]⟩ := run_bind_of_blocked hname
  rw [run_orElse_of_blocked hcall, hreference]
  simp [Outcome.after, Obstacle.after, merge]

/-- Where an operator before an operand is missing, the word `not` is missed at the first letter of
it that is not there. -/
theorem sign_missed (h : signReader.run m = .blocked p) :
    ∃ w m' l ls, skipBlanks m = w ++ m' ∧ ['n', 'o', 't'] = w.map Char.toLower ++ l :: ls ∧
      (∀ c ∈ m'.head?, c.toLower ≠ l) ∧ (∀ c ∈ (skipBlanks m).head?, c ≠ '-') ∧
      p = Obstacle.join ⟨m', [.kind]⟩ ⟨skipBlanks m, [.character '-']⟩ := by
  rcases run_sign (q := .start) rfl m with
    ⟨op, r, o, hrun, -⟩ | ⟨w, m', l, ls, hs, hword, hne, hminus, hrun⟩
  · rw [hrun] at h
    cases h
  · rw [hrun] at h
    cases h
    exact ⟨w, m', l, ls, hs, hword, hne, hminus, rfl⟩

/-- At a character that does not begin `not`, both signs are missed at the same place. -/
theorem sign_missed_at_head (h : signReader.run m = .blocked p)
    (hn : ∀ c ∈ (skipBlanks m).head?, c.toLower ≠ 'n') :
    p = ⟨skipBlanks m, [.kind, .character '-']⟩ := by
  obtain ⟨w, m', l, ls, hs, hword, -, -, rfl⟩ := sign_missed h
  cases w with
  | nil =>
    rw [List.nil_append] at hs
    rw [hs, Obstacle.join_mk]
    rfl
  | cons c w => exact absurd (List.cons.inj hword).1.symm (hn c (by rw [hs]; rfl))

/-! ## Operands that do not begin with a letter -/

/-- An operand that is missed is missed by each alternative. -/
theorem run_atom_of_blocked {o₁ o₂ o₃ : Obstacle} (h₁ : number.run m = .blocked o₁)
    (h₂ : (group inner).run m = .blocked o₂) (h₃ : (call inner <|> reference).run m = .blocked o₃)
    (p : Obstacle) :
    ((atom inner).run m).after (some p) = .blocked (p.join (o₁.join (o₂.join o₃))) := by
  rw [atom, run_orElse_of_blocked h₁, run_orElse_of_blocked h₂, h₃]
  rfl

/-- Where nothing that an operand begins with stands, everything is missed at once. -/
theorem atom_tracked_of_not (hq : q.place = .operator) (hp : signReader.run m = .blocked p)
    (hdigit : ∀ c ∈ (skipBlanks m).head?, c.isDigit = false ∧ c ≠ '.')
    (hpar : ∀ c ∈ (skipBlanks m).head?, c ≠ '(')
    (hletter : ∀ c ∈ (skipBlanks m).head?, isLetter c = false) :
    q.Tracked 0 m (((atom inner).run m).after (some p)) := by
  have hn : ∀ c ∈ (skipBlanks m).head?, c.toLower ≠ 'n' := fun c hc hn => by
    have := hletter c hc
    rw [isLetter_of_toLower (by rw [hn]; decide)] at this
    cases this
  obtain ⟨-, -, -, -, -, -, -, hminus, -⟩ := sign_missed hp
  rw [sign_missed_at_head hp hn, run_atom_of_blocked (run_number_of_not hdigit)
    (run_group_of_not hpar) (run_word_of_not hletter)]
  refine .blocked (.of_walks (walks_skipBlanks hq m) ⟨q, ?_, ?_, ?_⟩)
  · simp only [Obstacle.join_mk]
    exact .refl q _
  · simp only [Obstacle.join_mk]
    cases hs : skipBlanks m with
    | nil =>
      show (q.place.complete && q.frames.isEmpty) = false
      rw [hq]
      rfl
    | cons c r =>
      rw [hs] at hdigit hpar hletter hminus
      have hb : isBlank c = false := isBlank_head_skipBlanks (s := m) (by rw [hs]; rfl)
      have := hdigit c rfl
      simp [Stuck, Cursor.step, hq, operandStep, hb, hminus c rfl, hpar c rfl, this, hletter c rfl]
  · simp only [Obstacle.join_mk, expected, hq]
    rfl

/-- A number that is read ends where the cursor stands behind it. -/
theorem atom_tracked_of_decimal {d : Decimal} (q' : Cursor) (hp : signReader.run m = .blocked p)
    (hn : ∀ c ∈ (skipBlanks m).head?, c.toLower ≠ 'n')
    (hrun : decimal.run (skipBlanks m) = .read d t (some ⟨t, inside q'.place⟩))
    (hlen : t.length < (skipBlanks m).length) (hw : q.Walks m q' t) (hf : q'.frames = q.frames)
    (hcompared : q'.compared = q.compared) (hcomplete : q'.place.complete = true)
    (hstep : ∀ c ∈ t.head?, q'.step c = q'.operate c) :
    q.Tracked 0 m (((atom inner).run m).after (some p)) := by
  have hnumber : number.run m =
      .read (.number d.toFloat) (skipBlanks t) (some ⟨t, inside q'.place⟩) := by
    rw [number, run_token, hrun]
  have hbefore : Before t (some p) := by
    rw [sign_missed_at_head hp hn]
    exact .some hlen
  rw [atom, run_orElse_of_read hnumber, Outcome.after]
  exact tracked_token hw hf hcompared hcomplete hstep (Tested.here.after hbefore)

/-- Neither a digit nor a point begins `not`. -/
theorem toLower_ne_of_digit_or_point (hc : c.isDigit = true ∨ c = '.') : c.toLower ≠ 'n' := by
  intro hn
  rcases eq_or_eq_of_toLower hn with rfl | rfl <;> revert hc <;> decide

/-- A cursor in the digits before the point goes over all of them. -/
theorem walks_whole (q : Cursor) (x : List Char) :
    Walks { q with place := .whole } x { q with place := .whole } (x.dropWhile Char.isDigit) :=
  walks_dropWhile (fun c hc => by simp [Cursor.step, hc]) x

/-- A cursor in the digits behind the point goes over all of them. -/
theorem walks_fraction (q : Cursor) (x : List Char) :
    Walks { q with place := .fraction } x { q with place := .fraction }
      (x.dropWhile Char.isDigit) :=
  walks_dropWhile (fun c hc => by simp [Cursor.step, hc]) x

/-- Behind the digits of a fraction the cursor steps as behind an operand. -/
theorem step_fraction (q : Cursor) (x : List Char) : ∀ d ∈ (x.dropWhile Char.isDigit).head?,
    Cursor.step { q with place := .fraction } d =
      Cursor.operate { q with place := .fraction } d := by
  intro d hd
  simp [Cursor.step, not_of_head_dropWhile hd]

/-- A number that begins with a digit. -/
theorem atom_tracked_of_digit {x : List Char} (hq : q.place = .operator)
    (hp : signReader.run m = .blocked p) (hs : skipBlanks m = c :: x) (hc : c.isDigit = true) :
    q.Tracked 0 m (((atom inner).run m).after (some p)) := by
  have hn : ∀ d ∈ (skipBlanks m).head?, d.toLower ≠ 'n' := by
    simpa [hs] using toLower_ne_of_digit_or_point (.inl hc)
  have hstep : q.step c = some { q with place := .whole } := by
    have hb := not_isBlank_of_isDigit hc
    have hne : c ≠ '-' ∧ c ≠ '(' ∧ c ≠ '.' := by
      refine ⟨?_, ?_, ?_⟩ <;> (rintro rfl; revert hc; decide)
    simp [Cursor.step, hq, operandStep, hb, hc, hne]
  have hwalk : q.Walks m { q with place := .whole } (x.dropWhile Char.isDigit) :=
    (walks_skipBlanks hq m).trans (hs ▸ .step hstep (walks_whole q x))
  have hdrop : (c :: x).dropWhile Char.isDigit = x.dropWhile Char.isDigit :=
    List.dropWhile_cons_of_pos hc
  have hlen : (x.dropWhile Char.isDigit).length ≤ x.length := (List.dropWhile_suffix _).length_le
  obtain ⟨f, hf⟩ | hnot := begins_or_head_ne '.' (x.dropWhile Char.isDigit)
  · have hdot : Cursor.step { q with place := .whole } '.' =
        some { q with place := .fraction } := by
      simp [Cursor.step, show '.'.isDigit = false from by decide]
    have hrun := run_decimal_pointed hc (hdrop.trans hf)
    rw [← hs] at hrun
    rw [hf] at hwalk hlen
    refine atom_tracked_of_decimal { q with place := .fraction } hp hn hrun ?_
      (hwalk.trans (.step hdot (walks_fraction q f))) rfl rfl rfl (step_fraction q f)
    have hlen' : (f.dropWhile Char.isDigit).length ≤ f.length :=
      (List.dropWhile_suffix _).length_le
    simp only [hs, List.length_cons] at hlen ⊢
    omega
  · have hrun := run_decimal_whole hc hdrop hnot
    rw [← hs] at hrun
    refine atom_tracked_of_decimal { q with place := .whole } hp hn hrun ?_ hwalk rfl rfl rfl
      fun d hd => ?_
    · rw [hs]
      exact Nat.lt_succ_of_le hlen
    · simp [Cursor.step, not_of_head_dropWhile hd, hnot d hd]

/-- A number that begins with its point, or a point that no digit follows. -/
theorem atom_tracked_of_point {x : List Char} (hq : q.place = .operator)
    (hp : signReader.run m = .blocked p) (hs : skipBlanks m = '.' :: x) :
    q.Tracked 0 m (((atom inner).run m).after (some p)) := by
  have hn : ∀ d ∈ (skipBlanks m).head?, d.toLower ≠ 'n' := by
    simp [hs]
  have hstep : q.step '.' = some { q with place := .point } := by
    simp [Cursor.step, hq, operandStep, show isBlank '.' = false from by decide]
  have hwalk : q.Walks m { q with place := .point } x :=
    (walks_skipBlanks hq m).trans (hs ▸ .step hstep (.refl _ x))
  obtain ⟨d, f, rfl, hd⟩ | hnot := begins_or_head_not Char.isDigit x
  · have hstep' : Cursor.step { q with place := .point } d =
        some { q with place := .fraction } := by
      simp [Cursor.step, hd]
    have hrun := run_decimal_fraction hd f
    rw [← hs, List.dropWhile_cons_of_pos hd] at hrun
    refine atom_tracked_of_decimal { q with place := .fraction } hp hn hrun ?_
      (hwalk.trans (.step hstep' (walks_fraction q f))) rfl rfl rfl (step_fraction q f)
    have hlen : (f.dropWhile Char.isDigit).length ≤ f.length := (List.dropWhile_suffix _).length_le
    simp only [hs, List.length_cons]
    omega
  · have hnumber : number.run m = .blocked ⟨x, [.kind]⟩ := by
      rw [number, run_token, hs, run_decimal_point hnot]
    have hpar : ∀ d ∈ (skipBlanks m).head?, d ≠ '(' := by simp [hs]
    have hletter : ∀ d ∈ (skipBlanks m).head?, isLetter d = false := by
      simpa [hs] using show isLetter '.' = false by decide
    have hx : x.length < (skipBlanks m).length := by simp [hs]
    rw [run_atom_of_blocked hnumber (run_group_of_not hpar) (run_word_of_not hletter),
      sign_missed_at_head hp hn, Obstacle.join_mk,
      Obstacle.join_of_nearer (o := ⟨x, [.kind]⟩) hx, Obstacle.join_of_further hx]
    refine .blocked ⟨{ q with place := .point }, hwalk, ?_, rfl⟩
    cases x with
    | nil => rfl
    | cons d x =>
      show Cursor.step { q with place := .point } d = none
      simp [Cursor.step, hnot d rfl]

/-! ## Groups -/

/-- An expression in parentheses. -/
theorem atom_tracked_of_group {x : List Char} (hinner : Tracks 5 n inner) (hn : m.length ≤ n)
    (hq : q.place = .operator) (hp : signReader.run m = .blocked p)
    (hs : skipBlanks m = '(' :: x) : q.Tracked 0 m (((atom inner).run m).after (some p)) := by
  have hsign : p = ⟨skipBlanks m, [.kind, .character '-']⟩ := sign_missed_at_head hp (by simp [hs])
  have hstep : q.step '(' = some (q.enter .group) := by
    simp [Cursor.step, hq, operandStep, show isBlank '(' = false from by decide]
  have hwalk : q.Walks m (q.enter .group) (skipBlanks x) :=
    (walks_skipBlanks hq m).trans (hs ▸ .step hstep (walks_skipBlanks rfl x))
  have hlen : (skipBlanks x).length < (skipBlanks m).length := by
    rw [hs]
    exact Nat.lt_succ_of_le (length_skipBlanks_le x)
  have hm := length_skipBlanks_le m
  have htracked := hinner (Nat.lt_of_lt_of_le hlen (Nat.le_trans hm hn)) rfl
    (fun _ => rfl : 3 ≤ 5 → (q.enter .group).compared = false)
  have hnumber : number.run m = .blocked ⟨skipBlanks m, [.kind, .character '.']⟩ :=
    run_number_of_not (by simp [hs])
  have hopen : (mark '(' ()).run m = .read () (skipBlanks x) none := run_mark_of_eq () hs
  rcases run_enclosed (f := ⟨.group, q.compared⟩) htracked rfl (fun e => pure e) with
    ⟨o, hrun, hstops⟩ | ⟨e, r, o, hrun, ho, hwalk', hr⟩
  · have hgroup : (group inner).run m = .blocked o := by
      rw [group, run_bind_of_read hopen, Outcome.after_none]
      exact hrun
    have hword : (call inner <|> reference).run m = .blocked ⟨skipBlanks m, [.kind]⟩ :=
      run_word_of_not (by simpa [hs] using show isLetter '(' = false by decide)
    have ho : o.rest.length < (skipBlanks m).length := Nat.lt_of_le_of_lt hstops.length_le hlen
    rw [run_atom_of_blocked hnumber hgroup hword, hsign,
      Obstacle.join_of_nearer (o := o) ho, Obstacle.join_of_further (p := o) ho,
      Obstacle.join_of_further ho]
    exact .blocked (hstops.of_walks hwalk)
  · have hgroup : (group inner).run m = .read e r o := by
      rw [group, run_bind_of_read hopen, Outcome.after_none]
      exact hrun
    have hlen' : r.length < (skipBlanks m).length := Nat.lt_of_le_of_lt hwalk'.length_le hlen
    have hbefore : Before r (some p) := by
      rw [hsign]
      exact .some hlen'
    rw [atom, run_orElse_of_blocked hnumber, run_orElse_of_read hgroup]
    have htoken : q.Tracked 0 m (Outcome.read e (skipBlanks r)
        (Obstacle.join? (some p)
          (Obstacle.join? (some ⟨skipBlanks m, [.kind, .character '.']⟩) o))) :=
      tracked_token (hwalk.trans hwalk') rfl rfl rfl (fun _ _ => rfl)
        (.before (hbefore.join? (.join? (.some hlen') ho)))
    rwa [hr] at htoken

end

end FormulaSheet
