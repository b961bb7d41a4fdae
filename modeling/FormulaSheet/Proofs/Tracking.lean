import FormulaSheet.Proofs.Cursor
import FormulaSheet.Proofs.Phrases
import Mathlib.Data.List.TakeWhile

/-!
# Cursors track readers

`Tracked k q s r` relates what a reader of level `k` makes of the text `s` to what becomes of a
cursor `q` on the same text. A reader that is blocked has met its obstacle where the cursor is
stuck, and expects there what the cursor expects. A reader that reads either gave its place back to
a phrase that nothing can follow, with the obstacle further on where the cursor is stuck, or it
stands with the cursor behind an operand, where it has tested the operators up to its level.

Obstacles before the place where a reader starts do not matter (`Tracked.after`), so the readers of
a sequence can be taken one by one.
-/

namespace FormulaSheet

variable {α β : Type} {s m r : List Char} {c : Char} {k : Nat}

/-! ## Where an obstacle is -/

/-- The obstacle, if there is one, is nearer than the place. -/
def Before (r : List Char) (o : Option Obstacle) : Prop := ∀ p ∈ o, r.length < p.rest.length

/-- The expectations that an obstacle holds at a place, beyond which it does not lie. -/
inductive Tested (r : List Char) : Option Obstacle → List Expectation → Prop
  | before {o : Option Obstacle} : Before r o → Tested r o []
  | here {es : List Expectation} : Tested r (some ⟨r, es⟩) es

namespace Before

variable {o o' : Option Obstacle} {p : Obstacle}

/-- No obstacle is nearer than any place. -/
theorem none : Before r none := fun _ h => by cases h

/-- An obstacle with more text left is nearer. -/
theorem some (h : r.length < p.rest.length) : Before r (some p) := fun _ hp => by
  cases hp
  exact h

/-- What is nearer than a place is nearer than the places behind it. -/
theorem mono (h : Before s o) (hr : r.length ≤ s.length) : Before r o :=
  fun p hp => Nat.lt_of_le_of_lt hr (h p hp)

/-- An obstacle that is not nearer counts alone. -/
theorem after_eq (h : Before p.rest o) : p.after o = p := by
  cases o with
  | none => rfl
  | some o => exact Obstacle.join_of_further (h o rfl)

/-- An obstacle that is not nearer counts alone, whether there was one before or not. -/
theorem join?_eq (h : Before p.rest o) : Obstacle.join? o (.some p) = .some p :=
  congrArg Option.some h.after_eq

/-- Of two obstacles that are nearer either stays nearer. -/
theorem join? (h : Before r o) (h' : Before r o') : Before r (Obstacle.join? o o') := by
  rcases o with - | o
  · rwa [Obstacle.none_join?]
  rcases o' with - | o'
  · exact h
  · have ho := h o rfl
    have ho' := h' o' rfl
    rw [Obstacle.join?_some]
    refine .some ?_
    rw [Obstacle.length_rest_join]
    exact Nat.lt_min.2 ⟨ho, ho'⟩

end Before

namespace Tested

variable {o o' : Option Obstacle} {p : Obstacle} {es fs : List Expectation}

/-- What two parts of a run have tested at a place comes together in order. -/
theorem join? (h : Tested r o es) (h' : Tested r o' fs) :
    Tested r (Obstacle.join? o o') (merge es fs) := by
  cases h' with
  | here =>
    cases h with
    | before h =>
      rw [h.join?_eq, nil_merge]
      exact .here
    | here =>
      rw [Obstacle.join?_some, Obstacle.join_mk]
      exact .here
  | before h' =>
    rw [merge_nil]
    cases h with
    | before h => exact .before (h.join? h')
    | here =>
      cases o' with
      | none => exact .here
      | some p =>
        rw [Obstacle.join?_some, Obstacle.join_of_nearer (h' p rfl)]
        exact .here

/-- Earlier obstacles that are nearer do not matter. -/
theorem after (h : Tested r o' es) (ho : Before r o) : Tested r (Obstacle.join? o o') es := by
  have := (Tested.before ho).join? h
  rwa [nil_merge] at this

/-- A blocked test at a place comes after what has been tested there. -/
theorem after_eq (h : Tested r o es) (fs : List Expectation) :
    Obstacle.after o ⟨r, fs⟩ = ⟨r, merge es fs⟩ := by
  cases h with
  | before h => rw [h.after_eq, nil_merge]
  | here => exact Obstacle.join_of_same rfl

/-- What has been tested at a place is nearer than the places behind it. -/
theorem before_of_lt (h : Tested s o es) (hr : r.length < s.length) : Before r o := by
  cases h with
  | before h => exact h.mono (Nat.le_of_lt hr)
  | here => exact .some hr

end Tested

/-! ## Where a cursor stops -/

namespace Cursor

variable {q q' q'' : Cursor}

/-- Neither can the text go on from the cursor as it does nor may it end there. -/
def Stuck (q : Cursor) : List Char → Prop
  | [] => q.accepting = false
  | c :: _ => q.step c = none

/-- The obstacle lies where the cursor is stuck, and holds what the cursor expects. -/
def Stops (q : Cursor) (s : List Char) (o : Obstacle) : Prop :=
  ∃ q', q.Walks s q' o.rest ∧ q'.Stuck o.rest ∧ o.expected = q'.expected

/-- A cursor that goes on to where another is stuck is stuck there. -/
theorem Stops.of_walks {o : Obstacle} (hw : q.Walks s q' m) (h : q'.Stops m o) : q.Stops s o := by
  obtain ⟨q'', hw', hstuck, he⟩ := h
  exact ⟨q'', hw.trans hw', hstuck, he⟩

/-- The place where a cursor is stuck lies in the text. -/
theorem Stops.length_le {o : Obstacle} (h : q.Stops s o) : o.rest.length ≤ s.length := by
  obtain ⟨q', hw, -, -⟩ := h
  exact hw.length_le

/-- The cursor stands behind an operand, to which no further character belongs, and the operators up
to a level have been tested there. -/
structure Pause (k : Nat) (q : Cursor) (r : List Char) (o : Option Obstacle) : Prop where
  complete : q.place.complete = true
  settled : ∀ c ∈ r.head?, q.step c = q.operate c ∧ isBlank c = false
  passed : ∀ c ∈ r.head?, k < levelOf c ∨ levelOf c = 0 ∨ levelOf c = 3 ∧ q.compared = true
  tested : Tested r o (q.labels k)

/-- What becomes of a cursor on the text that a reader of a level reads or is blocked at. -/
inductive Tracked (k : Nat) (q : Cursor) (s : List Char) : Outcome α → Prop
  | blocked {o : Obstacle} : q.Stops s o → Tracked k q s (.blocked o)
  | doomed {v : α} {r : List Char} {o : Obstacle} {c : Char} : q.Stops s o →
      o.rest.length < r.length → c ∈ r.head? → isBlank c = false → levelOf c ≤ k →
      Tracked k q s (.read v r (some o))
  | paused {v : α} {r : List Char} {o : Option Obstacle} {q' : Cursor} : q.Walks s q' r →
      q'.frames = q.frames → (k ≤ 2 → q'.compared = q.compared) → Pause k q' r o →
      Tracked k q s (.read v r o)

namespace Tracked

/-- Obstacles before the place where a reader starts do not matter. -/
theorem after {out : Outcome α} {o : Option Obstacle} (h : Tracked k q s out) (ho : Before s o) :
    Tracked k q s (out.after o) := by
  cases h with
  | @blocked p hs =>
    rw [Outcome.after, (ho.mono hs.length_le).after_eq]
    exact .blocked hs
  | @doomed v r p c hs hr hc hb hk =>
    rw [Outcome.after, (ho.mono hs.length_le).join?_eq]
    exact .doomed hs hr hc hb hk
  | @paused v r p q' hw hf hcomp hp =>
    exact .paused hw hf hcomp ⟨hp.complete, hp.settled, hp.passed,
      hp.tested.after (ho.mono hw.length_le)⟩

/-- What is read first may be on the way of the cursor. -/
theorem of_walks {out : Outcome α} (hw : q.Walks s q' m) (hf : q'.frames = q.frames)
    (hcomp : k ≤ 2 → q'.compared = q.compared) (h : Tracked k q' m out) : Tracked k q s out := by
  cases h with
  | blocked hs => exact .blocked (hs.of_walks hw)
  | doomed hs hr hc hb hk => exact .doomed (hs.of_walks hw) hr hc hb hk
  | paused hw' hf' hcomp' hp =>
    exact .paused (hw.trans hw') (hf'.trans hf) (fun hk => (hcomp' hk).trans (hcomp hk)) hp

/-- The value that is read does not matter. -/
theorem of_value {v : α} {w : β} {o : Option Obstacle} (h : Tracked k q s (.read v r o)) :
    Tracked k q s (.read w r o) := by
  cases h with
  | doomed hs hr hc hb hk => exact .doomed hs hr hc hb hk
  | paused hw hf hcomp hp => exact .paused hw hf hcomp hp

/-- What is made of the value that is read does not matter. -/
theorem bind_pure {p : Reader α} {o : Option Obstacle} (f : α → β)
    (h : Tracked k q s ((p.run m).after o)) :
    Tracked k q s (((p >>= fun v => pure (f v)).run m).after o) := by
  rw [Reader.run_bind]
  cases hp : p.run m with
  | read v r o' =>
    rw [hp] at h
    exact h.of_value
  | blocked o' =>
    rw [hp] at h
    cases h with
    | blocked hs => exact .blocked hs

end Tracked

/-- From where an operand is to begin, the cursor tracks the reader on every text shorter than `n`.
A reader that includes comparisons begins where the comparison has no operator yet. -/
def Tracks (k n : Nat) (p : Reader α) : Prop :=
  ∀ ⦃q : Cursor⦄ ⦃s : List Char⦄, s.length < n → q.place = .operator →
    (3 ≤ k → q.compared = false) → q.Tracked k s (p.run s)

/-! ## Operators -/

/-- The cursor behind an operator of a level. -/
def afterOperator (q : Cursor) (k : Nat) : Cursor :=
  ⟨.operator, if k ≤ 2 then q.compared else k = 3, q.frames⟩

/-- Behind a connective no comparison has been made yet. -/
theorem compared_afterOperator (q : Cursor) (h : 3 ≤ k) :
    (q.afterOperator (k + 1)).compared = false := by
  show (if k + 1 ≤ 2 then q.compared else decide (k + 1 = 3)) = false
  rw [if_neg (by omega)]
  exact decide_eq_false (by omega)

/-- A cursor that characters of a kind do not move gets over them. -/
theorem walks_dropWhile {f : Char → Bool} (h : ∀ c, f c = true → q.step c = some q)
    (s : List Char) : q.Walks s q (s.dropWhile f) := by
  have hw := Walks.of_stays (u := s.takeWhile f) (fun c hc => h c (List.mem_takeWhile_imp hc))
    (s.dropWhile f)
  rwa [List.takeWhile_append_dropWhile] at hw

/-- White space before an operand does not move a cursor. -/
theorem walks_skipBlanks (hq : q.place = .operator) (s : List Char) :
    q.Walks s q (skipBlanks s) :=
  walks_dropWhile (f := isBlank) (fun c hb => by simp [step, hq, operandStep, hb]) s

/-- White space behind an operand ends it. -/
theorem operate_blank (q : Cursor) (hb : isBlank c = true) :
    q.operate c = some { q with place := .operand } := by
  rw [operate, levelOf_of_isBlank hb, hb]
  rfl

/-- White space behind an operand that cannot be longer does not move a cursor. -/
theorem walks_operand_skipBlanks (hq : q.place = .operand) (s : List Char) :
    q.Walks s q (skipBlanks s) := by
  refine walks_dropWhile (f := isBlank) (fun c hb => ?_) s
  obtain ⟨place, compared, frames⟩ := q
  cases hq
  exact operate_blank _ hb

end Cursor

open Reader Grammar Cursor

variable {q q' q'' : Cursor} {o : Option Obstacle}

/-- The characters of a level are those that begin its operators. -/
theorem leading_level : ∀ c ∈ leading,
    (levelOf c = 1 → c = '*' ∨ c = '/') ∧ (levelOf c = 2 → c = '+' ∨ c = '-') ∧
    (levelOf c = 3 → c = '=' ∨ c = '<' ∨ c = '>') ∧ (levelOf c = 4 → c.toLower = 'a') ∧
    (levelOf c = 5 → c.toLower = 'o') ∧ (levelOf c = 6 → c = ',' ∨ c = ')') :=
  List.all_iff_forall_prop.1 (by decide)

/-- A keyword is blocked at a character that is not its first letter. -/
theorem run_keyword_of_head {word : String} {l : Char} {ls : List Char}
    (hword : word.toList = l :: ls) (h : ∀ c ∈ (skipBlanks s).head?, c.toLower ≠ l) (v : α) :
    (keyword word v).run s = .blocked ⟨skipBlanks s, [.kind]⟩ := by
  rw [keyword, run_token, hword]
  cases hs : skipBlanks s with
  | nil => rfl
  | cons c r => rw [run_letters_cons, if_neg (h c (by rw [hs]; rfl))]

/-- Where no operator of the rule begins, its reader is blocked at once. -/
theorem run_operator_of_ne {rule : Rule} (hrule : 0 < rule.level) {b : Bool}
    (hb : rule = .comparison → b = false)
    (h : ∀ c ∈ r.head?, isBlank c = false ∧ levelOf c ≠ rule.level) :
    rule.operator.run r = .blocked ⟨r, operatorLabels b rule.level⟩ := by
  have hr : skipBlanks r = r := skipBlanks_eq_self fun c hc => (h c hc).1
  have hmark : ∀ (c : Char) (v : BinaryOp), levelOf c = rule.level →
      (mark c v).run r = .blocked ⟨r, [.character c]⟩ := by
    intro c v hc
    rw [run_mark_of_ne v fun d hd hdc => ?_, hr]
    rw [hr] at hd
    exact (h d hd).2 (hdc ▸ hc)
  cases rule with
  | atom | signed => cases hrule
  | product =>
    rw [Rule.operator, run_orElse_of_blocked (hmark _ _ rfl), hmark _ _ rfl]
    simp [Outcome.after, Obstacle.after, operatorLabels, Rule.level, merge]
  | sum =>
    rw [Rule.operator, run_orElse_of_blocked (hmark _ _ rfl), hmark _ _ rfl]
    simp [Outcome.after, Obstacle.after, operatorLabels, Rule.level, merge]
  | comparison =>
    rw [Rule.operator, run_orElse_of_blocked (hmark _ _ rfl),
      run_orElse_of_blocked (hmark _ _ rfl), hmark _ _ rfl, hb rfl]
    simp [Outcome.after, Obstacle.after, operatorLabels, Rule.level, merge]
  | conjunction =>
    rw [Rule.operator, run_keyword_of_head rfl (fun c hc ha => ?_) _, hr]
    · rfl
    · rw [hr] at hc
      exact (h c hc).2 (levelOf_of_toLower.1 ha)
  | disjunction =>
    rw [Rule.operator, run_keyword_of_head rfl (fun c hc ho => ?_) _, hr]
    · rfl
    · rw [hr] at hc
      exact (h c hc).2 (levelOf_of_toLower.2 ho)

/-- The letters of a word, and nothing else, lead from one cursor to another. -/
inductive Cursor.Spells : Cursor → List Char → Cursor → Prop
  | nil {q : Cursor} : Spells q [] q
  | cons {q q' q'' : Cursor} {l : Char} {word : List Char} :
      (∀ c, q.step c = if c.toLower = l then some q' else none) → q.expected = [.kind] →
      q.accepting = false → Spells q' word q'' → Spells q (l :: word) q''

/-- A cursor inside a word and the reader of the word's letters stop at the same character. -/
theorem Cursor.Spells.run_letters {word : List Char} (h : q.Spells word q') (s : List Char) :
    (∃ p, (letters word).run s = .blocked p ∧ q.Stops s p) ∨
      ∃ m, (letters word).run s = .read () m none ∧ q.Walks s q' m := by
  induction h generalizing s with
  | nil => exact .inr ⟨s, rfl, .refl _ s⟩
  | @cons q q' q'' l word hstep hexpected haccepting _ ih =>
    cases s with
    | nil =>
      exact .inl ⟨⟨[], [.kind]⟩, run_letters_cons_nil l word, q, .refl q [], haccepting,
        hexpected.symm⟩
    | cons c s =>
      rw [run_letters_cons]
      by_cases hc : c.toLower = l
      · have hq : q.step c = some q' := by rw [hstep, if_pos hc]
        rw [if_pos hc]
        rcases ih s with ⟨p, hp, hs⟩ | ⟨m, hm, hw⟩
        · exact .inl ⟨p, hp, hs.of_walks (.step hq (.refl q' s))⟩
        · exact .inr ⟨m, hm, .step hq hw⟩
      · have hq : q.step c = none := by rw [hstep, if_neg hc]
        rw [if_neg hc]
        exact .inl ⟨⟨c :: s, [.kind]⟩, rfl, q, .refl q _, hq, hexpected.symm⟩

/-- A mark is read off a text that begins with it. -/
theorem run_mark_cons (hc : isBlank c = false) (v : α) :
    (mark c v).run (c :: r) = .read v (skipBlanks r) none :=
  run_mark_of_eq v (skipBlanks_eq_self (by simpa using hc))

/-- A mark is blocked at a text that begins with another character. -/
theorem run_mark_cons_of_ne {d : Char} (hc : isBlank c = false) (hd : c ≠ d) (v : α) :
    (mark d v).run (c :: r) = .blocked ⟨c :: r, [.character d]⟩ := by
  have hr : skipBlanks (c :: r) = c :: r := skipBlanks_eq_self (by simpa using hc)
  rw [run_mark_of_ne v (by simpa [hr] using hd), hr]

/-- A choice whose first part is blocked at once reads what its second part reads, and has met
nothing further on. -/
theorem run_orElse_of_here {p p' : Reader α} {es : List Expectation} {v : α} {o : Option Obstacle}
    (h : p.run (c :: r) = .blocked ⟨c :: r, es⟩) (h' : p'.run (c :: r) = .read v m o)
    (ho : Before r o) : ∃ o', (p <|> p').run (c :: r) = .read v m o' ∧ Before r o' :=
  ⟨_, by rw [run_orElse_of_blocked h, h']; rfl, (Before.some (Nat.lt_succ_self _)).join? ho⟩

/-- What the reader of a rule's operators makes of a mark of the rule's level. -/
theorem run_operator_of_mark {rule : Rule} (hc : levelOf c = rule.level)
    (hrule : rule ∈ [Rule.product, .sum, .comparison]) :
    ∃ op o, rule.operator.run (c :: r) = .read op (skipBlanks r) o ∧ Before r o := by
  have hlevel : ∀ rule ∈ [Rule.product, .sum, .comparison], 0 < rule.level := by decide
  have hmem : c ∈ leading := mem_leading (hc ▸ hlevel rule hrule)
  obtain ⟨h1, h2, h3, -, -, -⟩ := leading_level c hmem
  have hb : isBlank c = false := (leading_spec c hmem).1
  cases rule with
  | atom | signed | conjunction | disjunction => simp at hrule
  | product =>
    rcases h1 hc with rfl | rfl
    · exact ⟨_, none, run_orElse_of_read (run_mark_cons hb _), .none⟩
    · exact ⟨_, run_orElse_of_here (run_mark_cons_of_ne hb (by decide) _) (run_mark_cons hb _)
        .none⟩
  | sum =>
    rcases h2 hc with rfl | rfl
    · exact ⟨_, none, run_orElse_of_read (run_mark_cons hb _), .none⟩
    · exact ⟨_, run_orElse_of_here (run_mark_cons_of_ne hb (by decide) _) (run_mark_cons hb _)
        .none⟩
  | comparison =>
    rcases h3 hc with rfl | rfl | rfl
    · exact ⟨_, none, run_orElse_of_read (run_mark_cons hb _), .none⟩
    · exact ⟨_, run_orElse_of_here (run_mark_cons_of_ne hb (by decide) _)
        (run_orElse_of_read (run_mark_cons hb _)) .none⟩
    · obtain ⟨o, ho, hbefore⟩ := run_orElse_of_here (r := r)
        (run_mark_cons_of_ne (d := '<') hb (by decide) BinaryOp.lt)
        (run_mark_cons hb BinaryOp.gt) .none
      exact ⟨_, run_orElse_of_here (run_mark_cons_of_ne hb (by decide) _) ho hbefore⟩

/-- What the reader of a keyword makes of a text that begins with its first letter. -/
theorem run_keyword_of_spells (word : String) {l : Char} {ls : List Char}
    (hword : word.toList = l :: ls) (hc : c.toLower = l) (hb : isBlank c = false)
    (hq : q.step c = some q') (h : q'.Spells ls q'') (v : α) :
    (∃ p, (keyword word v).run (c :: r) = .blocked p ∧ p.rest.length ≤ r.length ∧
      q.Stops (c :: r) p) ∨
    ∃ m, (keyword word v).run (c :: r) = .read v (skipBlanks m) none ∧ m.length ≤ r.length ∧
      q.Walks (c :: r) q'' m := by
  have hr : skipBlanks (c :: r) = c :: r := skipBlanks_eq_self (by simpa using hb)
  rw [keyword, run_token, hr, hword, run_letters_cons, if_pos hc]
  rcases h.run_letters r with ⟨p, hrun, hs⟩ | ⟨m, hrun, hw⟩
  · exact .inl ⟨p, by rw [hrun], hs.length_le, hs.of_walks (.step hq (.refl q' r))⟩
  · exact .inr ⟨m, by rw [hrun], hw.length_le, .step hq hw⟩

/-- Where an operator of the rule begins, it is read, or its reader is blocked inside the word that
it begins like. -/
theorem run_operator_of_eq {rule : Rule} (hc : levelOf c = rule.level) (hrule : 0 < rule.level)
    (hb : rule = .comparison → q.compared = false) (hq : q.step c = q.operate c) :
    (∃ p, rule.operator.run (c :: r) = .blocked p ∧ p.rest.length ≤ r.length ∧
      q.Stops (c :: r) p) ∨
    ∃ op o m, rule.operator.run (c :: r) = .read op (skipBlanks m) o ∧ m.length ≤ r.length ∧
      Before r o ∧ q.Walks (c :: r) (q.afterOperator rule.level) m := by
  have hmem : c ∈ leading := mem_leading (hc ▸ hrule)
  have hblank : isBlank c = false := (leading_spec c hmem).1
  obtain ⟨-, -, -, h4, h5, -⟩ := leading_level c hmem
  rw [operate, hc] at hq
  cases rule with
  | atom | signed => cases hrule
  | product | sum =>
    obtain ⟨op, o, hrun, ho⟩ := run_operator_of_mark hc (by simp)
    exact .inr ⟨op, o, r, hrun, Nat.le_refl _, ho, .step hq (.refl _ r)⟩
  | comparison =>
    obtain ⟨op, o, hrun, ho⟩ := run_operator_of_mark hc (by simp)
    have hq' : q.step c = some (q.afterOperator 3) := by
      rw [hq]
      simp [Rule.level, hb, afterOperator]
    exact .inr ⟨op, o, r, hrun, Nat.le_refl _, ho, .step hq' (.refl _ r)⟩
  | conjunction =>
    have hspells : Spells { q with place := .a } ['n', 'd'] (q.afterOperator 4) :=
      .cons (fun _ => rfl) rfl rfl (.cons (fun _ => rfl) rfl rfl .nil)
    rcases run_keyword_of_spells "and" rfl (h4 hc) hblank hq hspells BinaryOp.and with
      h | ⟨m, hm, hw⟩
    · exact .inl h
    · exact .inr ⟨_, none, m, hm, hw.1, .none, hw.2⟩
  | disjunction =>
    have hspells : Spells { q with place := .o } ['r'] (q.afterOperator 5) :=
      .cons (fun _ => rfl) rfl rfl .nil
    rcases run_keyword_of_spells "or" rfl (h5 hc) hblank hq hspells BinaryOp.or with h | ⟨m, hm, hw⟩
    · exact .inl h
    · exact .inr ⟨_, none, m, hm, hw.1, .none, hw.2⟩

/-! ## An operator and its operand -/

/-- What becomes of the attempt to go on from an operand with an operator of a level: no operator
begins there, or it or its operand is missing, or both are read. -/
inductive Tried (k : Nat) (q : Cursor) (r : List Char) : Outcome α → Prop
  | here : (∀ c ∈ r.head?, levelOf c ≠ k + 1) →
      Tried k q r (.blocked ⟨r, operatorLabels q.compared (k + 1)⟩)
  | beyond {p : Obstacle} {c : Char} : q.Stops r p → p.rest.length < r.length → c ∈ r.head? →
      isBlank c = false → levelOf c = k + 1 → Tried k q r (.blocked p)
  | past {m r' : List Char} {v : α} {o : Option Obstacle} : m.length < r.length →
      q.Walks r (q.afterOperator (k + 1)) m →
      (q.afterOperator (k + 1)).Tracked k m (.read v r' o) → Tried k q r (.read v r' o)

/-- An operator with its right operand is tracked behind an operand, unless a comparison was made
before. -/
theorem operation_tried {rule : Rule} {n : Nat} {operand : Reader Expr} (hk : rule.level = k + 1)
    (hb : rule = .comparison → q.compared = false) (hoperand : Tracks k n operand)
    (hr : r.length ≤ n) (hpause : q.Pause k r o) :
    Tried k q r ((operation rule.operator operand).run r) := by
  have hrule : 0 < rule.level := by omega
  by_cases hhead : ∃ c ∈ r.head?, levelOf c = rule.level
  · obtain ⟨c, hc, hlevel⟩ := hhead
    obtain ⟨r, rfl⟩ := List.head?_eq_some_iff.1 hc
    obtain ⟨hstep, hblank⟩ := hpause.settled c hc
    rcases run_operator_of_eq (r := r) hlevel hrule hb hstep with
      ⟨p, hrun, hlen, hs⟩ | ⟨op, o', m, hrun, hlen, hbefore, hw⟩
    · rw [operation, run_bind_of_blocked hrun]
      exact .beyond hs (Nat.lt_succ_of_le hlen) hc hblank (hlevel.trans hk)
    · rw [operation, run_bind_of_read hrun]
      have hm := length_skipBlanks_le m
      rw [hk] at hw
      have hw' := hw.trans (walks_skipBlanks rfl m)
      have hlen' : (skipBlanks m).length < (c :: r).length := by
        simp only [List.length_cons]
        omega
      have hright := hoperand (Nat.lt_of_lt_of_le hlen' hr) rfl (compared_afterOperator q)
      have hout := (hright.after (hbefore.mono (Nat.le_trans hm hlen))).bind_pure fun e => (op, e)
      generalize ((operand >>= fun e => pure (op, e)).run (skipBlanks m)).after o' = out at hout
      cases out with
      | blocked p =>
        cases hout with
        | blocked hs =>
          have := hs.length_le
          exact .beyond (hs.of_walks hw') (by omega) hc hblank (hlevel.trans hk)
      | read v r' o => exact .past hlen' hw' hout
  · have hne : ∀ c ∈ r.head?, isBlank c = false ∧ levelOf c ≠ rule.level := fun c hc =>
      ⟨(hpause.settled c hc).2, fun hlevel => hhead ⟨c, hc, hlevel⟩⟩
    rw [operation, run_bind_of_blocked (run_operator_of_ne hrule hb hne), hk]
    exact .here fun c hc => hk ▸ (hne c hc).2

/-- Behind a phrase that nothing can follow no operator is read. -/
theorem run_operation_of_ne {rule : Rule} {operand : Reader Expr} (hk : rule.level = k + 1)
    (hc : c ∈ r.head?) (hb : isBlank c = false) (hlevel : levelOf c ≤ k) :
    (operation rule.operator operand).run r = .blocked ⟨r, operatorLabels false rule.level⟩ := by
  refine run_bind_of_blocked (run_operator_of_ne (by omega) (fun _ => rfl) ?_)
  intro d hd
  obtain rfl : c = d := Option.some.inj (hc.symm.trans hd)
  exact ⟨hb, by omega⟩

/-- A repetition of operators stops before it has met anything further on. -/
theorem run_many_of_doomed {rule : Rule} {operand : Reader Expr} {p : Obstacle}
    (hk : rule.level = k + 1) (hp : p.rest.length < r.length) (hc : c ∈ r.head?)
    (hb : isBlank c = false) (hlevel : levelOf c ≤ k) (fuel : Nat) :
    ∃ o, (manyUpTo (operation rule.operator operand) fuel).run r = .read [] r o ∧
      Obstacle.join? (some p) o = some p := by
  cases fuel with
  | zero => exact ⟨none, rfl, rfl⟩
  | succ fuel =>
    exact ⟨_, run_manyUpTo_of_blocked (run_operation_of_ne hk hc hb hlevel) fuel,
      congrArg some (Obstacle.join_of_nearer hp)⟩

/-- Where no operator of the next level begins, that level has been tested too. -/
theorem Cursor.Pause.next (h : q.Pause k r o) (hne : ∀ c ∈ r.head?, levelOf c ≠ k + 1) :
    q.Pause (k + 1) r
      (Obstacle.join? o (some ⟨r, operatorLabels q.compared (k + 1)⟩)) where
  complete := h.complete
  settled := h.settled
  passed c hc := (h.passed c hc).imp_left fun hk => by
    have := hne c hc
    omega
  tested := h.tested.join? .here

/-! ## Chains -/

/-- Operators and operands that go on from an operand are tracked. -/
theorem many_tracked {rule : Rule} {n : Nat} {operand : Reader Expr} (hk : rule.level = k + 1)
    (hb : rule ≠ .comparison) (hoperand : Tracks k n operand) (fuel : Nat) {q : Cursor}
    {r : List Char} {o : Option Obstacle} (hfuel : r.length < fuel) (hn : r.length ≤ n)
    (hpause : q.Pause k r o) : q.Tracked (k + 1) r
      (((manyUpTo (operation rule.operator operand) fuel).run r).after o) := by
  induction fuel generalizing q r o with
  | zero => exact absurd hfuel (Nat.not_lt_zero _)
  | succ fuel ih =>
    have htried := operation_tried hk (fun h => absurd h hb) hoperand hn hpause
    generalize hout : (operation rule.operator operand).run r = out at htried
    cases htried with
    | here hne =>
      rw [run_manyUpTo_of_blocked hout]
      exact .paused (.refl q r) rfl (fun _ => rfl) (hpause.next hne)
    | @beyond p c hs hp hc hblank hlevel =>
      rw [run_manyUpTo_of_blocked hout, Outcome.after,
        (hpause.tested.before_of_lt hp).join?_eq]
      exact .doomed hs hp hc hblank (Nat.le_of_eq hlevel)
    | @past m r' v o' hm hw htracked =>
      -- what follows the operand starts behind all that has been tested before
      refine .of_walks hw rfl (fun h2 => if_pos h2) ?_
      have hbefore : Before m o := hpause.tested.before_of_lt hm
      cases htracked with
      | @doomed _ _ p c hs hp hc hblank hlevel =>
        obtain ⟨o'', hmany, hjoin⟩ := run_many_of_doomed hk hp hc hblank hlevel fuel
        rw [run_manyUpTo_of_read hout hmany, hjoin]
        have hdoomed : (q.afterOperator (k + 1)).Tracked (k + 1) m
            (Outcome.read [v] r' (some p)) :=
          .doomed hs hp hc hblank (Nat.le_succ_of_le hlevel)
        exact hdoomed.after hbefore
      | @paused _ _ _ q' hw' hf hcomp hp =>
        have hlen := hw'.length_le
        have hrest := ih (o := Obstacle.join? o o') (by omega) (by omega)
          ⟨hp.complete, hp.settled, hp.passed, hp.tested.after (hbefore.mono hlen)⟩
        cases hmany : (manyUpTo (operation rule.operator operand) fuel).run r' with
        | blocked p => exact absurd ⟨p, hmany⟩ not_fails_upTo
        | read vs r'' o'' =>
          rw [run_manyUpTo_of_read hout hmany, Outcome.after, ← Obstacle.join?_assoc]
          rw [hmany] at hrest
          exact .of_walks hw' hf (fun h2 => hcomp (by omega)) hrest.of_value

/-- A rule that repeats is tracked one level above its operands. -/
theorem chain_tracks (rule : Rule) {n : Nat} {operand : Reader Expr} (hk : rule.level = k + 1)
    (hb : rule ≠ .comparison) (hoperand : Tracks k n operand) :
    Tracks (k + 1) n (chain rule.operator operand) := by
  intro q s hn hq hcompared
  have hfirst := hoperand hn hq fun h => hcompared (Nat.le_succ_of_le h)
  rw [chain, run_bind]
  generalize operand.run s = out at hfirst
  cases hfirst with
  | blocked hs => exact .blocked hs
  | @doomed v r p c hs hp hc hblank hlevel =>
    obtain ⟨o, hrun, hjoin⟩ : ∃ o, (many (operation rule.operator operand)).run r = .read [] r o ∧
        Obstacle.join? (some p) o = some p :=
      run_many_of_doomed hk hp hc hblank hlevel (r.length + 1)
    have hdoomed : q.Tracked (k + 1) s (Outcome.read v r (some p)) :=
      .doomed hs hp hc hblank (Nat.le_succ_of_le hlevel)
    simp only [run_bind_of_read hrun, run_pure, Outcome.after, Obstacle.join?_none, hjoin]
    exact hdoomed.of_value
  | @paused v r o q' hw hf hcomp hpause =>
    have hlen := hw.length_le
    have hmany : q'.Tracked (k + 1) r (((many (operation rule.operator operand)).run r).after o) :=
      many_tracked hk hb hoperand (r.length + 1) (Nat.lt_succ_self _) (by omega) hpause
    exact .of_walks hw hf (fun h => hcomp (by omega)) (hmany.bind_pure _)

/-! ## Comparisons -/

/-- Behind the operator of a comparison no further one is tested, so a sum ends the comparison. -/
theorem Cursor.Tracked.of_compared {v : α} (h : q.Tracked 2 s (.read v r o))
    (hq : q.compared = true) : q.Tracked 3 s (.read v r o) := by
  cases h with
  | doomed hs hp hc hblank hlevel => exact .doomed hs hp hc hblank (Nat.le_succ_of_le hlevel)
  | @paused _ _ _ q' hw hf hcomp hpause =>
    have hq' : q'.compared = true := (hcomp (Nat.le_refl 2)).trans hq
    refine .paused hw hf (fun h => absurd h (by decide))
      ⟨hpause.complete, hpause.settled, fun c hc => ?_, ?_⟩
    · rcases hpause.passed c hc with hl | hl | hl
      · by_cases h3 : levelOf c = 3
        · exact .inr (.inr ⟨h3, hq'⟩)
        · exact .inl (by omega)
      · exact .inr (.inl hl)
      · exact .inr (.inr hl)
    · have hlabels : q'.labels 3 = q'.labels 2 := by
        rw [labels, hq']
        exact merge_nil _
      rw [hlabels]
      exact hpause.tested

/-- A comparison is tracked above its sums. -/
theorem comparison_tracks {n : Nat} {inner : Reader Expr} (hsum : Tracks 2 n (sum inner)) :
    Tracks 3 n (comparison inner) := by
  intro q s hn hq hcompared
  have hleft := hsum hn hq fun h => absurd h (by decide)
  rw [Rule.comparison_eq, run_bind]
  generalize (sum inner).run s = out at hleft
  cases hleft with
  | blocked hs => exact .blocked hs
  | @doomed v r p c hs hp hc hblank hlevel =>
    have hop : (operation (Rule.operator .comparison) (sum inner)).run r =
        .blocked ⟨r, operatorLabels false 3⟩ := run_operation_of_ne rfl hc hblank hlevel
    have hdoomed : q.Tracked 3 s (Outcome.read v r (some p)) :=
      .doomed hs hp hc hblank (Nat.le_succ_of_le hlevel)
    have hjoin : p.join ⟨r, operatorLabels false 3⟩ = p := Obstacle.join_of_nearer hp
    simp only [run_bind_of_read (run_optionally_of_blocked hop), run_pure, Outcome.after,
      Obstacle.join?_none, Obstacle.join?_some, hjoin]
    exact hdoomed.of_value
  | @paused v r o q' hw hf hcomp hpause =>
    have hq' : q'.compared = false := (hcomp (Nat.le_refl 2)).trans (hcompared (Nat.le_refl 3))
    have hr : r.length ≤ n := Nat.le_of_lt (Nat.lt_of_le_of_lt hw.length_le hn)
    have htried : Tried 2 q' r ((operation (Rule.operator .comparison) (sum inner)).run r) :=
      operation_tried rfl (fun _ => hq') hsum hr hpause
    refine .of_walks hw hf (fun h => absurd h (by decide)) (Tracked.bind_pure _ ?_)
    generalize hout : (operation (Rule.operator .comparison) (sum inner)).run r = out at htried
    cases htried with
    | here hne =>
      rw [run_optionally_of_blocked hout]
      exact .paused (.refl q' r) rfl (fun _ => rfl) (hpause.next hne)
    | @beyond p c hs hp hc hblank hlevel =>
      rw [run_optionally_of_blocked hout, Outcome.after, (hpause.tested.before_of_lt hp).join?_eq]
      exact .doomed hs hp hc hblank (Nat.le_of_eq hlevel)
    | @past m r' w o' hm hw' htracked =>
      rw [run_optionally_of_read hout]
      refine .of_walks hw' rfl (fun h => absurd h (by decide)) ?_
      exact ((htracked.of_compared rfl).of_value).after (hpause.tested.before_of_lt hm)

end FormulaSheet
