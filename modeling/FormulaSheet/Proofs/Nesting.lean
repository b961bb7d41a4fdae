import FormulaSheet.Proofs.Progress
import Mathlib.Logic.Function.Iterate

/-!
# Nesting

Expressions to a given depth of nesting stand for one reader without a bound. `Grammar.nested` is
the only solution of the equation that closes the circle of the rules (`eq_disjunction_iff`), and
what it makes of a text is found with one round of the circle more than the text has opening
parentheses, whatever stands for the inside after that (`run_iterate`).

`Grammar.ProgressLaws` and `Grammar.GiveBackLaws` say what keeps the rules going forward, and
`Grammar.rules_progress_or_give_back` that the rules keep them.
-/

namespace FormulaSheet

/-- Readers that make the same of every text are the same. -/
theorem Reader.ext {α : Type} {p q : Reader α} (h : ∀ s, p.run s = q.run s) : p = q :=
  congrArg Reader.mk (funext h)

namespace Grammar

open Reader

variable {s : List Char} {n m : Nat}

/-! ## Expressions to a depth -/

/-- Expressions to a depth are that many rounds of the rules. -/
theorem expression_eq_iterate (n : Nat) : expression n = disjunction^[n] stuck := by
  induction n with
  | zero => rfl
  | succ n ih => rw [Function.iterate_succ_apply', ← ih]; rfl

/-- Expressions to a depth note places of the text only. -/
theorem expression_orderly (n : Nat) : (expression n).Orderly := by
  induction n with
  | zero => exact .stuck
  | succ n ih => exact (rule_guarded .disjunction).orderly ih

/-- Expressions to a depth take something. -/
theorem expression_takes (n : Nat) : (expression n).Takes := by
  induction n with
  | zero => exact fun _ _ _ ⟨_, h⟩ => nomatch h
  | succ n ih => exact (rule_guarded .disjunction).takes (expression_orderly n) ih

/-- What stands behind an opening parenthesis has fewer of them. -/
theorem agreeBehind_of_count {p q : Reader Expr}
    (h : ∀ r, r.count '(' < s.count '(' → p.run r = q.run r) : AgreeBehind false p q s := by
  rintro u r rfl hu
  have hpos : 0 < u.count '(' := List.count_pos_iff.2 (hu.resolve_left Bool.false_ne_true)
  refine h r ?_
  rw [List.count_append]
  omega

/-- With as many rounds as a text needs, it does not matter what is read after them: each round but
the first begins behind a further parenthesis. -/
theorem run_expression (bottom : Reader Expr) (hn : s.count '(' < n) (hm : s.count '(' < m) :
    (expression n).run s = (disjunction^[m] bottom).run s := by
  induction n generalizing s m with
  | zero => exact absurd hn (Nat.not_lt_zero _)
  | succ n ih =>
    obtain ⟨m, rfl⟩ := Nat.exists_eq_succ_of_ne_zero (Nat.ne_zero_of_lt hm)
    rw [Function.iterate_succ_apply']
    refine (rule_guarded .disjunction).run_congr (expression_orderly n) ?_
    exact agreeBehind_of_count fun r hr => ih (by omega) (by omega)

/-! ## Expressions to any depth -/

/-- Reads an expression. -/
def nested : Reader Expr := ⟨fun text => (expression (text.length + 1)).run text⟩

/-- A text is read to a depth beyond its length. -/
theorem run_nested (s : List Char) : nested.run s = (expression (s.length + 1)).run s := rfl

/-- What is read is read to a depth that the text cannot exceed. -/
theorem reads_nested {e : Expr} {r : List Char} :
    nested.Reads s e r ↔ (expression (s.length + 1)).Reads s e r := by
  simp only [Reads, run_nested]

/-- Expressions of any depth note places of the text only. -/
theorem nested_orderly : nested.Orderly where
  rest h := (expression_orderly _).rest (reads_nested.1 h)
  noted s := by
    rw [run_nested]
    exact (expression_orderly _).noted s

/-- Expressions of any depth take something. -/
theorem nested_takes : nested.Takes := fun _ _ _ h => expression_takes _ (reads_nested.1 h)

/-- What an expression in a text is shows after as many rounds as the text needs. -/
theorem run_iterate (bottom : Reader Expr) (h : s.count '(' < n) :
    (disjunction^[n] bottom).run s = nested.run s :=
  (run_expression bottom (Nat.lt_succ_of_le List.count_le_length) h).symm

/-- The circle of the rules closes in one reader only. -/
theorem eq_disjunction_iff {p : Reader Expr} : p = disjunction p ↔ p = nested := by
  constructor
  · intro h
    refine Reader.ext fun s => ?_
    rw [← run_iterate p (Nat.lt_succ_self _), Function.iterate_fixed h.symm]
  · rintro rfl
    refine Reader.ext fun s => ?_
    rw [run_nested]
    refine (rule_guarded .disjunction).run_congr (expression_orderly _) ?_
    refine agreeBehind_of_count fun r hr => ?_
    rw [expression_eq_iterate]
    exact run_iterate stuck (Nat.lt_of_lt_of_le hr List.count_le_length)

/-- A formula is an expression up to the end of the text. -/
theorem formula_eq : formula = nested >>= fun e => ending >>= fun _ => pure e :=
  Reader.ext fun _ => rfl

/-- Formulas note places of the text only. -/
theorem formula_orderly : formula.Orderly := by
  rw [formula_eq]
  exact nested_orderly.bind fun _ => Orderly.ending.bind fun _ => .pure _

/-! ## Laws of the grammar -/

/-- The rules take something off each text that they read, and so they come to an end. -/
structure ProgressLaws : Prop where
  /-- What a rule takes is not all white space, and it leaves an end of the text. -/
  rule_takes (rule : Rule) : (rule.reader nested).Takes
  number_takes : number.Takes
  reference_takes : reference.Takes
  keyword_takes {α : Type} (v : α) : ∀ word ∈ keywords, (keyword word v).Takes
  /-- The rules begin again behind an opening parenthesis only, and each round of a repetition in
  them takes something. -/
  guarded (rule : Rule) : Guarded false true fun inner => rule.reader inner
  /-- Each part of a rule that is guarded and takes something takes it off each text, and what is
  noted on the way only grows. -/
  part {opened taking : Bool} {α : Type} {F : Reader Expr → Reader α} : Guarded opened taking F →
    (taking = true → (F nested).Takes) ∧ (F nested).KeepsNotes
  /-- Of what stands for the inside of parentheses, a rule depends only on what is read behind an
  opening one. -/
  inside (rule : Rule) (other : Reader Expr) (s : List Char) :
    (∀ m r, s = m ++ r → '(' ∈ m → nested.run r = other.run r) →
      (rule.reader nested).run s = (rule.reader other).run s
  /-- The rules determine what is read. -/
  determined (p : Reader Expr) : p = disjunction p ↔ p = nested
  /-- One round of the rules more than the text has opening parentheses is enough. -/
  rounds (bottom : Reader Expr) (n : Nat) (s : List Char) : s.count '(' < n →
    (disjunction^[n] bottom).run s = nested.run s
  formula_eq : formula = nested >>= fun e => ending >>= fun _ => pure e
  formula_keepsNotes : formula.KeepsNotes

/-- What is blocked gives its place back and leaves only notes: the run goes on with them from where
the part that is blocked began. -/
structure GiveBackLaws : Prop where
  /-- A repetition ends where its last round that is read does. It has no more rounds than it takes
  characters. -/
  repetition {α : Type} {p : Reader α} : p.Takes → ∀ notes s, ∃ vs r before o,
    Rounds p notes s vs r before ∧ vs.length + r.length ≤ s.length ∧
      p.resume before r = .blocked o ∧ (many p).resume notes s = .read vs r (some o)
  /-- A sequence goes on where its first part stopped, with its notes. -/
  sequence {α β : Type} {p : Reader α} {f : α → Reader β} {notes notes' s v m} :
    p.resume notes s = .read v m notes' → (p >>= f).resume notes s = (f v).resume notes' m
  /-- A choice goes on with its second part where the first one began. -/
  choice {α : Type} {p q : Reader α} {notes s o} :
    p.resume notes s = .blocked o → (p <|> q).resume notes s = q.resume (some o) s
  /-- An option reads nothing. -/
  option {α : Type} {p : Reader α} {notes s o} :
    p.resume notes s = .blocked o → (optionally p).resume notes s = .read none s (some o)

/-- A guarded part takes something with expressions of any depth inside. -/
theorem takes_of_guarded {α : Type} {F : Reader Expr → Reader α} (h : Guarded false true F) :
    (F nested).Takes :=
  h.takes nested_orderly nested_takes

/-- The rules of the grammar keep the laws of progress. -/
theorem progressLaws : ProgressLaws where
  rule_takes rule := takes_of_guarded (rule_guarded rule)
  number_takes := takes_of_guarded number_guarded
  reference_takes := takes_of_guarded reference_guarded
  keyword_takes v _ hword := takes_of_guarded (keyword_guarded hword v)
  guarded := rule_guarded
  part h := ⟨h.takes_of_eq nested_orderly nested_takes, (h.orderly nested_orderly).keepsNotes⟩
  inside rule other s hagree := by
    refine (rule_guarded rule).run_congr nested_orderly ?_
    exact fun m r hs hm => hagree m r hs (hm.resolve_left Bool.false_ne_true)
  determined _ := eq_disjunction_iff
  rounds bottom _ _ h := run_iterate bottom h
  formula_eq := formula_eq
  formula_keepsNotes := formula_orderly.keepsNotes

/-- The parts of readers keep the laws of giving back. -/
theorem giveBackLaws : GiveBackLaws where
  repetition hp notes s := by
    obtain ⟨vs, r, before, o, hrounds, hlast, hmany⟩ := resume_many hp.advances notes s
    exact ⟨vs, r, before, o, hrounds, hrounds.repeats.length_le hp.advances, hlast, hmany⟩
  sequence := resume_bind_of_read
  choice := resume_orElse_of_blocked
  option := resume_optionally_of_blocked

/-- The rules of the grammar go forward or give their place back. A rule, a number, a reference and
a keyword take something other than white space off each text that they read, and leave an end of
it. The rules are guarded, so each round of a repetition takes something too, and the rules begin
again behind an opening parenthesis only. What is noted on the way only grows. A sequence hands it
on, and a repetition, an option and a choice go on with it from where the part that is blocked
began. So the rules determine what is read, and one round of them more than the text has opening
parentheses finds it. -/
theorem rules_progress_or_give_back : ProgressLaws ∧ GiveBackLaws := ⟨progressLaws, giveBackLaws⟩

/-- In this text the word `not` is taken, and then no number stands where a group begins. The text
ends too early, and its obstacle lies in it. Without parentheses in a text it does not matter what
would be read inside them. -/
theorem progress_in_unfinished_group :
    let text := "not (1 or".toList
    let rest := "(1 or".toList
    let obstacle : Obstacle := ⟨rest, [.kind, .character '.']⟩
    (∃ m, text = m ++ rest ∧ allBlank m = false) ∧
    (∃ vs r before o, Rounds signReader none text vs r before ∧ vs.length + r.length ≤ text.length ∧
      signReader.resume before r = .blocked o ∧
        (many signReader).resume none text = .read vs r (some o)) ∧
    (number <|> reference).resume none rest = reference.resume (some obstacle) rest ∧
    (∀ other : Reader Expr, (sum nested).run "1+x".toList = (sum other).run "1+x".toList) ∧
    (∀ bottom, (disjunction^[2] bottom).run text = nested.run text) ∧
    ∀ o ∈ (formula.run text).noted, o.Within text := by
  intro text rest obstacle
  obtain ⟨hprogress, hgiveBack⟩ := rules_progress_or_give_back
  refine ⟨?_, ?_, ?_, ?_, ?_, ?_⟩
  · exact hprogress.keyword_takes UnaryOp.not "not" (by decide) ⟨none, by rfl⟩
  · exact hgiveBack.repetition ((hprogress.part sign_guarded).1 rfl) none text
  · exact hgiveBack.choice (by rfl)
  · intro other
    refine hprogress.inside .sum other "1+x".toList fun m r hs hm => ?_
    have hmem : '(' ∈ "1+x".toList := hs ▸ List.mem_append_left r hm
    exact absurd hmem (by decide)
  · exact fun bottom => hprogress.rounds bottom 2 text (by decide)
  · have hnone : ∀ o ∈ (none : Option Obstacle), o.Within text := fun _ ho => nomatch ho
    have hkeeps := (hprogress.formula_keepsNotes (List.suffix_refl text) hnone).1
    rwa [resume_none] at hkeeps

end Grammar

end FormulaSheet
