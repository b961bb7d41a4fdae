import FormulaSheet.Formula.Reader
import Mathlib.Data.List.Basic

/-!
# Laws of readers

A run is looked at in two ways. The equations `run_pure`, `run_bind`, `run_orElse`, … give all of
it, obstacles included. `Reads` and `Fails` leave the obstacles out: what a reader takes off the
front of a text never depends on them, so each combinator has one law that says when it reads and
one that says when it fails.

`Advances` is the measure of the repetitions: a reader that takes something off the text each time
is repeated until it fails (`Repeats.reads`).
-/

namespace FormulaSheet

/-! ## Obstacles -/

/-- The members of a list of expectations and after them the new ones of another. -/
def merge (earlier later : List Expectation) : List Expectation :=
  earlier ++ later.filter (!earlier.elem ·)

@[simp] theorem merge_nil (l : List Expectation) : merge l [] = l := by simp [merge]

@[simp] theorem nil_merge (l : List Expectation) : merge [] l = l := by
  simp [merge]

/-- Merged lists hold what either of them holds. -/
theorem mem_merge {l m : List Expectation} {e : Expectation} : e ∈ merge l m ↔ e ∈ l ∨ e ∈ m := by
  simp only [merge, List.mem_append, List.mem_filter]
  by_cases h : e ∈ l <;> simp [h]

/-- To merge lists is associative. -/
theorem merge_assoc (l m n : List Expectation) : merge (merge l m) n = merge l (merge m n) := by
  simp only [merge, List.append_assoc, List.filter_append, List.filter_filter]
  congr 2
  refine List.filter_congr ?_
  intro e _
  by_cases hl : e ∈ l <;> by_cases hm : e ∈ m <;> simp [hl, hm]

/-- A merged list repeats nothing if neither of its parts does. -/
theorem nodup_merge {l m : List Expectation} (hl : l.Nodup) (hm : m.Nodup) : (merge l m).Nodup := by
  refine List.nodup_append.2 ⟨hl, hm.filter _, ?_⟩
  intro a ha b hb hab
  subst hab
  simp [ha] at hb

namespace Obstacle

/-- Of two obstacles the further one counts. -/
theorem join_of_further {o p : Obstacle} (h : p.rest.length < o.rest.length) : o.join p = p :=
  if_pos h

/-- An obstacle on the way to another does not count. -/
theorem join_of_nearer {o p : Obstacle} (h : o.rest.length < p.rest.length) : o.join p = o := by
  rw [join, if_neg (by omega), if_pos h]

/-- Two obstacles at one place become one. -/
theorem join_of_same {o p : Obstacle} (h : o.rest.length = p.rest.length) :
    o.join p = ⟨o.rest, merge o.expected p.expected⟩ := by
  rw [join, if_neg (by omega), if_neg (by omega), merge]

@[simp] theorem join_mk (r : List Char) (es fs : List Expectation) :
    join ⟨r, es⟩ ⟨r, fs⟩ = ⟨r, merge es fs⟩ :=
  join_of_same rfl

/-- Of two obstacles the one further on stays. -/
theorem length_rest_join (o p : Obstacle) :
    (o.join p).rest.length = min o.rest.length p.rest.length := by
  rcases Nat.lt_trichotomy o.rest.length p.rest.length with h | h | h
  · rw [join_of_nearer h, Nat.min_eq_left (Nat.le_of_lt h)]
  · rw [join_of_same h, h, Nat.min_self]
  · rw [join_of_further h, Nat.min_eq_right (Nat.le_of_lt h)]

/-- To join obstacles is associative. -/
theorem join_assoc (o p q : Obstacle) : (o.join p).join q = o.join (p.join q) := by
  rcases Nat.lt_trichotomy o.rest.length p.rest.length with hop | hop | hop <;>
  rcases Nat.lt_trichotomy p.rest.length q.rest.length with hpq | hpq | hpq
  · rw [join_of_nearer hop, join_of_nearer hpq, join_of_nearer hop,
      join_of_nearer (Nat.lt_trans hop hpq)]
  · rw [join_of_nearer hop, join_of_nearer (by omega), join_of_same hpq,
      join_of_nearer (by simpa using hop)]
  · rw [join_of_nearer hop, join_of_further hpq]
  · rw [join_of_same hop, join_of_nearer (by simpa [hop] using hpq), join_of_nearer hpq,
      join_of_same hop]
  · rw [join_of_same hop, join_of_same (by simpa [hop] using hpq), join_of_same hpq,
      join_of_same (by simpa using hop), merge_assoc]
  · rw [join_of_same hop, join_of_further (by simpa [hop] using hpq), join_of_further hpq,
      join_of_further (by omega)]
  · rw [join_of_further hop, join_of_nearer hpq, join_of_further hop]
  · rw [join_of_further hop, join_of_same hpq, join_of_further (by simpa using hop)]
  · rw [join_of_further hop, join_of_further hpq, join_of_further (Nat.lt_trans hpq hop)]

@[simp] theorem join?_none (o : Option Obstacle) : join? o none = o := rfl

@[simp] theorem none_join? (o : Option Obstacle) : join? none o = o := by
  cases o <;> rfl

@[simp] theorem join?_some (o p : Obstacle) : join? (some o) (some p) = some (o.join p) := rfl

/-- To join obstacles is associative, also where there are none. -/
theorem join?_assoc (o p q : Option Obstacle) : join? (join? o p) q = join? o (join? p q) := by
  rcases o with - | o <;> rcases p with - | p <;> rcases q with - | q <;> simp [join_assoc]

end Obstacle

namespace Outcome

/-- An outcome after no obstacle stays as it is. -/
@[simp] theorem after_none (r : Outcome α) : r.after none = r := by
  cases r <;> simp [after, Obstacle.after]

/-- Obstacles that come one after the other are joined. -/
theorem after_after (o p : Option Obstacle) (r : Outcome α) :
    (r.after p).after o = r.after (Obstacle.join? o p) := by
  cases r with
  | read v rest q => simp [after, Obstacle.join?_assoc]
  | blocked q =>
    rcases o with - | o <;> rcases p with - | p <;>
      simp [after, Obstacle.after, Obstacle.join_assoc]

end Outcome

namespace Reader

/-! ## What a run comes to -/

/-- The reader takes a value off the front of a text and leaves the rest. -/
def Reads (p : Reader α) (s : List Char) (v : α) (r : List Char) : Prop :=
  ∃ o, p.run s = .read v r o

/-- The reader is blocked at the front of a text. -/
def Fails (p : Reader α) (s : List Char) : Prop := ∃ o, p.run s = .blocked o

/-- A reader read one value after the other, as often as there are values. -/
inductive Repeats (p : Reader α) : List Char → List α → List Char → Prop
  | nil : Repeats p s [] s
  | cons : p.Reads s v m → Repeats p m vs r → Repeats p s (v :: vs) r

/-- The reader takes something off every text that it reads. -/
def Advances (p : Reader α) : Prop := ∀ {s v r}, p.Reads s v r → r.length < s.length

section
variable {α β : Type} {p q : Reader α} {f : α → Reader β} {s m r : List Char} {v : α} {w : β}

/-! ## Runs -/

/-- To give a value reads nothing and notes nothing. -/
theorem run_pure (v : α) (s : List Char) : (pure v : Reader α).run s = .read v s none := rfl

/-- A sequence runs its second part where the first one stopped. -/
theorem run_bind (p : Reader α) (f : α → Reader β) (s : List Char) :
    (p >>= f).run s = match p.run s with
      | .read v rest o => ((f v).run rest).after o
      | .blocked o => .blocked o := rfl

/-- A choice runs its second part from where the first one began. -/
theorem run_orElse (p q : Reader α) (s : List Char) :
    (p <|> q).run s = match p.run s with
      | .read v rest o => .read v rest o
      | .blocked o => (q.run s).after (some o) := rfl

/-- A sequence goes on after what is read. -/
theorem run_bind_of_read {o : Option Obstacle} (h : p.run s = .read v m o) :
    (p >>= f).run s = ((f v).run m).after o := by
  rw [run_bind, h]

/-- A sequence is blocked where its first part is. -/
theorem run_bind_of_blocked {o : Obstacle} (h : p.run s = .blocked o) :
    (p >>= f).run s = .blocked o := by
  rw [run_bind, h]

/-- A choice keeps to its first part if that reads. -/
theorem run_orElse_of_read {o : Option Obstacle} (h : p.run s = .read v m o) :
    (p <|> q).run s = .read v m o := by
  rw [run_orElse, h]

/-- A choice turns to its second part if the first is blocked. -/
theorem run_orElse_of_blocked {o : Obstacle} (h : p.run s = .blocked o) :
    (p <|> q).run s = (q.run s).after (some o) := by
  rw [run_orElse, h]

/-! ## Reading and failing -/

/-- A reader reads a text or fails. -/
theorem reads_or_fails (p : Reader α) (s : List Char) : (∃ v r, p.Reads s v r) ∨ p.Fails s := by
  cases h : p.run s with
  | read v r o => exact .inl ⟨v, r, o, h⟩
  | blocked o => exact .inr ⟨o, h⟩

/-- What reads a text does not fail. -/
theorem Reads.not_fails (h : p.Reads s v r) : ¬ p.Fails s := by
  rintro ⟨o', h'⟩
  obtain ⟨o, h⟩ := h
  rw [h] at h'; cases h'

/-- What fails does not read. -/
theorem Fails.not_reads (h : p.Fails s) : ¬ p.Reads s v r := fun h' => h'.not_fails h

/-- What a reader reads is determined by the text. -/
theorem Reads.unique {v' : α} {r' : List Char} (h : p.Reads s v r) (h' : p.Reads s v' r') :
    v = v' ∧ r = r' := by
  obtain ⟨o, h⟩ := h
  obtain ⟨o', h'⟩ := h'
  rw [h] at h'
  cases h'; exact ⟨rfl, rfl⟩

/-- The value that is given is the one that is read. -/
@[simp] theorem reads_pure {v' : α} : (pure v' : Reader α).Reads s v r ↔ v = v' ∧ r = s := by
  constructor
  · rintro ⟨o, h⟩
    cases h; exact ⟨rfl, rfl⟩
  · rintro ⟨rfl, rfl⟩
    exact ⟨none, rfl⟩

/-- To give a value never fails. -/
@[simp] theorem not_fails_pure : ¬ (pure v : Reader α).Fails s := by
  rintro ⟨o, h⟩
  cases h

/-- A sequence reads if both parts do, one after the other. -/
theorem reads_bind : (p >>= f).Reads s w r ↔ ∃ v m, p.Reads s v m ∧ (f v).Reads m w r := by
  constructor
  · rintro ⟨o, h⟩
    rw [run_bind] at h
    cases hp : p.run s with
    | blocked o' => rw [hp] at h; cases h
    | read v m o' =>
      simp only [hp] at h
      cases hf : (f v).run m with
      | blocked o'' => rw [hf] at h; cases h
      | read w' r' o'' =>
        rw [hf] at h
        cases h; exact ⟨v, m, ⟨o', hp⟩, o'', hf⟩
  · rintro ⟨v, m, ⟨o, hp⟩, o', hf⟩
    exact ⟨_, by rw [run_bind_of_read hp, hf]; rfl⟩

/-- A sequence fails if one part does. -/
theorem fails_bind : (p >>= f).Fails s ↔ p.Fails s ∨ ∃ v m, p.Reads s v m ∧ (f v).Fails m := by
  constructor
  · rintro ⟨o, h⟩
    cases hp : p.run s with
    | blocked o' => exact .inl ⟨o', hp⟩
    | read v m o' =>
      rw [run_bind_of_read hp] at h
      cases hf : (f v).run m with
      | blocked o'' => exact .inr ⟨v, m, ⟨o', hp⟩, o'', hf⟩
      | read w' r' o'' => rw [hf] at h; cases h
  · rintro (⟨o, h⟩ | ⟨v, m, ⟨o, hp⟩, o', hf⟩)
    · exact ⟨o, run_bind_of_blocked h⟩
    · exact ⟨_, by rw [run_bind_of_read hp, hf]; rfl⟩

/-- A choice reads with its second part only if the first fails. -/
theorem reads_orElse : (p <|> q).Reads s v r ↔ p.Reads s v r ∨ p.Fails s ∧ q.Reads s v r := by
  constructor
  · rintro ⟨o, h⟩
    cases hp : p.run s with
    | read v' r' o' =>
      rw [run_orElse_of_read hp] at h
      exact .inl ⟨o, hp.trans h⟩
    | blocked o' =>
      rw [run_orElse_of_blocked hp] at h
      cases hq : q.run s with
      | read v' r' o'' =>
        rw [hq] at h
        cases h; exact .inr ⟨⟨o', hp⟩, o'', hq⟩
      | blocked o'' => rw [hq] at h; cases h
  · rintro (⟨o, h⟩ | ⟨⟨o, h⟩, o', h'⟩)
    · exact ⟨o, run_orElse_of_read h⟩
    · exact ⟨_, by rw [run_orElse_of_blocked h, h']; rfl⟩

/-- A choice fails if both parts do. -/
theorem fails_orElse : (p <|> q).Fails s ↔ p.Fails s ∧ q.Fails s := by
  constructor
  · rintro ⟨o, h⟩
    cases hp : p.run s with
    | read v' r' o' => rw [run_orElse_of_read hp] at h; cases h
    | blocked o' =>
      rw [run_orElse_of_blocked hp] at h
      cases hq : q.run s with
      | read v' r' o'' => rw [hq] at h; cases h
      | blocked o'' => exact ⟨⟨o', hp⟩, o'', hq⟩
  · rintro ⟨⟨o, h⟩, o', h'⟩
    exact ⟨_, by rw [run_orElse_of_blocked h, h']; rfl⟩

/-! ## Tests and white space -/

/-- A test reads a character that passes. -/
theorem run_test (e : Expectation) (accepts : Char → Bool) (c : Char) (s : List Char) :
    (test e accepts).run (c :: s) =
      if accepts c then .read c s none else .blocked ⟨c :: s, [e]⟩ := rfl

/-- The end is read at the end. -/
theorem reads_ending {u : Unit} : ending.Reads s u r ↔ s = [] ∧ r = [] := by
  constructor
  · rintro ⟨o, h⟩
    cases s with
    | nil => cases h; exact ⟨rfl, rfl⟩
    | cons c s => cases h
  · rintro ⟨rfl, rfl⟩
    exact ⟨none, rfl⟩

/-- White space around a reader is skipped before and after it. -/
theorem run_padded (p : Reader α) (s : List Char) :
    (padded p).run s = match p.run (skipBlanks s) with
      | .read v m o => .read v (skipBlanks m) o
      | .blocked o => .blocked o := by
  have h : (padded p).run s =
      ((p >>= fun v => blanks >>= fun _ => pure v).run (skipBlanks s)).after none := rfl
  rw [h, Outcome.after_none, run_bind]
  cases p.run (skipBlanks s) with
  | read v m o => rfl
  | blocked o => rfl

/-- White space around a reader is taken with what it reads. -/
theorem reads_padded :
    (padded p).Reads s v r ↔ ∃ m, p.Reads (skipBlanks s) v m ∧ r = skipBlanks m := by
  simp only [Reads, run_padded]
  cases p.run (skipBlanks s) with
  | read v' m o =>
    constructor
    · rintro ⟨o, h⟩; cases h; exact ⟨m, ⟨_, rfl⟩, rfl⟩
    · rintro ⟨m', ⟨o', h⟩, rfl⟩; cases h; exact ⟨_, rfl⟩
  | blocked o => simp

/-- White space around a reader does not make it fail. -/
theorem fails_padded : (padded p).Fails s ↔ p.Fails (skipBlanks s) := by
  simp only [Fails, run_padded]
  cases p.run (skipBlanks s) with
  | read v m o => simp
  | blocked o => simp

/-! ## Repetition -/

/-- An option that reads gives its value. -/
theorem run_optionally_of_read {o : Option Obstacle} (h : p.run s = .read v m o) :
    (optionally p).run s = .read (some v) m o :=
  run_orElse_of_read (run_bind_of_read h)

/-- An option that is blocked gives nothing. -/
theorem run_optionally_of_blocked {o : Obstacle} (h : p.run s = .blocked o) :
    (optionally p).run s = .read none s (some o) :=
  run_orElse_of_blocked (run_bind_of_blocked h)

/-- An option reads, or reads nothing where its reader fails. -/
theorem reads_optionally {v : Option α} : (optionally p).Reads s v r ↔
    (∃ w, v = some w ∧ p.Reads s w r) ∨ v = none ∧ r = s ∧ p.Fails s := by
  simp only [optionally, reads_orElse, reads_bind, fails_bind, reads_pure, not_fails_pure,
    and_false, exists_false, or_false]
  constructor
  · rintro (⟨w, m, h, rfl, rfl⟩ | ⟨h, rfl, rfl⟩)
    · exact .inl ⟨w, rfl, h⟩
    · exact .inr ⟨rfl, rfl, h⟩
  · rintro (⟨w, rfl, h⟩ | ⟨rfl, rfl, h⟩)
    · exact .inl ⟨w, r, h, rfl, rfl⟩
    · exact .inr ⟨h, rfl, rfl⟩

/-- A repetition ends where its reader is blocked. -/
theorem run_manyUpTo_of_blocked {o : Obstacle} (h : p.run s = .blocked o) (n : Nat) :
    (manyUpTo p (n + 1)).run s = .read [] s (some o) :=
  run_orElse_of_blocked (run_bind_of_blocked h)

/-- A repetition goes on after what is read. -/
theorem run_manyUpTo_of_read {o o' : Option Obstacle} {vs : List α} {n : Nat}
    (h : p.run s = .read v m o) (h' : (manyUpTo p n).run m = .read vs r o') :
    (manyUpTo p (n + 1)).run s = .read (v :: vs) r (Obstacle.join? o o') :=
  run_orElse_of_read (by rw [run_bind_of_read h, run_bind_of_read h']; rfl)

/-- A repetition is never blocked. -/
theorem not_fails_upTo : ∀ {n : Nat} {s : List Char}, ¬ (manyUpTo p n).Fails s
  | 0, _, h => not_fails_pure h
  | _ + 1, _, h => not_fails_pure (fails_orElse.1 h).2

/-- A repetition reads only what its reader reads again and again. -/
theorem Reads.repeats_of_upTo {n : Nat} {vs : List α} (h : (manyUpTo p n).Reads s vs r) :
    Repeats p s vs r := by
  induction n generalizing s vs with
  | zero =>
    obtain ⟨rfl, rfl⟩ := reads_pure.1 h
    exact .nil
  | succ n ih =>
    rcases reads_orElse.1 h with h | ⟨-, h⟩
    · obtain ⟨v, m, hv, h⟩ := reads_bind.1 h
      obtain ⟨vs, m', hvs, h⟩ := reads_bind.1 h
      obtain ⟨rfl, rfl⟩ := reads_pure.1 h
      exact .cons hv (ih hvs)
    · obtain ⟨rfl, rfl⟩ := reads_pure.1 h
      exact .nil

/-- What a repetition reads are values one after the other. -/
theorem Reads.repeats {vs : List α} (h : (many p).Reads s vs r) : Repeats p s vs r :=
  Reads.repeats_of_upTo (n := s.length + 1) h

/-- A repetition goes on until its reader fails, if the bound on it allows. -/
theorem Repeats.reads_upTo {vs : List α} (h : Repeats p s vs r) (hf : p.Fails r) :
    ∀ {n : Nat}, vs.length ≤ n → (manyUpTo p n).Reads s vs r := by
  induction h with
  | nil =>
    rintro (- | n) -
    · exact reads_pure.2 ⟨rfl, rfl⟩
    · obtain ⟨o, ho⟩ := hf
      exact ⟨_, run_manyUpTo_of_blocked ho n⟩
  | cons hv _ ih =>
    rintro (- | n) hn
    · simp at hn
    · obtain ⟨o, ho⟩ := hv
      obtain ⟨o', ho'⟩ := ih hf (n := n) (by simpa using hn)
      exact ⟨_, run_manyUpTo_of_read ho ho'⟩

/-- A repetition has no more values than it takes characters. -/
theorem Repeats.length_le {vs : List α} (hp : p.Advances) (h : Repeats p s vs r) :
    vs.length + r.length ≤ s.length := by
  induction h with
  | nil => simp
  | cons hv _ ih =>
    have := hp hv
    simp only [List.length_cons]
    omega

/-- A reader that advances is repeated until it fails. -/
theorem Repeats.reads {vs : List α} (hp : p.Advances) (h : Repeats p s vs r) (hf : p.Fails r) :
    (many p).Reads s vs r := by
  have := h.length_le hp
  exact h.reads_upTo hf (n := s.length + 1) (by omega)

/-- A repetition of a reader that advances stops only where the reader fails. -/
theorem Reads.fails_of_upTo {n : Nat} {vs : List α} (hp : p.Advances) (hn : s.length < n)
    (h : (manyUpTo p n).Reads s vs r) : p.Fails r := by
  induction n generalizing s vs with
  | zero => exact absurd hn (Nat.not_lt_zero _)
  | succ n ih =>
    rcases reads_orElse.1 h with h | ⟨hf, h⟩
    · obtain ⟨v, m, hv, h⟩ := reads_bind.1 h
      obtain ⟨vs, m', hvs, h⟩ := reads_bind.1 h
      obtain ⟨rfl, rfl⟩ := reads_pure.1 h
      exact ih (Nat.lt_of_lt_of_le (hp hv) (Nat.le_of_lt_succ hn)) hvs
    · obtain ⟨rfl, rfl⟩ := reads_pure.1 h
      refine (fails_bind.1 hf).resolve_right ?_
      intro ⟨_, _, _, h⟩
      exact (fails_bind.1 h).elim not_fails_upTo fun ⟨_, _, _, h⟩ => not_fails_pure h

/-- A repetition ends where its reader fails. -/
theorem Reads.fails {vs : List α} (hp : p.Advances) (h : (many p).Reads s vs r) : p.Fails r :=
  fails_of_upTo hp (Nat.lt_succ_self s.length) h

/-- Characters of a kind are read as far as they go, and the character after them is in the way. -/
theorem run_many_kind (accepts : Char → Bool) (s : List Char) :
    (many (kind accepts)).run s =
      .read (s.takeWhile accepts) (s.dropWhile accepts) (some ⟨s.dropWhile accepts, [.kind]⟩) := by
  suffices h : ∀ n, s.length < n → (manyUpTo (kind accepts) n).run s =
      .read (s.takeWhile accepts) (s.dropWhile accepts) (some ⟨s.dropWhile accepts, [.kind]⟩) from
    h _ (Nat.lt_succ_self _)
  intro n hn
  induction s generalizing n with
  | nil =>
    obtain ⟨n, rfl⟩ := Nat.exists_eq_succ_of_ne_zero (Nat.ne_zero_of_lt hn)
    exact run_manyUpTo_of_blocked (p := kind accepts) (o := ⟨[], [.kind]⟩) rfl n
  | cons c s ih =>
    obtain ⟨n, rfl⟩ := Nat.exists_eq_succ_of_ne_zero (Nat.ne_zero_of_lt hn)
    cases hc : accepts c with
    | true =>
      have h : (kind accepts).run (c :: s) = .read c s none := by simp [kind, run_test, hc]
      rw [run_manyUpTo_of_read h (ih n (by simpa using hn)), List.takeWhile_cons_of_pos hc,
        List.dropWhile_cons_of_pos hc, Obstacle.none_join?]
    | false =>
      have h : (kind accepts).run (c :: s) = .blocked ⟨c :: s, [.kind]⟩ := by
        simp [kind, run_test, hc]
      rw [run_manyUpTo_of_blocked h, List.takeWhile_cons_of_neg (by simp [hc]),
        List.dropWhile_cons_of_neg (by simp [hc])]

/-- A repetition of at least one character takes all of the kind. -/
theorem run_many1_kind {accepts : Char → Bool} {c : Char} (hc : accepts c = true) (s : List Char) :
    (many1 (kind accepts)).run (c :: s) = .read (c :: s.takeWhile accepts) (s.dropWhile accepts)
      (some ⟨s.dropWhile accepts, [.kind]⟩) := by
  have h : (kind accepts).run (c :: s) = .read c s none := by simp [kind, run_test, hc]
  rw [many1, run_bind_of_read h, run_bind_of_read (run_many_kind accepts s)]
  rfl

/-- A repetition of at least one character is blocked where none of the kind stands. -/
theorem run_many1_kind_of_not {accepts : Char → Bool} (h : ∀ c ∈ s.head?, accepts c = false) :
    (many1 (kind accepts)).run s = .blocked ⟨s, [.kind]⟩ := by
  refine run_bind_of_blocked ?_
  cases s with
  | nil => rfl
  | cons c s => simp [kind, run_test, h c rfl]

end

end Reader

end FormulaSheet
