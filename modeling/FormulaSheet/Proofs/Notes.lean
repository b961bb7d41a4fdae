import FormulaSheet.Proofs.ReaderLaws
import Mathlib.Data.List.Infix

/-!
# What is noted on the way

A reader that runs after others goes on with their notes: `Reader.resume` is such a run. The laws
`resume_bind`, `resume_orElse`, … say how the combinators hand the notes on. None of them takes a
place back without its notes: what is blocked is followed by another run from where it began, with
the notes that it leaves.

An `Orderly` reader leaves an end of each text that it reads, and notes failures in the text only.
Such notes only grow (`Orderly.keepsNotes`): the obstacle moves on, or it stays and gets more
expectations behind those it has.
-/

namespace FormulaSheet

/-! ## Obstacles in a text -/

/-- The obstacle lies at an end of the text and holds each expectation once. -/
structure Obstacle.Within (text : List Char) (o : Obstacle) : Prop where
  rest : o.rest <:+ text
  nodup : o.expected.Nodup

/-- The later obstacle lies further on, or at the same place with no new expectation but behind
those of the earlier. -/
structure Obstacle.GrowsTo (earlier later : Obstacle) : Prop where
  rest : later.rest <:+ earlier.rest
  expected : later.rest = earlier.rest → earlier.expected <+: later.expected

/-- What is noted after a run. -/
def Outcome.noted : Outcome α → Option Obstacle
  | read _ _ o => o
  | blocked o => some o

section
variable {α : Type} {text s : List Char} {o p : Obstacle}

namespace Obstacle

/-- An obstacle in an end of a text lies in the text. -/
theorem Within.of_suffix (h : o.Within s) (hs : s <:+ text) : o.Within text :=
  ⟨h.rest.trans hs, h.nodup⟩

/-- A single test that fails is noted where it was made. -/
theorem within_single (e : Expectation) : Within text ⟨text, [e]⟩ :=
  ⟨List.suffix_refl text, by simp⟩

/-- Joined obstacles lie in a text if both do. -/
theorem Within.join (ho : o.Within text) (hp : p.Within text) : (o.join p).Within text := by
  rcases Nat.lt_trichotomy o.rest.length p.rest.length with h | h | h
  · rwa [join_of_nearer h]
  · rw [join_of_same h]
    exact ⟨ho.rest, nodup_merge ho.nodup hp.nodup⟩
  · rwa [join_of_further h]

/-- An obstacle that stays the same has grown. -/
theorem GrowsTo.refl (o : Obstacle) : o.GrowsTo o :=
  ⟨List.suffix_refl _, fun _ => List.prefix_refl _⟩

/-- An obstacle grows by what is noted later. -/
theorem growsTo_join (ho : o.Within text) (hp : p.Within text) : o.GrowsTo (o.join p) := by
  rcases Nat.lt_trichotomy o.rest.length p.rest.length with h | h | h
  · rw [join_of_nearer h]
    exact .refl o
  · rw [join_of_same h]
    exact ⟨List.suffix_refl _, fun _ => List.prefix_append _ _⟩
  · rw [join_of_further h]
    refine ⟨List.suffix_of_suffix_length_le hp.rest ho.rest h.le, fun heq => ?_⟩
    rw [heq] at h
    exact absurd h (Nat.lt_irrefl _)

/-- The notes of two parts of a run lie in the text, and those of the earlier part have grown. -/
theorem join?_grows {earlier later : Option Obstacle} (he : ∀ o ∈ earlier, o.Within text)
    (hl : ∀ o ∈ later, o.Within text) : (∀ o ∈ join? earlier later, o.Within text) ∧
      ∀ o ∈ earlier, ∃ p ∈ join? earlier later, o.GrowsTo p := by
  cases later with
  | none => exact ⟨he, fun o ho => ⟨o, ho, .refl o⟩⟩
  | some q =>
    have hq := hl q rfl
    cases earlier with
    | none => exact ⟨hl, fun _ ho => nomatch ho⟩
    | some o =>
      have ho := he o rfl
      rw [join?_some]
      simp only [Option.mem_some_iff, forall_eq', exists_eq_left']
      exact ⟨ho.join hq, growsTo_join ho hq⟩

end Obstacle

/-- What was noted before comes before what the run notes. -/
theorem Outcome.noted_after (notes : Option Obstacle) (out : Outcome α) :
    (out.after notes).noted = Obstacle.join? notes out.noted := by
  cases out <;> rfl

end

namespace Reader

/-- What a reader makes of a text where something may have been noted before. -/
def resume (p : Reader α) (notes : Option Obstacle) (s : List Char) : Outcome α :=
  (p.run s).after notes

/-- A reader read one value after the other, each time with the notes of the times before. -/
inductive Rounds (p : Reader α) :
    Option Obstacle → List Char → List α → List Char → Option Obstacle → Prop
  | nil : Rounds p notes s [] s notes
  | cons : p.resume notes s = .read v m notes' → Rounds p notes' m vs r after →
      Rounds p notes s (v :: vs) r after

/-- The reader leaves an end of each text that it reads, and notes failures in the text only. -/
structure Orderly (p : Reader α) : Prop where
  rest {s : List Char} {v : α} {r : List Char} : p.Reads s v r → r <:+ s
  noted (s : List Char) : ∀ o ∈ (p.run s).noted, o.Within s

/-- Whatever was noted in a text, the reader notes more of that text only, and what was noted only
grows. -/
def KeepsNotes (p : Reader α) : Prop :=
  ∀ ⦃text s : List Char⦄ ⦃notes : Option Obstacle⦄, s <:+ text → (∀ o ∈ notes, o.Within text) →
    (∀ o ∈ (p.resume notes s).noted, o.Within text) ∧
      ∀ o ∈ notes, ∃ o' ∈ (p.resume notes s).noted, o.GrowsTo o'

variable {α β : Type} {p q : Reader α} {f : α → Reader β} {text s m r : List Char} {v : α} {w : β}
  {notes notes' : Option Obstacle} {o : Obstacle}

/-! ## Runs after other runs -/

@[simp] theorem resume_none (p : Reader α) (s : List Char) : p.resume none s = p.run s :=
  Outcome.after_none _

/-- To give a value notes nothing. -/
theorem resume_pure (v : α) (notes : Option Obstacle) (s : List Char) :
    (pure v : Reader α).resume notes s = .read v s notes := rfl

/-- The next reader goes on with the notes of the first. -/
theorem resume_bind (p : Reader α) (f : α → Reader β) (notes : Option Obstacle) (s : List Char) :
    (p >>= f).resume notes s = match p.resume notes s with
      | .read v m notes' => (f v).resume notes' m
      | .blocked o => .blocked o := by
  rw [resume, resume, run_bind]
  cases p.run s with
  | read v m o => exact Outcome.after_after notes o _
  | blocked o => rfl

/-- A sequence goes on with the notes of its first part. -/
theorem resume_bind_of_read (h : p.resume notes s = .read v m notes') :
    (p >>= f).resume notes s = (f v).resume notes' m := by
  rw [resume_bind, h]

/-- The second reader begins where the first began, with the notes of the first. -/
theorem resume_orElse (p q : Reader α) (notes : Option Obstacle) (s : List Char) :
    (p <|> q).resume notes s = match p.resume notes s with
      | .read v r notes' => .read v r notes'
      | .blocked o => q.resume (some o) s := by
  rw [resume, resume, run_orElse]
  cases p.run s with
  | read v r o => rfl
  | blocked o => exact Outcome.after_after notes (some o) _

/-- A choice goes on with the notes of its first part, from the same place. -/
theorem resume_orElse_of_blocked (h : p.resume notes s = .blocked o) :
    (p <|> q).resume notes s = q.resume (some o) s := by
  rw [resume_orElse, h]

/-- An option that is blocked reads nothing and keeps the notes. -/
theorem resume_optionally_of_blocked (h : p.resume notes s = .blocked o) :
    (optionally p).resume notes s = .read none s (some o) := by
  refine resume_orElse_of_blocked ?_
  rw [resume_bind, h]

/-- Notes do not change what is read. -/
theorem reads_of_resume (h : p.resume notes s = .read v r notes') : p.Reads s v r := by
  rw [resume] at h
  cases hp : p.run s with
  | read v' r' o =>
    rw [hp] at h
    cases h
    exact ⟨o, hp⟩
  | blocked o => rw [hp] at h; cases h

/-- The values of rounds are those of a repetition. -/
theorem Rounds.repeats {vs : List α} (h : Rounds p notes s vs r notes') : Repeats p s vs r := by
  induction h with
  | nil => exact .nil
  | cons hv _ ih => exact .cons (reads_of_resume hv) ih

/-- A repetition goes on until its reader is blocked, and stops where that last round began. -/
theorem resume_manyUpTo (hp : p.Advances) {n : Nat} (hn : s.length < n) (notes : Option Obstacle) :
    ∃ vs r before o, Rounds p notes s vs r before ∧ p.resume before r = .blocked o ∧
      (manyUpTo p n).resume notes s = .read vs r (some o) := by
  induction n generalizing s notes with
  | zero => exact absurd hn (Nat.not_lt_zero _)
  | succ n ih =>
    rw [manyUpTo, resume_orElse, resume_bind]
    cases hfirst : p.resume notes s with
    | blocked o => exact ⟨[], s, notes, o, .nil, hfirst, rfl⟩
    | read v m notes' =>
      have hm : m.length < n := Nat.lt_of_lt_of_le (hp (reads_of_resume hfirst)) (by omega)
      obtain ⟨vs, r, before, o, hrounds, hlast, hmore⟩ := ih hm notes'
      refine ⟨v :: vs, r, before, o, .cons hfirst hrounds, hlast, ?_⟩
      simp only [resume_bind, hmore, resume_pure]

/-- A repetition makes rounds until one is blocked, and gives back the place where that one began.
-/
theorem resume_many (hp : p.Advances) (notes : Option Obstacle) (s : List Char) :
    ∃ vs r before o, Rounds p notes s vs r before ∧ p.resume before r = .blocked o ∧
      (many p).resume notes s = .read vs r (some o) :=
  resume_manyUpTo hp (Nat.lt_succ_self s.length) notes

/-! ## Orderly readers -/

/-- An orderly reader keeps what was noted in a text. -/
theorem Orderly.keepsNotes (h : p.Orderly) : p.KeepsNotes := by
  intro text s notes hs hnotes
  rw [resume, Outcome.noted_after]
  exact Obstacle.join?_grows hnotes fun o ho => (h.noted s o ho).of_suffix hs

namespace Orderly

/-- To give a value is orderly. -/
theorem pure (v : α) : (Pure.pure v : Reader α).Orderly where
  rest h := by
    obtain ⟨-, rfl⟩ := reads_pure.1 h
    exact List.suffix_refl _
  noted _ _ ho := nomatch ho

/-- A sequence of orderly readers is orderly. -/
theorem bind (h : p.Orderly) (hf : ∀ v, (f v).Orderly) : (p >>= f).Orderly where
  rest hr := by
    obtain ⟨v, m, hv, hr⟩ := reads_bind.1 hr
    exact ((hf v).rest hr).trans (h.rest hv)
  noted s := by
    have hfirst := h.noted s
    rw [run_bind]
    cases hp : p.run s with
    | blocked o => rwa [hp] at hfirst
    | read v m notes =>
      rw [hp] at hfirst
      rw [Outcome.noted_after]
      refine (Obstacle.join?_grows hfirst fun o ho => ?_).1
      exact ((hf v).noted m o ho).of_suffix (h.rest ⟨notes, hp⟩)

/-- A choice between orderly readers is orderly. -/
theorem orElse (h : p.Orderly) (h' : q.Orderly) : (p <|> q).Orderly where
  rest hr := (reads_orElse.1 hr).elim h.rest fun hr => h'.rest hr.2
  noted s := by
    have hfirst := h.noted s
    rw [run_orElse]
    cases hp : p.run s with
    | read v m notes => rwa [hp] at hfirst
    | blocked o =>
      rw [hp] at hfirst
      rw [Outcome.noted_after]
      exact (Obstacle.join?_grows hfirst (h'.noted s)).1

/-- To be blocked is orderly. -/
theorem stuck : (stuck : Reader α).Orderly where
  rest := fun ⟨_, h⟩ => nomatch h
  noted s o ho := by
    cases ho
    exact ⟨List.suffix_refl s, List.nodup_nil⟩

/-- A test of the next character is orderly. -/
theorem test (e : Expectation) (accepts : Char → Bool) : (test e accepts).Orderly where
  rest {s _ _} h := by
    obtain ⟨o, h⟩ := h
    cases s with
    | nil => cases h
    | cons c s =>
      rw [run_test] at h
      split at h <;> cases h
      exact List.suffix_cons _ _
  noted s := by
    cases s with
    | nil => rintro _ ⟨⟩; exact Obstacle.within_single e
    | cons c s =>
      rw [run_test]
      split
      · rintro _ ⟨⟩
      · rintro _ ⟨⟩
        exact Obstacle.within_single e

/-- A test for the end is orderly. -/
theorem ending : ending.Orderly where
  rest h := by
    obtain ⟨rfl, rfl⟩ := reads_ending.1 h
    exact List.suffix_refl _
  noted s := by
    cases s with
    | nil => rintro _ ⟨⟩
    | cons c s => rintro _ ⟨⟩; exact Obstacle.within_single .ending

/-- To skip white space is orderly. -/
theorem blanks : blanks.Orderly where
  rest := by
    rintro s v r ⟨o, h⟩
    cases h
    exact List.dropWhile_suffix isBlank
  noted _ _ ho := nomatch ho

/-- A repetition of an orderly reader up to a number is orderly. -/
theorem manyUpTo (h : p.Orderly) (n : Nat) : (manyUpTo p n).Orderly := by
  induction n with
  | zero => exact .pure []
  | succ n ih => exact (h.bind fun _ => ih.bind fun _ => .pure _).orElse (.pure [])

/-- A repetition of an orderly reader is orderly. -/
theorem many (h : p.Orderly) : (many p).Orderly where
  rest {s _ _} hr := (h.manyUpTo (s.length + 1)).rest hr
  noted s := (h.manyUpTo (s.length + 1)).noted s

end Orderly

end Reader

end FormulaSheet
