import FormulaSheet.Proofs.Notes
import FormulaSheet.Proofs.ParseSound

/-!
# Progress

A rule of the grammar is a function of the reader for what stands inside parentheses. `Guarded` says
how such functions are put together: of tests that pass no white space, by sequence, choice and
repetitions, where each round of a repetition makes a test that is passed, and with the reader for
the inside only behind a reader of an opening parenthesis. The rules are put together in this way
(`Grammar.rule_guarded`), and so each takes something other than white space off a text that it
reads (`Guarded.takes`), keeps what is noted (`Guarded.orderly`), and depends on the reader for the
inside behind opening parentheses only (`Guarded.run_congr`).
-/

namespace FormulaSheet

namespace Reader

/-- What the reader takes off the front of a text holds something other than white space. -/
def Takes (p : Reader α) : Prop :=
  ∀ ⦃s v r⦄, p.Reads s v r → ∃ m, s = m ++ r ∧ allBlank m = false

/-- What the reader takes off the front of a text holds an opening parenthesis. -/
def Opens (p : Reader α) : Prop :=
  ∀ ⦃s v r⦄, p.Reads s v r → ∃ m, s = m ++ r ∧ '(' ∈ m

/-- The readers agree on every end of the text that stands behind an opening parenthesis, and if one
has been read before, on every end. -/
def AgreeBehind (opened : Bool) (p q : Reader α) (s : List Char) : Prop :=
  ∀ m r, s = m ++ r → opened = true ∨ '(' ∈ m → p.run r = q.run r

section
variable {α β : Type} {p q : Reader α} {f g : α → Reader β} {s m r : List Char} {opened : Bool}

/-! ## Readers that take something -/

/-- A text is not blank if one of its parts is not. -/
theorem allBlank_append_eq_false : allBlank (m ++ r) = false ↔
    allBlank m = false ∨ allBlank r = false := by
  rw [allBlank, List.all_append, Bool.and_eq_false_iff, allBlank, allBlank]

namespace Takes

/-- A reader that takes something leaves less of the text. -/
theorem advances (h : p.Takes) : p.Advances := by
  intro s v r hr
  obtain ⟨m, rfl, hm⟩ := h hr
  have hpos : 0 < m.length := List.length_pos_of_ne_nil fun hnil => by rw [hnil] at hm; cases hm
  rw [List.length_append]
  omega

/-- A test takes a character that is no white space. -/
theorem test {accepts : Char → Bool} (h : ∀ c, accepts c = true → isBlank c = false)
    (e : Expectation) : (test e accepts).Takes := by
  rintro (- | ⟨c, s⟩) v r ⟨o, hr⟩
  · cases hr
  · rw [run_test] at hr
    split at hr
    · next hc =>
      cases hr
      exact ⟨[c], rfl, by rw [allBlank, List.all_cons, h c hc, Bool.false_and]⟩
    · cases hr

/-- A sequence takes something if its first part does. -/
theorem bind (h : p.Takes) (hf : ∀ v, (f v).Orderly) : (p >>= f).Takes := by
  intro s w r hr
  obtain ⟨v, t, hv, hnext⟩ := reads_bind.1 hr
  obtain ⟨m, rfl, hm⟩ := h hv
  obtain ⟨u, rfl⟩ := (hf v).rest hnext
  exact ⟨m ++ u, (List.append_assoc ..).symm, allBlank_append_eq_false.2 (.inl hm)⟩

/-- A choice takes something if both of its parts do. -/
theorem orElse (h : p.Takes) (h' : q.Takes) : (p <|> q).Takes := by
  intro s v r hr
  rcases reads_orElse.1 hr with hr | ⟨-, hr⟩
  · exact h hr
  · exact h' hr

end Takes

/-- A sequence takes something if its second part always does. -/
theorem Orderly.bind_takes (h : p.Orderly) (hf : ∀ v, (f v).Takes) : (p >>= f).Takes := by
  intro s w r hr
  obtain ⟨v, t, hv, hnext⟩ := reads_bind.1 hr
  obtain ⟨u, rfl⟩ := h.rest hv
  obtain ⟨m, rfl, hm⟩ := hf v hnext
  exact ⟨u ++ m, (List.append_assoc ..).symm, allBlank_append_eq_false.2 (.inr hm)⟩

/-! ## Readers that agree -/

/-- Readers that agree on a text agree on its ends. -/
theorem AgreeBehind.of_append {inner other : Reader Expr}
    (h : AgreeBehind opened inner other (m ++ r)) : AgreeBehind opened inner other r := by
  intro u t hr hu
  subst hr
  exact h (m ++ u) t (List.append_assoc ..).symm (hu.imp_right (List.mem_append_right m))

/-- Behind an opening parenthesis readers agree on every end. -/
theorem AgreeBehind.of_opened {inner other : Reader Expr}
    (h : AgreeBehind opened inner other (m ++ r)) (hm : '(' ∈ m) :
    AgreeBehind true inner other r := by
  intro u t hr _
  subst hr
  exact h (m ++ u) t (List.append_assoc ..).symm (.inr (List.mem_append_left u hm))

/-- Sequences agree if their first parts do, and then what goes on from there. -/
theorem run_bind_congr (h : p.run s = q.run s)
    (hf : ∀ v r, p.Reads s v r → (f v).run r = (g v).run r) :
    (p >>= f).run s = (q >>= g).run s := by
  rw [run_bind, run_bind, ← h]
  cases hp : p.run s with
  | read v r o =>
    dsimp only
    rw [hf v r ⟨o, hp⟩]
  | blocked o => rfl

/-- Choices agree if both parts do. -/
theorem run_orElse_congr {p' q' : Reader α} (h : p.run s = q.run s) (h' : p'.run s = q'.run s) :
    (p <|> p').run s = (q <|> q').run s := by
  rw [run_orElse, run_orElse, h, h']

/-- Repetitions agree if their readers do on all ends of the text. -/
theorem run_manyUpTo_congr (hp : p.Orderly) (h : ∀ r, r <:+ s → p.run r = q.run r) (n : Nat) :
    (manyUpTo p n).run s = (manyUpTo q n).run s := by
  induction n generalizing s with
  | zero => rfl
  | succ n ih =>
    refine run_orElse_congr (run_bind_congr (h s (List.suffix_refl s)) fun v m hv => ?_) rfl
    exact run_bind_congr (ih fun r hr => h r (hr.trans (hp.rest hv))) fun _ _ _ => rfl

end

end Reader

open Reader

/-! ## Guarded readers -/

/-- A reader, as a function of the reader for what stands inside parentheses, is put together such
that every repetition and the way to every inside makes progress. The first flag tells whether an
opening parenthesis has been read before, the second whether the reader takes something. -/
inductive Guarded : Bool → Bool → {α : Type} → (Reader Expr → Reader α) → Prop
  /-- The reader for the inside, which needs an opening parenthesis before it. -/
  | again : Guarded true true fun inner => inner
  | pure {opened : Bool} {α : Type} (v : α) : Guarded opened false fun _ => Pure.pure v
  | test {opened : Bool} {accepts : Char → Bool} :
      (∀ c, accepts c = true → isBlank c = false) → ∀ e : Expectation,
      Guarded opened true fun _ => Reader.test e accepts
  | blanks {opened : Bool} : Guarded opened false fun _ => Reader.blanks
  | ending {opened : Bool} : Guarded opened false fun _ => Reader.ending
  | first {opened : Bool} {α β : Type} {F : Reader Expr → Reader α}
      {G : α → Reader Expr → Reader β} : Guarded opened true F →
      (∀ v, Guarded opened false (G v)) →
      Guarded opened true fun inner => F inner >>= fun v => G v inner
  | next {opened taking : Bool} {α β : Type} {F : Reader Expr → Reader α}
      {G : α → Reader Expr → Reader β} : Guarded opened false F →
      (∀ v, Guarded opened taking (G v)) →
      Guarded opened taking fun inner => F inner >>= fun v => G v inner
  /-- A reader of an opening parenthesis and what stands behind it. -/
  | enter {opened : Bool} {α β : Type} {F : Reader Expr → Reader α}
      {G : α → Reader Expr → Reader β} : Guarded opened true F → (∀ inner, (F inner).Opens) →
      (∀ v, Guarded true false (G v)) →
      Guarded opened true fun inner => F inner >>= fun v => G v inner
  | choice {opened taking : Bool} {α : Type} {F G : Reader Expr → Reader α} :
      Guarded opened taking F → Guarded opened taking G →
      Guarded opened taking fun inner => F inner <|> G inner
  /-- A repetition whose rounds take something. -/
  | many {opened : Bool} {α : Type} {F : Reader Expr → Reader α} : Guarded opened true F →
      Guarded opened false fun inner => Reader.many (F inner)
  | weaken {opened : Bool} {α : Type} {F : Reader Expr → Reader α} : Guarded opened true F →
      Guarded opened false F

namespace Guarded

variable {opened taking : Bool} {α : Type} {F : Reader Expr → Reader α} {inner other : Reader Expr}
  {s : List Char}

/-- Guarded readers are orderly with an orderly reader for the inside. -/
theorem orderly (h : Guarded opened taking F) (hinner : inner.Orderly) : (F inner).Orderly := by
  induction h with
  | again => exact hinner
  | pure v => exact .pure v
  | test _ e => exact .test e _
  | blanks => exact .blanks
  | ending => exact .ending
  | first _ _ ih ih' | next _ _ ih ih' | enter _ _ _ ih ih' => exact ih.bind ih'
  | choice _ _ ih ih' => exact ih.orElse ih'
  | many _ ih => exact ih.many
  | weaken _ ih => exact ih

/-- Guarded readers take something as their flag tells, if the reader for the inside does. -/
theorem takes_of_eq (h : Guarded opened taking F) (hinner : inner.Orderly) (hi : inner.Takes)
    (ht : taking = true) : (F inner).Takes := by
  induction h with
  | again => exact hi
  | test ha e => exact .test ha e
  | first _ hG ih _ => exact (ih rfl).bind fun v => (hG v).orderly hinner
  | next hF _ _ ih => exact (hF.orderly hinner).bind_takes fun v => ih v ht
  | enter _ _ hG ih _ => exact (ih rfl).bind fun v => (hG v).orderly hinner
  | choice _ _ ih ih' => exact (ih ht).orElse (ih' ht)
  | pure | blanks | ending | many | weaken => cases ht

/-- With a reader for the inside that takes something, a guarded reader takes something. -/
theorem takes (h : Guarded opened true F) (hinner : inner.Orderly) (hi : inner.Takes) :
    (F inner).Takes :=
  h.takes_of_eq hinner hi rfl

/-- A guarded reader depends on the reader for the inside behind opening parentheses only. -/
theorem run_congr (h : Guarded opened taking F) (hinner : inner.Orderly)
    (hs : AgreeBehind opened inner other s) : (F inner).run s = (F other).run s := by
  induction h generalizing s with
  | again => exact hs [] s rfl (.inl rfl)
  | pure | test | blanks | ending => rfl
  | first hF _ ih ih' | next hF _ ih ih' =>
    -- the second part begins at an end of the text, where the readers agree as well
    refine run_bind_congr (ih hs) fun v r hr => ih' v ?_
    obtain ⟨m, rfl⟩ := (hF.orderly hinner).rest hr
    exact hs.of_append
  | enter _ hopens _ ih ih' =>
    -- behind the parenthesis they agree on every end
    refine run_bind_congr (ih hs) fun v r hr => ih' v ?_
    obtain ⟨m, rfl, hm⟩ := hopens inner hr
    exact hs.of_opened hm
  | choice _ _ ih ih' => exact run_orElse_congr (ih hs) (ih' hs)
  | many hF ih =>
    refine run_manyUpTo_congr (hF.orderly hinner) ?_ (s.length + 1)
    rintro r ⟨m, rfl⟩
    exact ih hs.of_append
  | weaken _ ih => exact ih hs

/-! ## Tokens -/

/-- White space around a guarded reader does not matter. -/
theorem padded (h : Guarded opened taking F) :
    Guarded opened taking fun inner => Reader.padded (F inner) := by
  refine .next .blanks fun _ => ?_
  cases taking with
  | true => exact .first h fun v => .next .blanks fun _ => .pure v
  | false => exact .next h fun v => .next .blanks fun _ => .pure v

/-- An option of a guarded reader that takes something is guarded and may take nothing. -/
theorem optionally (h : Guarded opened true F) :
    Guarded opened false fun inner => Reader.optionally (F inner) :=
  .choice (.next h.weaken fun v => .pure (some v)) (.pure none)

/-- A repetition of at least one round takes something. -/
theorem many1 (h : Guarded opened true F) :
    Guarded opened true fun inner => Reader.many1 (F inner) :=
  .first h fun v => .next h.many fun vs => .pure (v :: vs)

end Guarded

namespace Grammar

variable {opened : Bool} {α : Type} {c : Char} {word : String} {op : Reader BinaryOp}
  {F : Reader Expr → Reader Expr}

/-- A character that is no white space is guarded. -/
theorem character_guarded (hc : isBlank c = false) :
    Guarded opened true fun _ => character c :=
  .test (fun d hd => by rwa [beq_iff_eq.1 hd]) _

/-- A mark is guarded. -/
theorem mark_guarded (hc : c ∈ marks) (v : α) : Guarded opened true fun _ => mark c v :=
  .first (character_guarded (marks_not_blank c hc)).padded fun _ => .pure v

/-- A letter of a keyword is guarded. -/
theorem letter_guarded {l : Char} (hl : l ∈ keywordLetters) :
    Guarded opened true fun _ => kind (·.toLower == l) := by
  refine .test (fun c hc => ?_) .kind
  have hletter : isLetter c = true := isLetter_of_toLower (beq_iff_eq.1 hc ▸ hl)
  exact not_isBlank_of_isLetterOrNumeral (isLetterOrNumeral_of_isLetter hletter)

/-- The letters of a word are guarded. -/
theorem letters_guarded {w : List Char} (hw : ∀ l ∈ w, l ∈ keywordLetters) :
    Guarded opened false fun _ => letters w := by
  induction w with
  | nil => exact .pure ()
  | cons l w ih =>
    obtain ⟨hl, hw⟩ := List.forall_mem_cons.1 hw
    exact .next (letter_guarded hl).weaken fun _ => ih hw

/-- A keyword is guarded. -/
theorem keyword_guarded (hword : word ∈ keywords) (v : α) :
    Guarded opened true fun _ => keyword word v := by
  obtain ⟨hne, hletters⟩ := keywords_spec word hword
  obtain ⟨l, w, hlw⟩ := List.exists_cons_of_ne_nil hne
  rw [hlw] at hletters
  obtain ⟨hl, hw⟩ := List.forall_mem_cons.1 hletters
  have hspelled : Guarded opened true fun _ => letters word.toList := by
    rw [hlw]
    exact .first (letter_guarded hl) fun _ => letters_guarded hw
  exact .first hspelled.padded fun _ => .pure v

/-- A digit is guarded. -/
theorem digit_guarded : Guarded false true fun _ => digit :=
  .test (fun _ hc => not_isBlank_of_isDigit hc) .kind

/-- A decimal number is guarded. -/
theorem decimal_guarded : Guarded false true fun _ => decimal := by
  have hpoint : Guarded false true fun _ => character '.' := character_guarded (by decide)
  refine .choice ?_ ?_
  · refine .first digit_guarded.many1 fun whole => .next ?_ fun fraction => .pure _
    exact Guarded.optionally (.first hpoint fun _ => digit_guarded.many)
  · exact .first hpoint fun _ => .next digit_guarded.many1.weaken fun _ => .pure _

/-- A number is guarded. -/
theorem number_guarded : Guarded false true fun _ => number :=
  .first decimal_guarded.padded fun d => .pure (Expr.number d.toFloat)

/-- The name of a cell is guarded. -/
theorem cellName_guarded : Guarded false true fun _ => cellName := by
  have hfirst : Guarded false true fun _ => kind isLetter :=
    .test (fun _ hc => not_isBlank_of_isLetterOrNumeral (isLetterOrNumeral_of_isLetter hc)) .kind
  have hrest : Guarded false true fun _ => kind isLetterOrNumeral :=
    .test (fun _ hc => not_isBlank_of_isLetterOrNumeral hc) .kind
  exact .first hfirst fun _ => .next hrest.many fun _ => .pure _

/-- A reference is guarded. -/
theorem reference_guarded : Guarded false true fun _ => reference :=
  .first cellName_guarded.padded fun name => .pure (Expr.cell name)

/-! ## Atoms -/

/-- What a reader of an opening parenthesis takes off a text holds one. -/
theorem mark_opens (v : α) : (mark '(' v).Opens := by
  intro s v' r h
  obtain ⟨-, m, hs, rfl⟩ := reads_mark.1 h
  obtain ⟨w, -, hw⟩ := exists_blank_append s
  obtain ⟨w', -, hw'⟩ := exists_blank_append m
  refine ⟨w ++ '(' :: w', ?_, by simp⟩
  rw [List.append_assoc, List.cons_append, ← hw', ← hs, ← hw]

/-- A group is guarded: it enters its inside behind a parenthesis. -/
theorem group_guarded : Guarded false true group := by
  refine .enter (mark_guarded (by decide) ()) (fun _ => mark_opens ()) fun _ => ?_
  refine .next (.weaken .again) fun e => ?_
  exact .next (mark_guarded (by decide) ()).weaken fun _ => .pure e

/-- The name of a function is guarded. -/
theorem functionName_guarded : Guarded false true fun _ => functionName :=
  .choice (keyword_guarded (by decide) _) (keyword_guarded (by decide) _)

/-- A call is guarded: it enters its arguments behind a parenthesis. -/
theorem call_guarded : Guarded false true call := by
  refine .first functionName_guarded fun function => .weaken ?_
  refine .enter (mark_guarded (by decide) ()) (fun _ => mark_opens ()) fun _ => ?_
  refine .next (.weaken .again) fun first => ?_
  refine .next (mark_guarded (by decide) ()).weaken fun _ => ?_
  refine .next (.weaken .again) fun second => ?_
  exact .next (mark_guarded (by decide) ()).weaken fun _ => .pure _

/-- An atom is guarded. -/
theorem atom_guarded : Guarded false true atom :=
  .choice number_guarded (.choice group_guarded (.choice call_guarded reference_guarded))

/-! ## Operators -/

/-- A sign is guarded. -/
theorem sign_guarded : Guarded false true fun _ => signReader :=
  .choice (keyword_guarded (by decide) _) (mark_guarded (by decide) _)

/-- A signed operand is guarded. -/
theorem signed_guarded : Guarded false true signed :=
  .next sign_guarded.many fun _ => .first atom_guarded fun _ => .pure _

/-- An operator with its right operand is guarded. -/
theorem operation_guarded (hop : Guarded false true fun _ => op) (h : Guarded false true F) :
    Guarded false true fun inner => operation op (F inner) :=
  .first hop fun _ => .next h.weaken fun _ => .pure _

/-- A chain is guarded if its operands are. -/
theorem chain_guarded (hop : Guarded false true fun _ => op) (h : Guarded false true F) :
    Guarded false true fun inner => chain op (F inner) :=
  .first h fun _ => .next (operation_guarded hop h).many fun _ => .pure _

/-- A comparison is guarded if its sums are. -/
theorem comparison_guarded (h : Guarded false true sum) : Guarded false true comparison := by
  have hop : Guarded false true fun _ => Rule.comparison.operator :=
    .choice (mark_guarded (by decide) _)
      (.choice (mark_guarded (by decide) _) (mark_guarded (by decide) _))
  rw [funext Rule.comparison_eq]
  exact .first h fun _ => .next (operation_guarded hop h).optionally fun _ => .pure _

/-- Every rule is guarded. -/
theorem rule_guarded (rule : Rule) : Guarded false true fun inner => rule.reader inner := by
  have hproduct : Guarded false true product :=
    chain_guarded (.choice (mark_guarded (by decide) _) (mark_guarded (by decide) _)) signed_guarded
  have hsum : Guarded false true sum :=
    chain_guarded (.choice (mark_guarded (by decide) _) (mark_guarded (by decide) _)) hproduct
  have hcomparison : Guarded false true comparison := comparison_guarded hsum
  have hconjunction : Guarded false true conjunction :=
    chain_guarded (keyword_guarded (by decide) _) hcomparison
  cases rule with
  | atom => exact atom_guarded
  | signed => exact signed_guarded
  | product => exact hproduct
  | sum => exact hsum
  | comparison => exact hcomparison
  | conjunction => exact hconjunction
  | disjunction => exact chain_guarded (keyword_guarded (by decide) _) hconjunction

end Grammar

end FormulaSheet
