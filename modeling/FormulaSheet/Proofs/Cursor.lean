import FormulaSheet.Proofs.TokenReaders

/-!
# Cursors

How far a formula has been written, as far as that decides how it can go on: what stands just before
the cursor (`Place`), whether the comparison there has its operator already, and the parentheses
that are open. `Cursor.step` puts one more character behind the cursor, or there is none that can
come next. Every cursor can be completed to a formula (`Cursor.completes`), and `Cursor.expected`
lists what can come next.
-/

namespace FormulaSheet

/-! ## Places -/

/-- What an open parenthesis encloses. -/
inductive Enclosure where
  /-- A group. -/
  | group
  /-- The first argument of a call. -/
  | first
  /-- The second argument of a call. -/
  | second
  deriving DecidableEq

/-- An open parenthesis, and whether the comparison that it stands in has its operator. -/
structure Frame where
  enclosure : Enclosure
  compared : Bool

/-- What stands just before a cursor. -/
inductive Place where
  /-- Nothing, or something that an operand must follow, and white space. -/
  | operator
  /-- A name, or the beginning of one or of a word. -/
  | word (w : List Char)
  /-- The name of a function, and white space. -/
  | function
  /-- The digits of a number before its point. -/
  | whole
  /-- A number with its point. -/
  | fraction
  /-- A point that needs a digit behind it. -/
  | point
  /-- An operand that cannot be longer. -/
  | operand
  /-- The first letter of `and`. -/
  | a
  /-- The first two letters of `and`. -/
  | an
  /-- The first letter of `or`. -/
  | o

/-- Whether an operand may end at a place. -/
def Place.complete : Place → Bool
  | .word _ | .function | .whole | .fraction | .operand => true
  | .operator | .point | .a | .an | .o => false

/-- A place in a text, with what decides how the text can go on. -/
structure Cursor where
  place : Place
  compared : Bool
  frames : List Frame

/-- The mark that ends what an open parenthesis encloses. -/
def Frame.closer (f : Frame) : Char :=
  match f.enclosure with
  | .first => ','
  | .group | .second => ')'

/-- The cursor behind the mark that ends what an open parenthesis encloses. -/
def Frame.closed (f : Frame) (outer : List Frame) : Cursor :=
  match f.enclosure with
  | .first => ⟨.operator, false, ⟨.second, f.compared⟩ :: outer⟩
  | .group | .second => ⟨.operand, f.compared, outer⟩

/-- Whether letters spell the name of a function. -/
def isFunction (w : List Char) : Bool :=
  w.map Char.toLower = ['m', 'a', 'x'] || w.map Char.toLower = ['m', 'i', 'n']

namespace Cursor

/-! ## Steps -/

/-- The cursor before a text. -/
def start : Cursor := ⟨.operator, false, []⟩

/-- The cursor behind an opening parenthesis. -/
def enter (q : Cursor) (e : Enclosure) : Cursor :=
  ⟨.operator, false, ⟨e, q.compared⟩ :: q.frames⟩

/-- Puts the mark that ends what the innermost parenthesis encloses behind the cursor. -/
def close (q : Cursor) (c : Char) : Option Cursor :=
  match q.frames with
  | [] => none
  | f :: outer => if c = f.closer then some (f.closed outer) else none

/-- Puts a character behind an operand that it does not belong to. -/
def operate (q : Cursor) (c : Char) : Option Cursor :=
  match levelOf c with
  | 0 => if isBlank c then some { q with place := .operand } else none
  | 1 | 2 => some { q with place := .operator }
  | 3 => if q.compared then none else some { q with place := .operator, compared := true }
  | 4 => some { q with place := .a }
  | 5 => some { q with place := .o }
  | _ => q.close c

/-- Puts a character where an operand is to begin. -/
def operandStep (q : Cursor) (c : Char) : Option Cursor :=
  if isBlank c then some q
  else if c = '-' then some q
  else if c = '(' then some (q.enter .group)
  else if c = '.' then some { q with place := .point }
  else if c.isDigit then some { q with place := .whole }
  else if isLetter c then some { q with place := .word [c] }
  else none

/-- Puts a character behind letters. -/
def wordStep (q : Cursor) (w : List Char) (c : Char) : Option Cursor :=
  if (w ++ [c]).map Char.toLower = ['n', 'o', 't'] then some { q with place := .operator }
  else if isLetterOrNumeral c then some { q with place := .word (w ++ [c]) }
  else if isFunction w && c == '(' then some (q.enter .first)
  else if isFunction w && isBlank c then some { q with place := .function }
  else q.operate c

/-- Puts a character behind a cursor, if it can stand there. -/
def step (q : Cursor) (c : Char) : Option Cursor :=
  match q.place with
  | .operator => q.operandStep c
  | .word w => q.wordStep w c
  | .function =>
    if isBlank c then some q else if c = '(' then some (q.enter .first) else q.operate c
  | .whole =>
    if c.isDigit then some q else if c = '.' then some { q with place := .fraction }
    else q.operate c
  | .fraction => if c.isDigit then some q else q.operate c
  | .point => if c.isDigit then some { q with place := .fraction } else none
  | .operand => q.operate c
  | .a => if c.toLower = 'n' then some { q with place := .an } else none
  | .an => if c.toLower = 'd' then some ⟨.operator, false, q.frames⟩ else none
  | .o => if c.toLower = 'r' then some ⟨.operator, false, q.frames⟩ else none

/-- The cursor behind a text that is put behind a cursor. -/
def advance (q : Cursor) : List Char → Option Cursor
  | [] => some q
  | c :: cs => (q.step c).bind (·.advance cs)

/-- Whether a text may end at a cursor. -/
def accepting (q : Cursor) : Bool := q.place.complete && q.frames.isEmpty

/-! ## Expectations -/

/-- The tests that an operand makes behind itself. -/
def inside : Place → List Expectation
  | .word w => (if isFunction w then [.character '('] else []) ++ [.kind]
  | .function => [.character '(']
  | .whole => [.kind, .character '.']
  | .fraction => [.kind]
  | _ => []

/-- The tests for the operators of a level. -/
def operatorLabels (compared : Bool) : Nat → List Expectation
  | 1 => [.character '*', .character '/']
  | 2 => [.character '+', .character '-']
  | 3 => if compared then [] else [.character '=', .character '<', .character '>']
  | 4 | 5 => [.kind]
  | _ => []

/-- The tests behind an operand up to the operators of a level. -/
def labels (q : Cursor) : Nat → List Expectation
  | 0 => inside q.place
  | k + 1 => merge (q.labels k) (operatorLabels q.compared (k + 1))

/-- The test for the end of what is open. -/
def closers (q : Cursor) : List Expectation :=
  match q.frames with
  | [] => [.ending]
  | f :: _ => [.character f.closer]

/-- What may stand behind a cursor, in the order of the tests. -/
def expected (q : Cursor) : List Expectation :=
  match q.place with
  | .operator => [.kind, .character '-', .character '.', .character '(']
  | .point | .a | .an | .o => [.kind]
  | .word _ | .function | .whole | .fraction | .operand => merge (q.labels 5) q.closers

variable {q q' q'' : Cursor} {s r m u v : List Char} {c : Char}

/-- Behind a complete operand a cursor expects what can lengthen it, the operators and the mark that
closes. -/
theorem expected_of_complete (h : q.place.complete = true) :
    q.expected = merge (q.labels 5) q.closers := by
  obtain ⟨place, b, fs⟩ := q
  cases place <;> first | rfl | cases h

/-! ## Walks -/

@[simp] theorem advance_nil (q : Cursor) : q.advance [] = some q := rfl

/-- A cursor goes over a text character by character. -/
theorem advance_cons (q : Cursor) (c : Char) (s : List Char) :
    q.advance (c :: s) = (q.step c).bind (·.advance s) := rfl

/-- A cursor goes over one text and then over the next. -/
theorem advance_append (q : Cursor) (u v : List Char) :
    q.advance (u ++ v) = (q.advance u).bind (·.advance v) := by
  induction u generalizing q with
  | nil => rfl
  | cons c u ih =>
    rw [List.cons_append, advance_cons, advance_cons, Option.bind_assoc]
    congr 1
    funext q'
    exact ih q'

/-- A cursor gets over the front of a text up to the rest. -/
def Walks (q : Cursor) (s : List Char) (q' : Cursor) (r : List Char) : Prop :=
  ∃ u, s = u ++ r ∧ q.advance u = some q'

/-- A cursor that goes over nothing stays. -/
theorem Walks.refl (q : Cursor) (s : List Char) : q.Walks s q s := ⟨[], rfl, rfl⟩

/-- A walk can begin with a step. -/
theorem Walks.step (h : q.step c = some q') (hw : q'.Walks s q'' r) : q.Walks (c :: s) q'' r := by
  obtain ⟨u, rfl, hu⟩ := hw
  exact ⟨c :: u, rfl, by rw [advance_cons, h, Option.bind_some, hu]⟩

/-- Walks can be put one after the other. -/
theorem Walks.trans (h : q.Walks s q' m) (h' : q'.Walks m q'' r) : q.Walks s q'' r := by
  obtain ⟨u, rfl, hu⟩ := h
  obtain ⟨v, rfl, hv⟩ := h'
  exact ⟨u ++ v, (List.append_assoc u v r).symm, by rw [advance_append, hu, Option.bind_some, hv]⟩

/-- A walk leaves no more of a text than there was. -/
theorem Walks.length_le (h : q.Walks s q' r) : r.length ≤ s.length := by
  obtain ⟨u, rfl, -⟩ := h
  simp

/-- A cursor that stays where it is for each of some characters gets over them. -/
theorem Walks.of_stays (h : ∀ c ∈ u, q.step c = some q) (r : List Char) :
    q.Walks (u ++ r) q r := by
  induction u with
  | nil => exact .refl q r
  | cons c u ih =>
    exact .step (h c List.mem_cons_self) (ih fun d hd => h d (List.mem_cons_of_mem c hd))

/-! ## Behind an operand -/

/-- What a character does behind a name that it does not belong to. -/
theorem step_word (hd : isLetterOrNumeral c = false) (w : List Char) :
    step { q with place := .word w } c =
      if isFunction w && c == '(' then some (q.enter .first)
      else if isFunction w && isBlank c then some { q with place := .function }
      else operate { q with place := .word w } c := by
  have hnot : (w ++ [c]).map Char.toLower ≠ ['n', 'o', 't'] := by
    intro h
    have hc : c.toLower = 't' := by
      have := congrArg List.getLast? h
      simpa using this
    rw [isLetterOrNumeral_of_isLetter (isLetter_of_toLower (by rw [hc]; decide))] at hd
    cases hd
  simp only [step, wordStep, if_neg hnot, hd, Bool.false_eq_true, if_false]
  rfl

/-- Behind an operand the marks of a level above 0 do what they do there, whatever the operand. -/
theorem step_of_level (hq : q.place.complete = true) (hc : 0 < levelOf c)
    (hl : isLetterOrNumeral c = false) : q.step c = q.operate c := by
  obtain ⟨hb, hdigit, hpar, hdot, -⟩ := leading_spec c (mem_leading hc)
  obtain ⟨place, compared, frames⟩ := q
  cases place with
  | word w =>
    rw [step_word (q := ⟨.operand, compared, frames⟩) hl, hb, beq_eq_false_iff_ne.2 hpar,
      Bool.and_false]
    rfl
  | function => simp [step, hb, hpar]
  | whole => simp [step, hdigit, hdot]
  | fraction => simp [step, hdigit]
  | operand => rfl
  | operator | point | a | an | o => cases hq

/-! ## Completions -/

/-- The text behind a cursor can be completed to a formula. -/
def Completes (q : Cursor) : Prop := ∃ t q', q.advance t = some q' ∧ q'.accepting = true

/-- A cursor that gets by a step to one that can be completed can be completed too. -/
theorem Completes.of_step (h : q.step c = some q') (hq : q'.Completes) : q.Completes := by
  obtain ⟨t, q'', ht, ha⟩ := hq
  exact ⟨c :: t, q'', by rw [advance_cons, h, Option.bind_some, ht], ha⟩

/-- The mark that ends what is enclosed takes a cursor behind a complete operand out of it. -/
theorem step_close {f : Frame} {outer : List Frame} (hq : q.place.complete = true)
    (hf : q.frames = f :: outer) : q.step f.closer = some (f.closed outer) := by
  have hcloser : f.closer = ',' ∨ f.closer = ')' := by
    obtain ⟨enclosure, compared⟩ := f
    cases enclosure with
    | first => exact .inl rfl
    | group | second => exact .inr rfl
  have hclose : q.close f.closer = some (f.closed outer) := by
    rw [close, hf]
    exact if_pos rfl
  rcases hcloser with h | h <;>
  · rw [h] at hclose ⊢
    rw [step_of_level hq (by decide) (by decide)]
    exact hclose

/-- Behind an operand the open parentheses can be closed one after the other. -/
theorem completes_of_complete (frames : List Frame) {q : Cursor} (hf : q.frames = frames)
    (hq : q.place.complete = true) : q.Completes := by
  induction frames generalizing q with
  | nil => exact ⟨[], q, rfl, by rw [accepting, hq, hf]; rfl⟩
  | cons f outer ih =>
    obtain ⟨enclosure, compared⟩ := f
    cases enclosure with
    | group | second => exact .of_step (step_close hq hf) (ih rfl rfl)
    | first =>
      -- a call needs its second argument before it can be closed
      have hoperand : Completes ⟨.whole, false, ⟨.second, compared⟩ :: outer⟩ :=
        .of_step (step_close rfl rfl) (ih rfl rfl)
      exact .of_step (step_close hq hf) (.of_step (c := '1') rfl hoperand)

/-- Wherever a cursor is, the text can be completed to a formula. -/
theorem completes (q : Cursor) : q.Completes := by
  have hoperator : ∀ compared frames, Completes ⟨.operator, compared, frames⟩ :=
    fun compared frames => .of_step (c := '1') rfl (completes_of_complete frames rfl rfl)
  obtain ⟨place, compared, frames⟩ := q
  cases place with
  | word | function | whole | fraction | operand => exact completes_of_complete frames rfl rfl
  | operator => exact hoperator compared frames
  | point => exact .of_step (c := '1') rfl (completes_of_complete frames rfl rfl)
  | a => exact .of_step (c := 'n') rfl (.of_step (c := 'd') rfl (hoperator false frames))
  | an => exact .of_step (c := 'd') rfl (hoperator false frames)
  | o => exact .of_step (c := 'r') rfl (hoperator false frames)

end Cursor

end FormulaSheet
