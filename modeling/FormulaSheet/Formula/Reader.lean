import FormulaSheet.Text.Blank

/-!
# Readers

A reader takes a value off the front of a text or is blocked. Choices are ordered and repetitions
greedy, and a reader that is blocked gives its place back. On its way a reader notes each test of a
character that fails. Of these notes only those at the furthest place are kept, in the order of the
tests, whether the reader then goes on from an earlier place or not.
-/

namespace FormulaSheet

/-- What a failed test would have let pass. -/
inductive Expectation where
  /-- This very character. -/
  | character (c : Char)
  /-- Some character of a kind, as a digit or a letter. -/
  | kind
  /-- The end of the text. -/
  | ending
  deriving Repr, DecidableEq

/-- The furthest place where tests failed, given by the text that is left there, and what they would
have let pass, each once and in the order of the tests. -/
structure Obstacle where
  rest : List Char
  expected : List Expectation
  deriving DecidableEq

/-- The obstacle of a run with an earlier and a later part. -/
def Obstacle.join (earlier later : Obstacle) : Obstacle :=
  if later.rest.length < earlier.rest.length then later
  else if earlier.rest.length < later.rest.length then earlier
  else ⟨earlier.rest, earlier.expected ++ later.expected.filter (!earlier.expected.elem ·)⟩

/-- The obstacle of a run whose earlier part may have met none. -/
def Obstacle.after (earlier : Option Obstacle) (later : Obstacle) : Obstacle :=
  match earlier with
  | none => later
  | some earlier => earlier.join later

/-- The obstacle of a run both of whose parts may have met none. -/
def Obstacle.join? (earlier later : Option Obstacle) : Option Obstacle :=
  match later with
  | none => earlier
  | some later => some (later.after earlier)

/-- What a reader makes of a text: a value and the text that is left, or nothing. -/
inductive Outcome (α : Type) where
  | read (value : α) (rest : List Char) (obstacle : Option Obstacle)
  | blocked (obstacle : Obstacle)

/-- The outcome of a run that met `earlier` before the part with the given outcome. -/
def Outcome.after (earlier : Option Obstacle) : Outcome α → Outcome α
  | read value rest later => read value rest (Obstacle.join? earlier later)
  | blocked later => blocked (later.after earlier)

/-- A reader of values. -/
structure Reader (α : Type) where
  /-- What the reader makes of a text. -/
  run : List Char → Outcome α

namespace Reader

/-! ## Sequence and choice -/

/-- Reads nothing and gives a value. -/
protected def pure (value : α) : Reader α := ⟨fun text => .read value text none⟩

/-- Reads with one reader and then, where it stopped, with the next. -/
protected def bind (first : Reader α) (next : α → Reader β) : Reader β :=
  ⟨fun text =>
    match first.run text with
    | .read value rest obstacle => ((next value).run rest).after obstacle
    | .blocked obstacle => .blocked obstacle⟩

instance : Monad Reader where
  pure := Reader.pure
  bind := Reader.bind

/-- Reads with the second reader if the first is blocked, from the same place. -/
protected def orElse (first : Reader α) (second : Unit → Reader α) : Reader α :=
  ⟨fun text =>
    match first.run text with
    | .read value rest obstacle => .read value rest obstacle
    | .blocked obstacle => ((second ()).run text).after (some obstacle)⟩

instance : OrElse (Reader α) := ⟨Reader.orElse⟩

/-- Reads nothing at any place and notes nothing. -/
def stuck : Reader α := ⟨fun text => .blocked ⟨text, []⟩⟩

/-! ## Tests -/

/-- Reads the next character if it passes the test. -/
def test (expectation : Expectation) (accepts : Char → Bool) : Reader Char :=
  ⟨fun text =>
    match text with
    | [] => .blocked ⟨[], [expectation]⟩
    | c :: rest => if accepts c then .read c rest none else .blocked ⟨c :: rest, [expectation]⟩⟩

/-- Reads this very character. -/
def character (c : Char) : Reader Char := test (.character c) (· == c)

/-- Reads a character of a kind. -/
def kind (accepts : Char → Bool) : Reader Char := test .kind accepts

/-- Reads the end of the text. -/
def ending : Reader Unit :=
  ⟨fun text =>
    match text with
    | [] => .read () [] none
    | c :: rest => .blocked ⟨c :: rest, [.ending]⟩⟩

/-! ## White space -/

/-- Reads white space as far as it goes, which is no test. -/
def blanks : Reader Unit := ⟨fun text => .read () (skipBlanks text) none⟩

/-- Reads white space around a value. -/
def padded (reader : Reader α) : Reader α := do
  blanks
  let value ← reader
  blanks
  return value

/-! ## Repetition -/

/-- Reads a value if it can. -/
def optionally (reader : Reader α) : Reader (Option α) :=
  (do return some (← reader)) <|> pure none

/-- Reads as many values as it can, up to a number. -/
def manyUpTo (reader : Reader α) : Nat → Reader (List α)
  | 0 => pure []
  | n + 1 =>
    (do
      let value ← reader
      let more ← manyUpTo reader n
      return value :: more) <|> pure []

/-- Reads as many values as it can. A reader that takes at least a character for each value is
blocked before the number of characters in the text is exceeded. -/
def many (reader : Reader α) : Reader (List α) :=
  ⟨fun text => (manyUpTo reader (text.length + 1)).run text⟩

/-- Reads as many values as it can, and at least one. -/
def many1 (reader : Reader α) : Reader (List α) := do
  let value ← reader
  let more ← many reader
  return value :: more

end Reader

end FormulaSheet
