import FormulaSheet.Proofs.Names
import FormulaSheet.Proofs.ParseSound
import Mathlib.Data.List.Forall2

/-!
# The case of letters in formulas

Texts that differ in the case of ASCII letters only (`SameButCase`) are read alike: `Reader.Alike`
relates what readers make of such texts, values by a relation of their own, the texts that are left
and the obstacles up to case again. Each combinator keeps it, so each rule of the grammar has it,
the names of cells being the only values that show the case of a text. `parse_alike` says what this
means for parsing: the expressions are equal up to the case of names, and the errors up to the case
of the character that was found.
-/

namespace FormulaSheet

/-! ## Texts -/

/-- The texts differ in the case of ASCII letters only. -/
def SameButCase : List Char → List Char → Prop := List.Forall₂ fun c d => c.toLower = d.toLower

/-- The kind of characters does not depend on case. -/
def IgnoresCase (accepts : Char → Bool) : Prop := ∀ c, accepts c.toLower = accepts c

section
variable {s t u v : List Char} {c d : Char} {accepts : Char → Bool}

/-- A kind that does not depend on case is the same for both cases of a letter. -/
theorem IgnoresCase.eq (h : IgnoresCase accepts) (hcd : c.toLower = d.toLower) :
    accepts c = accepts d := by
  rw [← h c, hcd, h d]

/-- White space has no case. -/
theorem ignoresCase_isBlank : IgnoresCase isBlank := apply_toLower isBlank (by decide)

/-- Digits have no case. -/
theorem ignoresCase_isDigit : IgnoresCase Char.isDigit := apply_toLower Char.isDigit (by decide)

/-- Both cases of a letter are letters. -/
theorem ignoresCase_isLetter : IgnoresCase isLetter := apply_toLower isLetter (by decide)

/-- Both cases of a letter are letters or numerals. -/
theorem ignoresCase_isLetterOrNumeral : IgnoresCase isLetterOrNumeral :=
  apply_toLower isLetterOrNumeral (by decide)

/-- To take the small letter twice is to take it once. -/
theorem toLower_toLower (c : Char) : c.toLower.toLower = c.toLower :=
  apply_toLower Char.toLower (by decide) c

/-- Whether the small letter of a character is a given one does not depend on its case. -/
theorem ignoresCase_letter (l : Char) : IgnoresCase (·.toLower == l) := fun c =>
  congrArg (· == l) (toLower_toLower c)

/-- The marks of the language and the point have no case. -/
theorem ignoresCase_mark : ∀ m ∈ '.' :: marks, IgnoresCase (· == m) := by
  have hcapitals : ∀ m ∈ '.' :: marks, ∀ d < 26,
      ((Char.ofNat (65 + d)).toLower == m) = (Char.ofNat (65 + d) == m) :=
    List.all_iff_forall_prop.1 (by decide)
  exact fun m hm => apply_toLower (· == m) (hcapitals m hm)

/-- A digit is its own small letter. -/
theorem toLower_of_isDigit (h : c.isDigit = true) : c.toLower = c := by
  refine dif_neg fun hupper => ?_
  obtain ⟨-, hlast⟩ := isDigit_iff.1 h
  obtain ⟨hfirst, -⟩ := isUpper_iff.1 (decide_eq_true hupper : c.isUpper = true)
  omega

namespace SameButCase

/-- A text is the same as itself. -/
theorem refl (s : List Char) : SameButCase s s := List.forall₂_same.2 fun _ _ => rfl

/-- Texts that are the same but for case are equally long. -/
theorem length_eq (h : SameButCase s t) : s.length = t.length := List.Forall₂.length_eq h

/-- The texts have the same small letters. -/
theorem map_toLower (h : SameButCase s t) : s.map Char.toLower = t.map Char.toLower := by
  induction h with
  | nil => rfl
  | cons hc _ ih => rw [List.map_cons, List.map_cons, hc, ih]

/-- Kinds that do not depend on case are dropped alike. -/
theorem dropWhile (h : SameButCase s t) (ha : IgnoresCase accepts) :
    SameButCase (s.dropWhile accepts) (t.dropWhile accepts) := by
  induction h with
  | nil => exact .nil
  | cons hc hs ih =>
    rw [List.dropWhile_cons, List.dropWhile_cons, ha.eq hc]
    split
    · exact ih
    · exact .cons hc hs

/-- Texts that are the same but for case are of a kind together. -/
theorem all (h : SameButCase s t) (ha : IgnoresCase accepts) : s.all accepts = t.all accepts := by
  induction h with
  | nil => rfl
  | cons hc _ ih => rw [List.all_cons, List.all_cons, ha.eq hc, ih]

end SameButCase

end

/-! ## Outcomes -/

/-- The obstacles lie at texts that are the same but for case, and hold the same expectations. -/
structure Obstacle.Alike (o p : Obstacle) : Prop where
  rest : SameButCase o.rest p.rest
  expected : o.expected = p.expected

/-- The outcomes have alike values, texts and obstacles. -/
inductive Outcome.Alike {α β : Type} (R : α → β → Prop) : Outcome α → Outcome β → Prop
  | read {v : α} {w : β} {s t : List Char} {o p : Option Obstacle} : R v w → SameButCase s t →
      Option.Rel Obstacle.Alike o p → Alike R (.read v s o) (.read w t p)
  | blocked {o p : Obstacle} : o.Alike p → Alike R (.blocked o) (.blocked p)

section
variable {α β : Type} {R : α → β → Prop} {o o' p p' : Obstacle} {x x' y y' : Option Obstacle}

/-- Alike obstacles of the parts make alike obstacles of the whole. -/
theorem Obstacle.Alike.join (h : o.Alike p) (h' : o'.Alike p') : (o.join o').Alike (p.join p') := by
  rw [Obstacle.join, Obstacle.join, h.rest.length_eq, h'.rest.length_eq, h.expected, h'.expected]
  split
  · exact h'
  split
  · exact h
  · exact ⟨h.rest, rfl⟩

/-- An obstacle stays alike after alike earlier ones. -/
theorem Obstacle.Alike.after (h : o.Alike p) (hx : Option.Rel Obstacle.Alike x y) :
    (o.after x).Alike (p.after y) := by
  cases hx with
  | none => exact h
  | some hx => exact hx.join h

/-- Alike obstacles stay so when either part may have met none. -/
theorem alike_join? (hx : Option.Rel Obstacle.Alike x y) (hx' : Option.Rel Obstacle.Alike x' y') :
    Option.Rel Obstacle.Alike (Obstacle.join? x x') (Obstacle.join? y y') := by
  cases hx' with
  | none => exact hx
  | some hx' => exact .some (hx'.after hx)

/-- Outcomes stay alike after alike obstacles. -/
theorem Outcome.Alike.after {out : Outcome α} {out' : Outcome β} (h : out.Alike R out')
    (hx : Option.Rel Obstacle.Alike x y) : (out.after x).Alike R (out'.after y) := by
  cases h with
  | read hv hs ho => exact .read hv hs (alike_join? hx ho)
  | blocked ho => exact .blocked (ho.after hx)

end

/-! ## Readers -/

namespace Reader

/-- What the readers make of texts that are the same but for case is alike. -/
def Alike {α β : Type} (R : α → β → Prop) (p : Reader α) (q : Reader β) : Prop :=
  ∀ ⦃s t : List Char⦄, SameButCase s t → (p.run s).Alike R (q.run t)

namespace Alike

variable {α β γ δ : Type} {R : α → β → Prop} {S : γ → δ → Prop} {p p' : Reader α} {q q' : Reader β}
  {f : α → Reader γ} {g : β → Reader δ} {v : α} {w : β} {accepts : Char → Bool}

/-- To give alike values is alike. -/
theorem pure (h : R v w) : Alike R (Pure.pure v) (Pure.pure w) := fun _ _ hs =>
  .read h hs .none

/-- Alike readers that go on alike are alike. -/
theorem bind (h : Alike R p q) (hf : ∀ {v w}, R v w → Alike S (f v) (g w)) :
    Alike S (p >>= f) (q >>= g) := by
  intro s t hs
  rw [run_bind, run_bind]
  have hfirst := h hs
  generalize p.run s = out at hfirst ⊢
  generalize q.run t = out' at hfirst ⊢
  cases hfirst with
  | read hv hr ho => exact (hf hv hr).after ho
  | blocked ho => exact .blocked ho

/-- Choices between alike readers are alike. -/
theorem orElse (h : Alike R p q) (h' : Alike R p' q') : Alike R (p <|> p') (q <|> q') := by
  intro s t hs
  rw [run_orElse, run_orElse]
  have hfirst := h hs
  generalize p.run s = out at hfirst ⊢
  generalize q.run t = out' at hfirst ⊢
  cases hfirst with
  | read hv hr ho => exact .read hv hr ho
  | blocked ho => exact (h' hs).after (.some ho)

/-- The reader that is always blocked is alike to itself. -/
theorem stuck : Alike R Reader.stuck Reader.stuck := fun _ _ hs => .blocked ⟨hs, rfl⟩

/-- A test that ignores case passes characters that are alike. -/
theorem test {R : Char → Char → Prop} (ha : IgnoresCase accepts) (e : Expectation)
    (hR : ∀ {c d : Char}, c.toLower = d.toLower → accepts c = true → accepts d = true → R c d) :
    Alike R (Reader.test e accepts) (Reader.test e accepts) := by
  intro s t hs
  cases hs with
  | nil => exact .blocked ⟨.nil, rfl⟩
  | @cons c d s t hc hs =>
    rw [run_test, run_test, ha.eq hc]
    split
    · next hd => exact .read (hR hc ((ha.eq hc).trans hd) hd) hs .none
    · exact .blocked ⟨.cons hc hs, rfl⟩

/-- The end of the text has no case. -/
theorem ending : Alike Eq Reader.ending Reader.ending := by
  intro s t hs
  cases hs with
  | nil => exact .read rfl .nil .none
  | cons hc hs => exact .blocked ⟨.cons hc hs, rfl⟩

/-- White space is skipped alike. -/
theorem blanks : Alike Eq Reader.blanks Reader.blanks := fun _ _ hs =>
  .read rfl (hs.dropWhile ignoresCase_isBlank) .none

/-- White space around alike readers changes nothing. -/
theorem padded (h : Alike R p q) : Alike R (Reader.padded p) (Reader.padded q) :=
  blanks.bind fun _ => h.bind fun hv => blanks.bind fun _ => .pure hv

/-- Alike readers are alike as options. -/
theorem optionally (h : Alike R p q) :
    Alike (Option.Rel R) (Reader.optionally p) (Reader.optionally q) :=
  (h.bind fun hv => .pure (.some hv)).orElse (.pure .none)

/-- Alike readers are alike when repeated up to a number. -/
theorem manyUpTo (h : Alike R p q) (n : Nat) :
    Alike (List.Forall₂ R) (Reader.manyUpTo p n) (Reader.manyUpTo q n) := by
  induction n with
  | zero => exact .pure .nil
  | succ n ih =>
    exact (h.bind fun hv => ih.bind fun hvs => .pure (.cons hv hvs)).orElse (.pure .nil)

/-- Alike readers are alike when repeated. -/
theorem many (h : Alike R p q) : Alike (List.Forall₂ R) (Reader.many p) (Reader.many q) := by
  intro s t hs
  show Outcome.Alike _ ((Reader.manyUpTo p (s.length + 1)).run s)
    ((Reader.manyUpTo q (t.length + 1)).run t)
  rw [← hs.length_eq]
  exact h.manyUpTo _ hs

/-- Alike readers are alike when repeated at least once. -/
theorem many1 (h : Alike R p q) : Alike (List.Forall₂ R) (Reader.many1 p) (Reader.many1 q) :=
  h.bind fun hv => h.many.bind fun hvs => .pure (.cons hv hvs)

end Alike

end Reader

/-! ## Expressions -/

/-- The expressions are the same but for the case of the names of cells. -/
inductive Expr.Alike : Expr → Expr → Prop
  | number (value : Float) : Alike (.number value) (.number value)
  | cell {name other : String} : SameButCase name.toList other.toList →
      Alike (.cell name) (.cell other)
  | unary {e d : Expr} (op : UnaryOp) : Alike e d → Alike (.unary op e) (.unary op d)
  | binary {e d e' d' : Expr} (op : BinaryOp) : Alike e d → Alike e' d' →
      Alike (.binary op e e') (.binary op d d')
  | call {e d e' d' : Expr} (function : Builtin) : Alike e d → Alike e' d' →
      Alike (.call function [e, e']) (.call function [d, d'])

/-- The operators are the same, and their right operands are alike. -/
def AlikeOperations (x y : BinaryOp × Expr) : Prop := x.1 = y.1 ∧ x.2.Alike y.2

/-- Alike expressions stay so behind the same signs. -/
theorem Expr.Alike.foldr_unary {e d : Expr} (h : e.Alike d) (ops : List UnaryOp) :
    (ops.foldr .unary e).Alike (ops.foldr .unary d) := by
  induction ops with
  | nil => exact h
  | cons op ops ih => exact .unary op ih

/-- Alike expressions stay so at the head of alike chains. -/
theorem Expr.Alike.foldl_binary {e d : Expr} {xs ys : List (BinaryOp × Expr)} (h : e.Alike d)
    (hxs : List.Forall₂ AlikeOperations xs ys) :
    (xs.foldl (fun left (op, right) => .binary op left right) e).Alike
      (ys.foldl (fun left (op, right) => .binary op left right) d) := by
  induction hxs generalizing e d with
  | nil => exact h
  | @cons x y _ _ hx _ ih =>
    obtain ⟨op, e'⟩ := x
    obtain ⟨op', d'⟩ := y
    obtain ⟨rfl, hright⟩ := hx
    exact ih (.binary op h hright)

/-! ## Rules -/

namespace Grammar

open Reader

variable {α : Type} {inner : Reader Expr} {op : Reader BinaryOp} {operand : Reader Expr}

/-- The letters of a word are read in any case. -/
theorem letters_alike (word : List Char) : Alike Eq (letters word) (letters word) := by
  induction word with
  | nil => exact .pure rfl
  | cons l word ih =>
    have htest : Alike (fun _ _ => True) (kind (·.toLower == l)) (kind (·.toLower == l)) :=
      .test (ignoresCase_letter l) .kind fun _ _ _ => trivial
    exact htest.bind fun _ => ih

/-- A keyword is read in any case. -/
theorem keyword_alike (word : String) (v : α) : Alike Eq (keyword word v) (keyword word v) :=
  (letters_alike word.toList).padded.bind fun _ => .pure rfl

/-- A mark of the language is read alike. -/
theorem character_alike {c : Char} (hc : c ∈ '.' :: marks) :
    Alike (fun _ _ => True) (character c) (character c) :=
  .test (ignoresCase_mark c hc) (.character c) fun _ _ _ => trivial

/-- A mark is read alike, whatever it stands for. -/
theorem mark_alike {c : Char} (hc : c ∈ '.' :: marks) (v : α) :
    Alike Eq (mark c v) (mark c v) :=
  (character_alike hc).padded.bind fun _ => .pure rfl

/-- Digits have no case, so that the same ones are read. -/
theorem digit_alike : Alike Eq digit digit :=
  .test ignoresCase_isDigit .kind fun hcd hc hd => by
    rw [← toLower_of_isDigit hc, hcd, toLower_of_isDigit hd]

/-- The digits and the point of a number are read alike. -/
theorem decimal_alike : Alike Eq decimal decimal := by
  have hpoint : Alike (fun _ _ => True) (character '.') (character '.') :=
    character_alike List.mem_cons_self
  refine .orElse (digit_alike.many1.bind fun hwhole => ?_) (hpoint.bind fun _ =>
    digit_alike.many1.bind fun hfraction => ?_)
  · rw [List.forall₂_eq_eq_eq] at hwhole
    refine (hpoint.bind fun _ => digit_alike.many).optionally.bind fun hfraction => ?_
    rw [List.forall₂_eq_eq_eq] at hfraction
    cases hfraction with
    | none => exact .pure (by rw [hwhole])
    | some hfraction => exact .pure (by rw [hwhole, hfraction])
  · rw [List.forall₂_eq_eq_eq] at hfraction
    exact .pure (by rw [hfraction])

/-- A number is read alike. -/
theorem number_alike : Alike Expr.Alike number number :=
  decimal_alike.padded.bind fun hd => .pure (hd ▸ .number _)

/-- The name of a cell is read as it is written, so up to case. -/
theorem cellName_alike :
    Alike (fun name other => SameButCase name.toList other.toList) cellName cellName := by
  have hfirst : Alike (fun c d => c.toLower = d.toLower) (kind isLetter) (kind isLetter) :=
    .test ignoresCase_isLetter .kind fun hcd _ _ => hcd
  have hrest : Alike (fun c d => c.toLower = d.toLower) (kind isLetterOrNumeral)
      (kind isLetterOrNumeral) :=
    .test ignoresCase_isLetterOrNumeral .kind fun hcd _ _ => hcd
  refine hfirst.bind fun hc => hrest.many.bind fun hcs => .pure ?_
  rw [String.toList_ofList, String.toList_ofList]
  exact .cons hc hcs

/-- References to names that are the same but for case are alike. -/
theorem reference_alike : Alike Expr.Alike reference reference :=
  cellName_alike.padded.bind fun hname => .pure (.cell hname)

/-- Groups are alike if what they enclose is. -/
theorem group_alike (h : Alike Expr.Alike inner inner) :
    Alike Expr.Alike (group inner) (group inner) :=
  (mark_alike (by decide) ()).bind fun _ => h.bind fun he =>
    (mark_alike (by decide) ()).bind fun _ => .pure he

/-- Calls are alike if their arguments are. -/
theorem call_alike (h : Alike Expr.Alike inner inner) :
    Alike Expr.Alike (call inner) (call inner) := by
  have hname : Alike Eq functionName functionName :=
    (keyword_alike "max" _).orElse (keyword_alike "min" _)
  refine hname.bind fun hfunction => (mark_alike (by decide) ()).bind fun _ => h.bind fun he =>
    (mark_alike (by decide) ()).bind fun _ => h.bind fun hd =>
      (mark_alike (by decide) ()).bind fun _ => .pure ?_
  rw [hfunction]
  exact .call _ he hd

/-- Signed operands are alike if what is inside parentheses is. -/
theorem signed_alike (h : Alike Expr.Alike inner inner) :
    Alike Expr.Alike (signed inner) (signed inner) := by
  have hatom : Alike Expr.Alike (atom inner) (atom inner) :=
    number_alike.orElse ((group_alike h).orElse ((call_alike h).orElse reference_alike))
  have hsign : Alike Eq (keyword "not" UnaryOp.not <|> mark '-' UnaryOp.neg)
      (keyword "not" UnaryOp.not <|> mark '-' UnaryOp.neg) :=
    (keyword_alike "not" _).orElse (mark_alike (by decide) _)
  refine hsign.many.bind fun hops => hatom.bind fun he => .pure ?_
  rw [List.forall₂_eq_eq_eq] at hops
  rw [hops]
  exact he.foldr_unary _

/-- An operator with its right operand is read alike. -/
theorem operation_alike (hop : Alike Eq op op) (h : Alike Expr.Alike operand operand) :
    Alike AlikeOperations (operation op operand) (operation op operand) :=
  hop.bind fun hop => h.bind fun he => .pure ⟨hop, he⟩

/-- Chains of alike operands are alike. -/
theorem chain_alike (hop : Alike Eq op op) (h : Alike Expr.Alike operand operand) :
    Alike Expr.Alike (chain op operand) (chain op operand) :=
  h.bind fun he => (operation_alike hop h).many.bind fun hops => .pure (he.foldl_binary hops)

/-- Comparisons of alike sums are alike. -/
theorem comparison_alike (h : Alike Expr.Alike (sum inner) (sum inner)) :
    Alike Expr.Alike (comparison inner) (comparison inner) := by
  have hop : Alike Eq (mark '=' BinaryOp.eq <|> mark '<' BinaryOp.lt <|> mark '>' BinaryOp.gt)
      (mark '=' BinaryOp.eq <|> mark '<' BinaryOp.lt <|> mark '>' BinaryOp.gt) :=
    (mark_alike (by decide) _).orElse
      ((mark_alike (by decide) _).orElse (mark_alike (by decide) _))
  refine h.bind fun he => (operation_alike hop h).optionally.bind fun hright => ?_
  cases hright with
  | none => exact .pure he
  | @some x y hright =>
    obtain ⟨op, e⟩ := x
    obtain ⟨op', d⟩ := y
    obtain ⟨rfl, hright⟩ := hright
    exact .pure (.binary op he hright)

/-- The loosest rule is read alike if what is inside parentheses is. -/
theorem disjunction_alike (h : Alike Expr.Alike inner inner) :
    Alike Expr.Alike (disjunction inner) (disjunction inner) := by
  have hproduct : Alike Expr.Alike (product inner) (product inner) :=
    chain_alike ((mark_alike (by decide) _).orElse (mark_alike (by decide) _)) (signed_alike h)
  have hsum : Alike Expr.Alike (sum inner) (sum inner) :=
    chain_alike ((mark_alike (by decide) _).orElse (mark_alike (by decide) _)) hproduct
  have hconjunction : Alike Expr.Alike (conjunction inner) (conjunction inner) :=
    chain_alike (keyword_alike "and" _) (comparison_alike hsum)
  exact chain_alike (keyword_alike "or" _) hconjunction

/-- Expressions of any depth are read alike. -/
theorem expression_alike (depth : Nat) :
    Alike Expr.Alike (expression depth) (expression depth) := by
  induction depth with
  | zero => exact .stuck
  | succ depth ih => exact fun _ _ hs => disjunction_alike ih hs

/-- Formulas are read alike. -/
theorem formula_alike : Alike Expr.Alike formula formula := by
  intro s t hs
  rw [run_formula, run_formula, hs.length_eq]
  exact ((expression_alike _).bind fun he => Alike.ending.bind fun _ => .pure he) hs

end Grammar

/-! ## Results -/

/-- Two results of parsing agree: in an expression up to the case of names, or in an error up to the
case of the character that was found. -/
inductive SameReading : Except ParseError Expr → Except ParseError Expr → Prop
  | ok {e d : Expr} : e.Alike d → SameReading (.ok e) (.ok d)
  | unexpectedEnd : SameReading (.error .unexpectedEnd) (.error .unexpectedEnd)
  | unexpected {found other : Char} (expected : List Expectation) :
      found.toLower = other.toLower →
      SameReading (.error (.unexpected found expected)) (.error (.unexpected other expected))

/-- Alike obstacles give errors that agree. -/
theorem Obstacle.Alike.sameReading {o p : Obstacle} (h : o.Alike p) :
    SameReading (.error (.ofObstacle o)) (.error (.ofObstacle p)) := by
  obtain ⟨rest, expected⟩ := o
  obtain ⟨rest', expected'⟩ := p
  obtain ⟨hrest, rfl⟩ := h
  cases hrest with
  | nil => exact .unexpectedEnd
  | @cons c d r t hc hr =>
    have hall : allBlank (c :: r) = allBlank (d :: t) :=
      SameButCase.all (.cons hc hr) ignoresCase_isBlank
    unfold ParseError.ofObstacle
    dsimp only
    rw [hall]
    split
    · exact .unexpectedEnd
    · exact .unexpected expected hc

/-- Texts that are the same but for case are parsed alike. -/
theorem parse_alike {text other : String} (h : SameButCase text.toList other.toList) :
    SameReading (parse text) (parse other) := by
  have hout := Grammar.formula_alike h
  unfold parse
  generalize Grammar.formula.run text.toList = out at hout ⊢
  generalize Grammar.formula.run other.toList = out' at hout ⊢
  cases hout with
  | read he _ _ => exact .ok he
  | blocked ho => exact ho.sameReading

end FormulaSheet
