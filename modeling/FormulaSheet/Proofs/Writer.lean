import FormulaSheet.Proofs.Faults
import FormulaSheet.Proofs.ValueText

/-!
# Writing expressions

`Expr.text` writes an expression with parentheses where an operand is looser than its operator
allows, and with the shortest digits for each number. A well-shaped expression is read back from its
text (`parse_text`), for its tokens derive it at its own rule (`Expr.WellShaped.derives`). So the
well-shaped expressions are exactly those that are read (`parse_image`).
-/

namespace FormulaSheet

/-! ## Spelling tokens -/

/-- The digits of a decimal fraction with all its places. -/
def Decimal.spelling (d : Decimal) : List Char :=
  if d.places = 0 then d.wholeDigits else d.wholeDigits ++ '.' :: d.placeDigits

/-- One way to write a token, for keywords in lower case. -/
def Token.spelling : Token → List Char
  | number d => d.spelling
  | name letters => letters
  | keyword word => word.toList
  | mark c => [c]

/-- A decimal fraction is spelt by its digits. -/
theorem Decimal.spells_spelling (d : Decimal) : (Token.number d).Spells d.spelling := by
  rw [spelling]
  split
  · next hzero =>
    have hwhole : (Token.number (ofDigits d.wholeDigits [])).Spells d.wholeDigits :=
      .whole d.wholeDigits_ne_nil fun _ => isDigit_of_mem_wholeDigits
    rwa [ofDigits_of_places_eq_zero hzero] at hwhole
  · next hplaces =>
    have hpointed : (Token.number (ofDigits d.wholeDigits d.placeDigits)).Spells
        (d.wholeDigits ++ '.' :: d.placeDigits) :=
      .pointed d.wholeDigits_ne_nil (fun _ => isDigit_of_mem_wholeDigits)
        (fun _ => isDigit_of_mem_placeDigits)
    rwa [ofDigits_placeDigits (Nat.pos_of_ne_zero hplaces)] at hpointed

namespace Token

/-- Numbers can be written. -/
theorem writable_number (d : Decimal) : (number d).Writable := ⟨⟨_, d.spells_spelling⟩, id⟩

/-- What can be written is spelt as it is written. -/
theorem Writable.spells {t : Token} (h : t.Writable) : t.Spells t.spelling := by
  obtain ⟨⟨w, hw⟩, -⟩ := h
  cases hw with
  | whole | pointed | fraction => exact Decimal.spells_spelling _
  | name hc hcs => exact .name hc hcs
  | keyword hword => exact spells_keyword _ hword
  | mark hc => exact .mark hc

end Token

/-- Tokens written one after the other, each with a space after it. -/
def Layout.spaced (ts : List Token) (h : ∀ t ∈ ts, t.Writable) : Layout where
  before := []
  lexemes := ts.pmap (fun t ht => ⟨t, t.spelling, [' '], Token.Writable.spells ht, rfl⟩) h
  blank := allBlank_nil
  notNot x hx := by
    obtain ⟨t, ht, rfl⟩ := List.mem_pmap.1 hx
    exact (h t ht).2
  apart := by
    refine List.Pairwise.isChain (List.pairwise_of_forall_mem_list ?_)
    intro x hx y _ _ _
    obtain ⟨t, ht, rfl⟩ := List.mem_pmap.1 hx
    exact List.cons_ne_nil _ _

/-- The text of tokens with a space after each. -/
def spacedText (ts : List Token) : List Char := ts.flatMap fun t => t.spelling ++ [' ']

/-- The tokens of a spaced text are those that were written. -/
theorem Layout.tokens_spaced {ts : List Token} (h : ∀ t ∈ ts, t.Writable) :
    (Layout.spaced ts h).tokens = ts := by
  rw [tokens, spaced, List.map_pmap]
  exact (List.pmap_eq_map h).trans (List.map_id' ts)

/-- The text of a spaced layout is that of its tokens. -/
theorem Layout.text_spaced {ts : List Token} (h : ∀ t ∈ ts, t.Writable) :
    (Layout.spaced ts h).text = spacedText ts := by
  have hpieces := @List.pmap_eq_map _ _ _ (fun t : Token => t.spelling ++ [' ']) ts h
  rw [text, spaced, List.nil_append, List.flatMap_def, List.map_pmap, spacedText, List.flatMap_def]
  exact congrArg List.flatten hpieces

/-! ## Rules for expressions -/

namespace Rule

/-- The rules in order, from the tightest to the loosest. -/
def rank : Rule → Nat
  | atom => 0
  | signed => 1
  | product => 2
  | sum => 3
  | comparison => 4
  | conjunction => 5
  | disjunction => 6

/-- The next looser rule, if there is one. -/
def looser : Rule → Rule
  | atom => signed
  | signed => product
  | product => sum
  | sum => comparison
  | comparison => conjunction
  | conjunction => disjunction
  | disjunction => disjunction

/-- There are seven rules. -/
theorem rank_le (rule : Rule) : rule.rank ≤ 6 := by cases rule <;> decide

/-- The next looser rule is one rank further on. -/
theorem rank_looser {rule : Rule} (h : rule.rank < 6) : rule.looser.rank = rule.rank + 1 := by
  cases rule with
  | disjunction => exact absurd h (Nat.lt_irrefl 6)
  | atom | signed | product | sum | comparison | conjunction => rfl

/-- Rules of one rank are the same. -/
theorem rank_injective : Function.Injective rank := by
  intro rule other h
  cases rule <;> cases other <;> first | rfl | cases h

end Rule

namespace Derives

variable {rule : Rule} {ts us : List Token} {e d : Expr}

/-- A phrase of a rule is one of the next looser rule, as all operators may be missing. -/
theorem looser (h : Derives rule ts e) : Derives rule.looser ts e := by
  cases rule with
  | atom => exact @Derives.signed [] _ _ h
  | sum => exact .single h
  | signed | product | comparison | conjunction => exact .of_operand (by decide) h
  | disjunction => exact h

/-- A phrase of a rule is one of every looser rule. -/
theorem widen {wider : Rule} (h : Derives rule ts e) (hle : rule.rank ≤ wider.rank) :
    Derives wider ts e := by
  obtain ⟨n, hn⟩ := Nat.exists_eq_add_of_le hle
  induction n generalizing rule with
  | zero => exact Rule.rank_injective hn ▸ h
  | succ n ih =>
    have hwider := wider.rank_le
    have hnext : rule.looser.rank = rule.rank + 1 := Rule.rank_looser (by omega)
    exact ih h.looser (by omega) (by omega)

/-- One more link at the end of a chain. -/
theorem link {t : Token} {op : BinaryOp} (hrule : rule.Repeating) (h : Derives rule ts e)
    (hop : (t, op) ∈ rule.operators) (h' : Derives rule.operand us d) :
    Derives rule (ts ++ t :: us) (.binary op e d) := by
  cases h with
  | @chain _ ts e links _ hfirst hops hoperands =>
    have hchain := @Derives.chain rule ts e (links ++ [⟨t, op, us, d⟩]) hrule hfirst
      (List.forall_mem_append.2 ⟨hops, List.forall_mem_singleton.2 hop⟩)
      (List.forall_mem_append.2 ⟨hoperands, List.forall_mem_singleton.2 h'⟩)
    simpa [Link.all, Link.extend] using hchain
  | single | compare | signed | number | group | call | name => exact absurd hrule (by decide)

end Derives

/-! ## Expressions as tokens -/

namespace BinaryOp

/-- The rule that an operator belongs to. -/
def rule : BinaryOp → Rule
  | add | sub => .sum
  | mul | div => .product
  | eq | lt | gt => .comparison
  | and => .conjunction
  | or => .disjunction

/-- The token of an operator. -/
def token : BinaryOp → Token
  | add => .mark '+'
  | sub => .mark '-'
  | mul => .mark '*'
  | div => .mark '/'
  | eq => .mark '='
  | lt => .mark '<'
  | gt => .mark '>'
  | and => .keyword "and"
  | or => .keyword "or"

/-- The loosest rule that a left operand can be a phrase of: comparisons do not chain. -/
def leftRule (op : BinaryOp) : Rule := if op.rule.Repeating then op.rule else op.rule.operand

/-- The token of an operator is one of its rule. -/
theorem token_mem (op : BinaryOp) : (op.token, op) ∈ op.rule.operators := by
  cases op <;> simp [token, rule, Rule.operators]

/-- The tokens of operators can be written. -/
theorem writable_token (op : BinaryOp) : op.token.Writable := by
  cases op with
  | and | or => exact Token.writable_keyword (by decide)
  | add | sub | mul | div | eq | lt | gt => exact Token.writable_mark (by decide)

end BinaryOp

/-- An operator with operands that it allows is derived at its rule. -/
theorem Derives.binary {op : BinaryOp} {ts us : List Token} {e d : Expr}
    (h : Derives op.leftRule ts e) (h' : Derives op.rule.operand us d) :
    Derives op.rule (ts ++ op.token :: us) (.binary op e d) := by
  rw [BinaryOp.leftRule] at h
  split at h
  · next hrule => exact h.link hrule op.token_mem h'
  · next hrule =>
    have hcomparison : op.rule = .comparison := by
      cases op with
      | eq | lt | gt => rfl
      | add | sub | mul | div | and | or => exact absurd (by decide) hrule
    have hmem := op.token_mem
    rw [hcomparison] at h h' hmem ⊢
    exact .compare h hmem h'

/-- Signs can be written. -/
theorem Token.writable_sign (op : UnaryOp) : (sign op).Writable := by
  cases op with
  | neg => exact writable_mark (by decide)
  | not => exact writable_keyword (by decide)

/-- A decimal fraction that is read as the given number, if that has no sign. -/
def numeral (x : Float) : Decimal :=
  let code := Binary64.magnitudeCode x
  if code = Binary64.infinityCode then ⟨Nat.pow 10 309, 0⟩ else (Binary64.shortest code).written

/-- The digits of a number are rounded to it. -/
theorem toFloat_numeral {x : Float} (hsign : Binary64.isNegative x = false)
    (hnumber : x.isNaN = false) : (numeral x).toFloat = x := by
  have hle := Nat.not_lt.1 (mt Binary64.isNaN_iff.2 (Bool.eq_false_iff.1 hnumber))
  have hcode := Binary64.ofCode_magnitudeCode hsign
  rw [numeral]
  split
  · next hinfinite =>
    have hoverflow : (⟨Nat.pow 10 309, 0⟩ : Decimal).nearestCode = Binary64.infinityCode := by
      decide +kernel
    rw [Decimal.toFloat, hoverflow, ← hinfinite, hcode]
  · next hfinite =>
    rw [Binary64.toFloat_written_shortest (Nat.lt_of_le_of_ne hle hfinite), hcode]

namespace Expr

/-- The rule that an expression is a phrase of without parentheses around it. -/
def rule : Expr → Rule
  | number _ | cell _ | call .. => .atom
  | unary .. => .signed
  | binary op .. => op.rule

/-- The tokens of an expression where a phrase of a rule is needed: an expression of a looser rule
stands in parentheses. -/
def enclosed (wider : Rule) (e : Expr) (ts : List Token) : List Token :=
  if e.rule.rank ≤ wider.rank then ts else .mark '(' :: ts ++ [.mark ')']

/-- The tokens of an expression. -/
def tokens : Expr → List Token
  | number x => [.number (numeral x)]
  | cell name => [.name name.toList]
  | unary op e => .sign op :: enclosed .signed e e.tokens
  | binary op left right =>
    enclosed op.leftRule left left.tokens ++
      op.token :: enclosed op.rule.operand right right.tokens
  | call function [first, second] =>
    .keyword function.name :: .mark '(' :: first.tokens ++ .mark ',' :: second.tokens ++
      [.mark ')']
  | call _ _ => []

/-- The text of an expression. -/
def text (e : Expr) : String := String.ofList (spacedText e.tokens)

end Expr

/-- Parentheses make a phrase of any rule. -/
theorem Derives.enclosed {wider : Rule} {ts : List Token} {e : Expr} (h : Derives e.rule ts e) :
    Derives wider (e.enclosed wider ts) e := by
  rw [Expr.enclosed]
  split
  · next hle => exact h.widen hle
  · exact (Derives.group (h.widen e.rule.rank_le)).widen (Nat.zero_le _)

namespace Expr.WellShaped

variable {e : Expr}

/-- The tokens of a well-shaped expression derive it. -/
theorem derives (h : e.WellShaped) : Derives e.rule e.tokens e := by
  induction h with
  | @number x hsign hnumber =>
    have hnumeral := @Derives.number (numeral x)
    rw [toFloat_numeral hsign hnumber] at hnumeral
    rwa [tokens]
  | @cell name _ =>
    have hname := @Derives.name name.toList
    rw [String.ofList_toList] at hname
    rwa [tokens]
  | unary _ ih =>
    rw [tokens]
    exact ih.enclosed.sign _
  | binary _ _ ih ih' =>
    rw [tokens]
    exact ih.enclosed.binary ih'.enclosed
  | call _ _ ih ih' =>
    rw [tokens]
    exact .call (ih.widen (Rule.rank_le _)) (ih'.widen (Rule.rank_le _))

/-- An operand in parentheses can be written if it can without. -/
theorem writable_enclosed {ts : List Token} (h : ∀ t ∈ ts, t.Writable) (wider : Rule) :
    ∀ t ∈ e.enclosed wider ts, t.Writable := by
  rw [enclosed]
  split
  · exact h
  · refine List.forall_mem_append.2 ⟨List.forall_mem_cons.2 ⟨?_, h⟩, ?_⟩
    · exact Token.writable_mark (by decide)
    · exact List.forall_mem_singleton.2 (Token.writable_mark (by decide))

/-- The tokens of a well-shaped expression can be written. -/
theorem writable (h : e.WellShaped) : ∀ t ∈ e.tokens, t.Writable := by
  induction h with
  | number =>
    rw [tokens]
    exact List.forall_mem_singleton.2 (Token.writable_number _)
  | cell hname =>
    rw [tokens]
    exact List.forall_mem_singleton.2 (Token.writable_name.2 hname)
  | unary _ ih =>
    rw [tokens]
    exact List.forall_mem_cons.2 ⟨Token.writable_sign _, writable_enclosed ih _⟩
  | binary _ _ ih ih' =>
    rw [tokens]
    exact List.forall_mem_append.2 ⟨writable_enclosed ih _,
      List.forall_mem_cons.2 ⟨BinaryOp.writable_token _, writable_enclosed ih' _⟩⟩
  | @call f e d _ _ ih ih' =>
    have hfunction : f.name ∈ keywords := by cases f <;> decide
    simp only [tokens, List.cons_append, List.forall_mem_cons, List.forall_mem_append]
    exact ⟨Token.writable_keyword hfunction, Token.writable_mark (by decide),
      ⟨ih, Token.writable_mark (by decide), ih'⟩, Token.writable_mark (by decide),
      List.forall_mem_nil _⟩

end Expr.WellShaped

/-- A well-shaped expression is read back from its text. -/
theorem parse_text {e : Expr} (h : e.WellShaped) : parse e.text = .ok e := by
  have hd : Derives .disjunction (Layout.spaced e.tokens h.writable).tokens e := by
    rw [Layout.tokens_spaced]
    exact h.derives.widen e.rule.rank_le
  have hparse := Layout.parse_text hd
  rwa [Layout.text_spaced] at hparse

example :
    (Expr.binary .sub (.number 8) (.binary .sub (.cell "A1") (.unary .neg (.number 2.5)))).text =
      "8 - ( A1 - - 2.5 ) " := by
  decide +kernel

/-! ## The image of the parser -/

/-- The evaluation of a text never fails for a number of arguments. -/
theorem evaluate_ne_arity (settings : Settings) (sheet : Sheet) (text : String)
    (function : Builtin) (expected found : Nat) :
    sheet.evaluate settings text ≠ .error (.fault (.arity function expected found)) := by
  intro h
  have herror := sheet.errorOf_evaluate settings text
  rw [errorOf_eq_some.2 h] at herror
  generalize parse text = parsed at herror
  cases parsed with
  | error e => cases herror
  | ok e =>
    obtain ⟨name, -, hname⟩ := Option.map_eq_some_iff.1 herror.symm
    cases hname

/-- The expressions that some text is read as are exactly the well-shaped ones: numbers without a
sign that are not NaN, calls with two arguments and names that do not begin with `not`. Each of
these is read back from its own text. So a call with a wrong number of arguments is never evaluated.
-/
theorem parse_image :
    (∀ e : Expr, (∃ text, parse text = .ok e) ↔ e.WellShaped) ∧
    (∀ e : Expr, e.WellShaped → parse e.text = .ok e) ∧
    ∀ (settings : Settings) (sheet : Sheet) (text : String) (function : Builtin)
      (expected found : Nat),
      sheet.evaluate settings text ≠ .error (.fault (.arity function expected found)) := by
  refine ⟨fun e => ⟨?_, fun h => ⟨e.text, parse_text h⟩⟩, fun e => parse_text, evaluate_ne_arity⟩
  rintro ⟨text, h⟩
  exact wellShaped_of_parse h

/-- Infinity is read off many digits, and parentheses hold together a difference on the right. -/
theorem parse_image_nested :
    let e : Expr := .binary .sub (.cell "ß") (.binary .sub
      (.call .max [.number 0.1, .number (Binary64.ofCode Binary64.infinityCode)])
      (.unary .neg (.unary .not (.number 2))))
    e.WellShaped ∧ parse e.text = .ok e ∧ (∃ text, parse text = .ok e) ∧
      ¬ (∃ text, parse text = .ok (.cell "notes")) ∧
      Sheet.empty.evaluate {} "max(1)" ≠ .error (.fault (.arity .max 2 1)) := by
  intro e
  have hname : WritableName "ß".toList :=
    ⟨'ß', [], rfl, by decide +kernel, List.forall_mem_nil _, by decide⟩
  have he : e.WellShaped := by
    refine .binary (.cell hname) (.binary (.call ?_ ?_) (.unary (.unary ?_)))
    all_goals exact .number (by decide +kernel) (by decide +kernel)
  have hnot : ¬ (Expr.cell "notes").WellShaped := by
    intro h
    cases h with
    | cell h =>
      obtain ⟨c, cs, -, -, -, hnot⟩ := h
      exact hnot (by decide)
  exact ⟨he, parse_image.2.1 e he, (parse_image.1 e).2 he, mt (parse_image.1 _).1 hnot,
    parse_image.2.2 {} .empty "max(1)" .max 2 1⟩

end FormulaSheet
