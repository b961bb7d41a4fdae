import FormulaSheet.Proofs.FloatBits
import FormulaSheet.Proofs.ParseSound

/-!
# The shape of expressions that are read

Not every expression is the meaning of some text: numbers are written without a sign, calls with two
arguments, and no name begins with the word `not`. `Expr.WellShaped` holds of the expressions that
meet these conditions in all their parts. What is read is well-shaped (`wellShaped_of_parse`), since
the grammar makes no other expressions of tokens that can be written (`Derives.wellShaped`).
-/

namespace FormulaSheet

/-! ## Names and tokens -/

/-- A name that can be written in a formula: a letter and then letters and numerals, of which the
first three are not the word `not` in either case. -/
def WritableName (letters : List Char) : Prop :=
  ∃ c cs, letters = c :: cs ∧ isLetter c = true ∧ (∀ d ∈ cs, isLetterOrNumeral d = true) ∧
    (letters.take 3).map Char.toLower ≠ ['n', 'o', 't']

namespace Token

/-- A token that can be written in a formula. -/
def Writable (t : Token) : Prop := (∃ w, t.Spells w) ∧ ¬ t.BeginsWithNot

/-- A name can be written if its letters can. -/
theorem writable_name {letters : List Char} :
    (name letters).Writable ↔ WritableName letters := by
  constructor
  · rintro ⟨⟨w, hw⟩, hnot⟩
    cases hw with
    | @name c cs hc hcs => exact ⟨c, cs, rfl, hc, hcs, hnot⟩
  · rintro ⟨c, cs, rfl, hc, hcs, hnot⟩
    exact ⟨⟨_, .name hc hcs⟩, hnot⟩

/-- A keyword is written in lower case. -/
theorem spells_keyword : ∀ word ∈ keywords, (keyword word).Spells word.toList := by
  have hlower : ∀ word ∈ keywords, word.toList.map Char.toLower = word.toList := by decide
  exact fun word hword => .keyword hword (hlower word hword)

/-- Keywords can be written. -/
theorem writable_keyword {word : String} (h : word ∈ keywords) : (keyword word).Writable :=
  ⟨⟨_, spells_keyword word h⟩, id⟩

/-- Marks can be written. -/
theorem writable_mark {c : Char} (h : c ∈ marks) : (mark c).Writable := ⟨⟨_, .mark h⟩, id⟩

end Token

/-- The tokens of a layout can be written. -/
theorem Layout.writable (l : Layout) : ∀ t ∈ l.tokens, t.Writable := by
  intro t ht
  obtain ⟨x, hx, rfl⟩ := List.mem_map.1 ht
  exact ⟨⟨x.spelling, x.spells⟩, l.notNot x hx⟩

/-! ## Numbers -/

/-- A decimal fraction is read as a number without a sign, which may be infinite. -/
theorem Decimal.toFloat_spec (d : Decimal) :
    Binary64.isNegative d.toFloat = false ∧ d.toFloat.isNaN = false := by
  have hle : d.nearestCode ≤ Binary64.infinityCode := Nat.min_le_right _ _
  refine ⟨Binary64.isNegative_ofCode hle, Bool.eq_false_iff.2 ?_⟩
  intro hnan
  rw [Binary64.isNaN_iff, toFloat, Binary64.magnitudeCode_ofCode hle] at hnan
  exact Nat.not_lt.2 hle hnan

/-! ## Expressions -/

/-- An expression all of whose numbers are written without a sign, whose calls have two arguments
and whose names can be written. -/
inductive Expr.WellShaped : Expr → Prop
  | number {x : Float} : Binary64.isNegative x = false → x.isNaN = false → WellShaped (.number x)
  | cell {name : String} : WritableName name.toList → WellShaped (.cell name)
  | unary {op : UnaryOp} {e : Expr} : WellShaped e → WellShaped (.unary op e)
  | binary {op : BinaryOp} {e d : Expr} :
      WellShaped e → WellShaped d → WellShaped (.binary op e d)
  | call {f : Builtin} {e d : Expr} : WellShaped e → WellShaped d → WellShaped (.call f [e, d])

namespace Expr.WellShaped

variable {e : Expr}

/-- Signs keep the shape of an expression. -/
theorem foldr_unary (h : e.WellShaped) (signs : List UnaryOp) :
    (signs.foldr .unary e).WellShaped :=
  List.foldrRecOn signs Expr.unary h fun _ ih _ _ => .unary ih

/-- A chain of well-shaped operands is well-shaped. -/
theorem foldl_extend (h : e.WellShaped) {links : List Link}
    (hlinks : ∀ l ∈ links, l.operand.WellShaped) : (links.foldl Link.extend e).WellShaped :=
  List.foldlRecOn links Link.extend h fun _ ih l hl => .binary ih (hlinks l hl)

end Expr.WellShaped

/-- Tokens that can be written derive well-shaped expressions only. -/
theorem Derives.wellShaped {rule : Rule} {ts : List Token} {e : Expr} (h : Derives rule ts e)
    (hts : ∀ t ∈ ts, t.Writable) : e.WellShaped := by
  induction h with
  | chain hrule _ hops _ ih ihs =>
    obtain ⟨hfirst, hlinks⟩ := List.forall_mem_append.1 hts
    refine (ih hfirst).foldl_extend ?_
    intro l hl
    refine ihs l hl ?_
    intro t ht
    exact hlinks t (List.mem_flatMap.2 ⟨l, hl, List.mem_cons_of_mem _ ht⟩)
  | single _ ih => exact ih hts
  | compare _ hop _ ih ih' =>
    obtain ⟨hleft, hright⟩ := List.forall_mem_append.1 hts
    exact .binary (ih hleft) (ih' (List.forall_mem_cons.1 hright).2)
  | signed _ ih => exact (ih (List.forall_mem_append.1 hts).2).foldr_unary _
  | number => exact .number (Decimal.toFloat_spec _).1 (Decimal.toFloat_spec _).2
  | group _ ih =>
    obtain ⟨hinner, -⟩ := List.forall_mem_append.1 (List.forall_mem_cons.1 hts).2
    exact ih hinner
  | call _ _ ih ih' =>
    simp only [List.cons_append, List.forall_mem_cons, List.forall_mem_append] at hts
    exact .call (ih hts.2.2.1.1) (ih' hts.2.2.1.2.2)
  | name =>
    refine .cell ?_
    rw [String.toList_ofList]
    exact Token.writable_name.1 (hts _ List.mem_cons_self)

/-- What is read is well-shaped. -/
theorem wellShaped_of_parse {text : String} {e : Expr} (h : parse text = .ok e) :
    e.WellShaped := by
  obtain ⟨l, -, hd⟩ := parse_sound h
  exact hd.wellShaped l.writable

end FormulaSheet
