import FormulaSheet.Formula.Parse
import FormulaSheet.Proofs.Phrases
import Mathlib.Data.List.TakeWhile

/-!
# What is read is a sentence

`parse_sound`: the text of a formula that is read is laid out of lexemes whose tokens derive the
expression. Each reader is taken in the order of the grammar: what the reader of a rule takes off a
text is a phrase of that rule (`Phrase`), and the rules that stand inside parentheses are reached by
induction on the depth.
-/

namespace FormulaSheet

/-- The text holds a phrase of the rule that stands for the expression, and the rest is left. -/
def Phrase (rule : Rule) (s : List Char) (e : Expr) (r : List Char) : Prop :=
  ∃ xs : List Lexeme, xs ≠ [] ∧ Laid s xs r ∧ Derives rule (xs.map (·.token)) e

namespace Laid

variable {s m r : List Char} {xs : List Lexeme} {x : Lexeme}

/-- A lexeme that is no name needs nothing of the text behind it. -/
theorem single_of_not_name (ht : skipBlanks s = x.text ++ r) (hr : skipBlanks r = r)
    (hn : ¬ x.token.IsName) : Laid s [x] r :=
  .single ht hr (fun h => absurd h hn) fun h => by
    cases hx : x.token <;> simp_all [Token.IsName, Token.BeginsWithNot]

/-- Lexemes leave no more of a text than there was. -/
theorem length_le (h : Laid s xs r) : r.length ≤ s.length := by
  have hlen := congrArg List.length h.text
  have := length_skipBlanks_le s
  rw [List.length_append] at hlen
  omega

/-- Lexemes take room. -/
theorem length_lt (h : Laid s xs r) (hne : xs ≠ []) : r.length < s.length := by
  obtain ⟨x, xs, rfl⟩ := List.exists_cons_of_ne_nil hne
  obtain ⟨c, cs, hx, -⟩ := x.head
  have hlen := congrArg List.length h.text
  have := length_skipBlanks_le s
  simp only [List.flatMap_cons, hx, List.length_append, List.length_cons] at hlen
  omega

end Laid

namespace Grammar

open Reader

variable {α : Type} {s m r : List Char} {c : Char} {e : Expr}

/-! ## Tokens -/

/-- A mark that is read was laid. -/
theorem laid_of_reads_mark {v v' : α} (hc : c ∈ marks) (h : (mark c v).Reads s v' r) :
    v' = v ∧ ∃ x : Lexeme, x.token = .mark c ∧ Laid s [x] r := by
  obtain ⟨rfl, m, hm, rfl⟩ := reads_mark.1 h
  obtain ⟨x, hx, -, htext, -⟩ := Lexeme.exists_of_spells (.mark hc) m
  exact ⟨rfl, x, hx, .single_of_not_name (hm.trans htext) (skipBlanks_skipBlanks m)
    (by simp [hx, Token.IsName])⟩

/-- A keyword that is read was laid. -/
theorem laid_of_reads_keyword {word : String} {v v' : α} (hword : word ∈ keywords)
    (h : (keyword word v).Reads s v' r) :
    v' = v ∧ ∃ x : Lexeme, x.token = .keyword word ∧ Laid s [x] r := by
  obtain ⟨rfl, w, m, hs, hw, rfl⟩ := reads_keyword.1 h
  obtain ⟨x, hx, -, htext, -⟩ := Lexeme.exists_of_spells (.keyword hword hw) m
  exact ⟨rfl, x, hx, .single_of_not_name (hs.trans htext) (skipBlanks_skipBlanks m)
    (by simp [hx, Token.IsName])⟩

/-- The characters of a number that is read are a way to write it. -/
theorem spells_of_reads_decimal {d : Decimal} (h : decimal.Reads s d m) :
    ∃ w, s = w ++ m ∧ (Token.number d).Spells w := by
  have hdigits : ∀ t : List Char, ∀ c ∈ t.takeWhile Char.isDigit, c.isDigit = true :=
    fun t c hc => List.mem_takeWhile_imp hc
  cases s with
  | nil => exact absurd h (Fails.not_reads ⟨_, run_decimal_of_not (by simp)⟩)
  | cons c s =>
    by_cases hc : c.isDigit = true
    · have hne : (c :: s).takeWhile Char.isDigit ≠ [] := by
        simp [List.takeWhile_cons_of_pos hc]
      obtain ⟨f, hf⟩ | hne' := begins_or_head_ne '.' ((c :: s).dropWhile Char.isDigit)
      · obtain ⟨rfl, rfl⟩ := h.unique ⟨_, run_decimal_pointed hc hf⟩
        refine ⟨_, ?_, .pointed hne (hdigits _) (hdigits _)⟩
        rw [List.append_assoc, List.cons_append, List.takeWhile_append_dropWhile, ← hf,
          List.takeWhile_append_dropWhile]
      · obtain ⟨rfl, rfl⟩ := h.unique ⟨_, run_decimal_whole hc rfl hne'⟩
        exact ⟨_, List.takeWhile_append_dropWhile.symm, .whole hne (hdigits _)⟩
    · by_cases hdot : c = '.'
      · subst hdot
        obtain ⟨d, f, rfl, hd⟩ | hnot := begins_or_head_not Char.isDigit s
        · obtain ⟨rfl, rfl⟩ := h.unique ⟨_, run_decimal_fraction hd f⟩
          refine ⟨_, ?_, .fraction (by simp [List.takeWhile_cons_of_pos hd]) (hdigits _)⟩
          rw [List.cons_append, List.takeWhile_append_dropWhile]
        · exact absurd h (Fails.not_reads ⟨_, run_decimal_point hnot⟩)
      · refine absurd h (Fails.not_reads ⟨_, run_decimal_of_not ?_⟩)
        intro d hd
        obtain rfl : c = d := by simpa using hd
        exact ⟨Bool.eq_false_iff.2 hc, hdot⟩

/-- A number that is read was laid. -/
theorem laid_of_reads_number (h : number.Reads s e r) :
    ∃ (x : Lexeme) (d : Decimal), x.token = .number d ∧ e = .number d.toFloat ∧ Laid s [x] r := by
  obtain ⟨d, m, hd, h⟩ := reads_bind.1 h
  obtain ⟨rfl, rfl⟩ := reads_pure.1 h
  obtain ⟨m', hm', rfl⟩ := reads_padded.1 hd
  obtain ⟨w, hs, hw⟩ := spells_of_reads_decimal hm'
  obtain ⟨x, hx, -, htext, -⟩ := Lexeme.exists_of_spells hw m'
  exact ⟨x, d, hx, rfl, .single_of_not_name (hs.trans htext) (skipBlanks_skipBlanks m')
    (by simp [hx, Token.IsName])⟩

/-- A name is read where the word `not` does not stand. -/
theorem laid_of_reads_reference (hnot : (keyword "not" UnaryOp.not).Fails s)
    (h : reference.Reads s e r) : ∃ (x : Lexeme) (letters : List Char),
      x.token = .name letters ∧ e = .cell (String.ofList letters) ∧ Laid s [x] r := by
  obtain ⟨name, m, hname, h⟩ := reads_bind.1 h
  obtain ⟨rfl, rfl⟩ := reads_pure.1 h
  obtain ⟨m', hm', rfl⟩ := reads_padded.1 hname
  obtain ⟨c, t, hs, hc⟩ | hletter := begins_or_head_not isLetter (skipBlanks s)
  · rw [hs] at hm'
    obtain ⟨rfl, rfl⟩ := hm'.unique ⟨_, run_cellName hc t⟩
    have hw : (Token.name (c :: t.takeWhile isLetterOrNumeral)).Spells
        (c :: t.takeWhile isLetterOrNumeral) := .name hc fun d hd => List.mem_takeWhile_imp hd
    obtain ⟨x, hx, -, htext, hspace⟩ :=
      Lexeme.exists_of_spells hw (t.dropWhile isLetterOrNumeral)
    rw [List.cons_append, List.takeWhile_append_dropWhile] at htext
    refine ⟨x, _, hx, rfl, .single (hs.trans htext) (skipBlanks_skipBlanks _) ?_ ?_⟩
    · intro _ hx' d hd
      rw [hspace hx'] at hd
      exact not_of_head_dropWhile hd
    · rw [hx]
      intro hbegin
      have hsplit : skipBlanks s = (c :: t.takeWhile isLetterOrNumeral).take 3 ++
          ((c :: t.takeWhile isLetterOrNumeral).drop 3 ++ t.dropWhile isLetterOrNumeral) := by
        rw [hs, ← List.append_assoc, List.take_append_drop, List.cons_append,
          List.takeWhile_append_dropWhile]
      exact hnot.not_reads (reads_keyword.2 ⟨rfl, _, _, hsplit, hbegin, rfl⟩)
  · exact absurd hm' (Fails.not_reads ⟨_, run_cellName_of_not hletter⟩)

/-! ## Operands -/

/-- What the reader takes off a text is a phrase of the rule. -/
def Sound (p : Reader Expr) (rule : Rule) : Prop := ∀ ⦃s e r⦄, p.Reads s e r → Phrase rule s e r

section
variable {inner : Reader Expr}

/-- A group takes a phrase if its inside does. -/
theorem group_sound (hinner : Sound inner .disjunction) : Sound (group inner) .atom := by
  intro s e r h
  obtain ⟨_, m, h1, h⟩ := reads_bind.1 h
  obtain ⟨e', m', h2, h⟩ := reads_bind.1 h
  obtain ⟨_, m'', h3, h⟩ := reads_bind.1 h
  obtain ⟨rfl, rfl⟩ := reads_pure.1 h
  obtain ⟨-, x, hx, hl1⟩ := laid_of_reads_mark (by decide) h1
  obtain ⟨xs, hne, hl2, hd⟩ := hinner h2
  obtain ⟨-, y, hy, hl3⟩ := laid_of_reads_mark (by decide) h3
  refine ⟨[x] ++ xs ++ [y], by simp, (hl1.append hl2 hne).append hl3 (by simp), ?_⟩
  simpa [hx, hy] using Derives.group hd

/-- The name of a function that is read was laid. -/
theorem keyword_of_reads_functionName {f : Builtin} (h : functionName.Reads s f r) :
    ∃ x : Lexeme, x.token = .keyword f.name ∧ Laid s [x] r := by
  rcases reads_orElse.1 h with h | ⟨-, h⟩ <;>
  · obtain ⟨rfl, hx⟩ := laid_of_reads_keyword (by decide) h
    exact hx

/-- A call takes a phrase if its arguments do. -/
theorem call_sound (hinner : Sound inner .disjunction) : Sound (call inner) .atom := by
  intro s e r h
  obtain ⟨f, m1, h1, h⟩ := reads_bind.1 h
  obtain ⟨_, m2, h2, h⟩ := reads_bind.1 h
  obtain ⟨a, m3, h3, h⟩ := reads_bind.1 h
  obtain ⟨_, m4, h4, h⟩ := reads_bind.1 h
  obtain ⟨b, m5, h5, h⟩ := reads_bind.1 h
  obtain ⟨_, m6, h6, h⟩ := reads_bind.1 h
  obtain ⟨rfl, rfl⟩ := reads_pure.1 h
  obtain ⟨x, hx, hl1⟩ := keyword_of_reads_functionName h1
  obtain ⟨-, y, hy, hl2⟩ := laid_of_reads_mark (by decide) h2
  obtain ⟨xs, hxs, hl3, hd1⟩ := hinner h3
  obtain ⟨-, z, hz, hl4⟩ := laid_of_reads_mark (by decide) h4
  obtain ⟨ys, hys, hl5, hd2⟩ := hinner h5
  obtain ⟨-, w, hw, hl6⟩ := laid_of_reads_mark (by decide) h6
  have hl := ((((hl1.append hl2 (by simp)).append hl3 hxs).append hl4 (by simp)).append hl5
    hys).append hl6 (by simp)
  refine ⟨_, by simp, hl, ?_⟩
  simpa [hx, hy, hz, hw] using Derives.call hd1 hd2

/-- Where the word `not` does not stand, an atom is read. -/
theorem atom_sound (hinner : Sound inner .disjunction)
    (hnot : (keyword "not" UnaryOp.not).Fails s) (h : (atom inner).Reads s e r) :
    Phrase .atom s e r := by
  rcases reads_orElse.1 h with h | ⟨-, h⟩
  · obtain ⟨x, d, hx, rfl, hl⟩ := laid_of_reads_number h
    exact ⟨[x], by simp, hl, by simpa [hx] using Derives.number⟩
  rcases reads_orElse.1 h with h | ⟨-, h⟩
  · exact group_sound hinner h
  rcases reads_orElse.1 h with h | ⟨-, h⟩
  · exact call_sound hinner h
  · obtain ⟨x, letters, hx, rfl, hl⟩ := laid_of_reads_reference hnot h
    exact ⟨[x], by simp, hl, by simpa [hx] using Derives.name⟩

/-- The reader of an operator before an operand. -/
def signReader : Reader UnaryOp := keyword "not" .not <|> mark '-' .neg

/-- A sign that is read was laid. -/
theorem laid_of_reads_sign {op : UnaryOp} (h : signReader.Reads s op r) :
    ∃ x : Lexeme, x.token = .sign op ∧ Laid s [x] r := by
  rcases reads_orElse.1 h with h | ⟨-, h⟩
  · obtain ⟨rfl, hx⟩ := laid_of_reads_keyword (by decide) h
    exact hx
  · obtain ⟨rfl, hx⟩ := laid_of_reads_mark (by decide) h
    exact hx

/-- A sign takes something off the text. -/
theorem signReader_advances : signReader.Advances := fun h =>
  let ⟨_, _, hl⟩ := laid_of_reads_sign h
  hl.length_lt (by simp)

/-- Operators stand before whatever is laid behind them. -/
theorem laid_of_repeats_sign {ops : List UnaryOp} (h : Repeats signReader s ops m) :
    ∃ xs : List Lexeme, xs.map (·.token) = ops.map Token.sign ∧
      ∀ {ys r}, ys ≠ [] → Laid m ys r → Laid s (xs ++ ys) r := by
  induction h with
  | nil => exact ⟨[], rfl, fun _ hl => hl⟩
  | cons hv _ ih =>
    obtain ⟨x, hx, hl⟩ := laid_of_reads_sign hv
    obtain ⟨xs, hxs, hcont⟩ := ih
    refine ⟨x :: xs, by simp [hx, hxs], ?_⟩
    intro ys r hys hl'
    exact hl.append (hcont hys hl') (by simp [hys])

/-- A signed operand takes a phrase if the inside of parentheses does. -/
theorem signed_sound (hinner : Sound inner .disjunction) : Sound (signed inner) .signed := by
  intro s e r h
  obtain ⟨ops, m, hops, h⟩ := reads_bind.1 h
  obtain ⟨e', m', hatom, h⟩ := reads_bind.1 h
  obtain ⟨rfl, rfl⟩ := reads_pure.1 h
  have hnot := (fails_orElse.1 (hops.fails signReader_advances)).1
  obtain ⟨xs, hne, hl, hd⟩ := atom_sound hinner hnot hatom
  obtain ⟨ys, hys, hcont⟩ := laid_of_repeats_sign (Reads.repeats hops)
  refine ⟨ys ++ xs, by simp [hne], hcont hne hl, ?_⟩
  rw [List.map_append, hys]
  exact .signed hd

/-! ## Operators -/

/-- An operator that is read was laid. -/
theorem laid_of_reads_operator {rule : Rule} {op : BinaryOp} (h : rule.operator.Reads s op r) :
    ∃ x : Lexeme, (x.token, op) ∈ rule.operators ∧ Laid s [x] r := by
  cases rule with
  | atom | signed => obtain ⟨o, h⟩ := h; cases h
  | product | sum =>
    rcases reads_orElse.1 h with h | ⟨-, h⟩ <;>
    · obtain ⟨rfl, x, hx, hl⟩ := laid_of_reads_mark (by decide) h
      exact ⟨x, by simp [Rule.operators, hx], hl⟩
  | comparison =>
    rcases reads_orElse.1 h with h | ⟨-, h⟩
    · obtain ⟨rfl, x, hx, hl⟩ := laid_of_reads_mark (by decide) h
      exact ⟨x, by simp [Rule.operators, hx], hl⟩
    rcases reads_orElse.1 h with h | ⟨-, h⟩ <;>
    · obtain ⟨rfl, x, hx, hl⟩ := laid_of_reads_mark (by decide) h
      exact ⟨x, by simp [Rule.operators, hx], hl⟩
  | conjunction | disjunction =>
    obtain ⟨rfl, x, hx, hl⟩ := laid_of_reads_keyword (by decide) h
    exact ⟨x, by simp [Rule.operators, hx], hl⟩

/-- An operator with its operand is a link of a chain. -/
theorem link_of_reads_operation (rule : Rule) {v : BinaryOp × Expr}
    (hop : Sound (rule.operand.reader inner) rule.operand)
    (h : (operation rule.operator (rule.operand.reader inner)).Reads s v r) :
    ∃ (l : Link) (xs : List Lexeme), v = (l.op, l.operand) ∧ (l.token, l.op) ∈ rule.operators ∧
      Derives rule.operand l.tokens l.operand ∧ xs.map (·.token) = l.all ∧ xs ≠ [] ∧
      Laid s xs r := by
  obtain ⟨op, m, h1, h⟩ := reads_bind.1 h
  obtain ⟨e, m', h2, h⟩ := reads_bind.1 h
  obtain ⟨rfl, rfl⟩ := reads_pure.1 h
  obtain ⟨x, hx, hl⟩ := laid_of_reads_operator h1
  obtain ⟨xs, hne, hl', hd⟩ := hop h2
  exact ⟨⟨x.token, op, xs.map (·.token), e⟩, x :: xs, rfl, hx, hd, rfl, by simp,
    hl.append hl' hne⟩

/-- Links stand behind whatever is laid before them. -/
theorem links_of_repeats {rule : Rule} {vs : List (BinaryOp × Expr)}
    (hop : Sound (rule.operand.reader inner) rule.operand)
    (h : Repeats (operation rule.operator (rule.operand.reader inner)) m vs r) :
    ∃ (links : List Link) (xs : List Lexeme), vs = links.map (fun l => (l.op, l.operand)) ∧
      (∀ l ∈ links, (l.token, l.op) ∈ rule.operators) ∧
      (∀ l ∈ links, Derives rule.operand l.tokens l.operand) ∧
      xs.map (·.token) = links.flatMap Link.all ∧
      ∀ {s ys}, Laid s ys m → Laid s (ys ++ xs) r := by
  induction h with
  | nil => exact ⟨[], [], rfl, by simp, by simp, rfl, fun hl => by simpa using hl⟩
  | cons hv _ ih =>
    obtain ⟨l, zs, rfl, hmem, hd, hzs, hne, hl⟩ := link_of_reads_operation _ hop hv
    obtain ⟨links, xs, rfl, hmems, hds, hxs, hcont⟩ := ih
    refine ⟨l :: links, zs ++ xs, rfl, ?_, ?_, by simp [hzs, hxs], fun hl' => ?_⟩
    · exact List.forall_mem_cons.2 ⟨hmem, hmems⟩
    · exact List.forall_mem_cons.2 ⟨hd, hds⟩
    · rw [← List.append_assoc]
      exact hcont (hl'.append hl hne)

/-- A rule that repeats takes a phrase if its operands do. -/
theorem chain_sound (rule : Rule) (hrule : rule.Repeating)
    (hop : Sound (rule.operand.reader inner) rule.operand) : Sound (rule.reader inner) rule := by
  rw [Rule.reader_eq_chain hrule]
  intro s e r h
  obtain ⟨first, m, hfirst, h⟩ := reads_bind.1 h
  obtain ⟨vs, m', hvs, h⟩ := reads_bind.1 h
  obtain ⟨rfl, rfl⟩ := reads_pure.1 h
  obtain ⟨ys, hne, hl, hd⟩ := hop hfirst
  obtain ⟨links, xs, rfl, hmems, hds, hxs, hcont⟩ := links_of_repeats hop (Reads.repeats hvs)
  refine ⟨ys ++ xs, by simp [hne], hcont hl, ?_⟩
  rw [List.map_append, hxs, List.foldl_map]
  exact .chain hrule hd hmems hds

/-- A comparison takes a phrase if its sums do. -/
theorem comparison_sound (hsum : Sound (sum inner) .sum) :
    Sound (comparison inner) .comparison := by
  rw [Rule.comparison_eq]
  intro s e r h
  obtain ⟨left, m, hleft, h⟩ := reads_bind.1 h
  obtain ⟨v, m', hv, h⟩ := reads_bind.1 h
  obtain ⟨rfl, rfl⟩ := reads_pure.1 h
  obtain ⟨ys, hne, hl, hd⟩ := hsum hleft
  rcases reads_optionally.1 hv with ⟨w, rfl, hw⟩ | ⟨rfl, rfl, -⟩
  · obtain ⟨l, xs, rfl, hmem, hd', hxs, hne', hl'⟩ :=
      link_of_reads_operation .comparison hsum hw
    refine ⟨ys ++ xs, by simp [hne], hl.append hl' hne', ?_⟩
    rw [List.map_append, hxs]
    exact .compare hd hmem hd'
  · exact ⟨ys, hne, hl, .single hd⟩

/-! ## Nesting -/

/-- The reader of the operands of a rule is sound. -/
theorem operand_sound (hinner : Sound inner .disjunction) (rule : Rule) :
    Sound (rule.operand.reader inner) rule.operand := by
  have hsigned : Sound (signed inner) .signed := signed_sound hinner
  have hproduct : Sound (product inner) .product :=
    chain_sound .product (by decide) hsigned
  have hsum : Sound (sum inner) .sum :=
    chain_sound .sum (by decide) hproduct
  have hcomparison : Sound (comparison inner) .comparison := comparison_sound hsum
  cases rule with
  | atom | signed | product => exact hsigned
  | sum => exact hproduct
  | comparison => exact hsum
  | conjunction => exact hcomparison
  | disjunction => exact chain_sound .conjunction (by decide) hcomparison

/-- The loosest rule takes a phrase if the inside of parentheses does. -/
theorem disjunction_sound (hinner : Sound inner .disjunction) :
    Sound (disjunction inner) .disjunction :=
  chain_sound .disjunction (by decide) (operand_sound hinner .disjunction)

/-- Expressions of any depth take phrases. -/
theorem expression_sound (depth : Nat) : Sound (expression depth) .disjunction := by
  induction depth with
  | zero =>
    intro _ _ _ ⟨_, h⟩
    cases h
  | succ depth ih =>
    intro _ _ _ h
    exact disjunction_sound ih h

end

/-- A formula is an expression to a depth that its text cannot exceed, up to the end. -/
theorem run_formula (s : List Char) : formula.run s =
    (expression (s.length + 1) >>= fun e => ending >>= fun _ => pure e).run s := by
  rw [formula]

/-- A formula is an expression that takes up the whole text. -/
theorem reads_formula : formula.Reads s e r ↔
    (expression (s.length + 1)).Reads s e [] ∧ r = [] := by
  have h : formula.Reads s e r ↔
      (expression (s.length + 1) >>= fun e => ending >>= fun _ => pure e).Reads s e r := by
    simp only [Reads, run_formula]
  simp only [h, reads_bind, reads_ending, reads_pure]
  constructor
  · rintro ⟨e', m, he, u, m', ⟨rfl, rfl⟩, rfl, rfl⟩
    exact ⟨he, rfl⟩
  · rintro ⟨he, rfl⟩
    exact ⟨e, [], he, (), [], ⟨rfl, rfl⟩, rfl, rfl⟩

end Grammar

/-- A text has an expression if a formula is read off it. -/
theorem parse_eq_ok_iff {s : String} {e : Expr} :
    parse s = .ok e ↔ ∃ r, Grammar.formula.Reads s.toList e r := by
  unfold parse
  cases h : Grammar.formula.run s.toList with
  | read v r o => simp [Reader.Reads, h, eq_comm]
  | blocked o => simp [Reader.Reads, h]

/-- A text that is read is a sentence that stands for the expression. -/
theorem parse_sound {s : String} {e : Expr} (h : parse s = .ok e) : Sentence s.toList e := by
  obtain ⟨r, hr⟩ := parse_eq_ok_iff.1 h
  obtain ⟨hread, rfl⟩ := Grammar.reads_formula.1 hr
  obtain ⟨xs, -, hl, hd⟩ := Grammar.expression_sound _ hread
  obtain ⟨before, hblank, hs⟩ := exists_blank_append s.toList
  refine ⟨⟨before, xs, hblank, hl.notNot, hl.apart⟩, ?_, hd⟩
  have htext : skipBlanks s.toList = xs.flatMap Lexeme.text := by
    rw [hl.text, List.append_nil]
  exact (htext ▸ hs).symm

end FormulaSheet
