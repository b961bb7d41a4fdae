import FormulaSheet.Proofs.Sentences
import FormulaSheet.Proofs.TokenReaders

/-!
# Lexemes at the front of a text

`Laid s xs r` says that the lexemes `xs` stand at the front of the text `s`, after any white space,
that they can be told apart, and that `r` is left behind them. Reading and deriving meet in it: what
a reader takes off a text is laid there (`Laid.append`), and what is laid there can be cut before an
operator or a closing mark (`Laid.split`).
-/

namespace FormulaSheet

/-! ## The characters of a token -/

/-- Keywords are made of the letters that keywords may have. -/
theorem keywords_spec : ∀ word ∈ keywords,
    word.toList ≠ [] ∧ ∀ l ∈ word.toList, l ∈ keywordLetters := by
  have hall : ∀ word ∈ keywords,
      word.toList ≠ [] ∧ (word.toList.all fun l => l ∈ keywordLetters) = true := by
    decide
  exact fun word hword => (hall word hword).imp_right List.all_iff_forall_prop.1

/-- A keyword is written with letters, and with at least one. -/
theorem spelling_of_keyword {word : String} {w : List Char} (hword : word ∈ keywords)
    (hw : w.map Char.toLower = word.toList) :
    ∃ c cs, w = c :: cs ∧ isLetter c = true := by
  obtain ⟨hne, hl⟩ := keywords_spec word hword
  cases w with
  | nil => exact absurd hw.symm hne
  | cons c cs =>
    refine ⟨c, cs, rfl, isLetter_of_toLower (hl _ ?_)⟩
    rw [← hw]
    exact List.mem_cons_self

/-- Marks are no white space. -/
theorem marks_not_blank : ∀ c ∈ marks, isBlank c = false :=
  List.all_iff_forall_prop.1 (by decide)

/-- No range of white space holds a digit. -/
theorem blankRanges_digits : ∀ r ∈ blankRanges, r.last < 48 ∨ 57 < r.first := by decide

/-- Digits are no white space. -/
theorem not_isBlank_of_isDigit {c : Char} (h : c.isDigit = true) : isBlank c = false := by
  refine Bool.eq_false_iff.2 ?_
  intro hb
  obtain ⟨r, hr, h1, h2⟩ := exists_range_of_anyContains hb
  have hd : 48 ≤ c.toNat ∧ c.toNat ≤ 57 := by
    simpa [Char.isDigit, UInt32.le_iff_toNat_le] using h
  have := blankRanges_digits r hr
  omega

/-- A token begins with a character that is no white space. -/
theorem Token.Spells.head {t : Token} {w : List Char} (h : t.Spells w) :
    ∃ c cs, w = c :: cs ∧ isBlank c = false := by
  cases h with
  | @whole w hne hw =>
    obtain ⟨c, cs, rfl⟩ := List.exists_cons_of_ne_nil hne
    exact ⟨c, cs, rfl, not_isBlank_of_isDigit (hw c List.mem_cons_self)⟩
  | @pointed w f hne hw hf =>
    obtain ⟨c, cs, rfl⟩ := List.exists_cons_of_ne_nil hne
    exact ⟨c, cs ++ '.' :: f, rfl, not_isBlank_of_isDigit (hw c List.mem_cons_self)⟩
  | @fraction f => exact ⟨'.', f, rfl, by decide⟩
  | @name c cs hc =>
    exact ⟨c, cs, rfl, not_isBlank_of_isLetterOrNumeral (isLetterOrNumeral_of_isLetter hc)⟩
  | @keyword word w hword hw =>
    obtain ⟨c, cs, rfl, hc⟩ := spelling_of_keyword hword hw
    exact ⟨c, cs, rfl, not_isBlank_of_isLetterOrNumeral (isLetterOrNumeral_of_isLetter hc)⟩
  | @mark c hc => exact ⟨c, [], rfl, marks_not_blank c hc⟩

namespace Lexeme

/-- A lexeme begins with a character that is no white space. -/
theorem head (x : Lexeme) : ∃ c cs, x.text = c :: cs ∧ isBlank c = false := by
  obtain ⟨c, cs, hw, hc⟩ := x.spells.head
  exact ⟨c, cs ++ x.space, by rw [text, hw]; rfl, hc⟩

/-- A token written at the front of a text is a lexeme with the white space after it. -/
theorem exists_of_spells {t : Token} {w : List Char} (h : t.Spells w) (m : List Char) :
    ∃ x : Lexeme, x.token = t ∧ x.spelling = w ∧ w ++ m = x.text ++ skipBlanks m ∧
      (x.space = [] → skipBlanks m = m) := by
  obtain ⟨space, hb, hm⟩ := exists_blank_append m
  refine ⟨⟨t, w, space, h, hb⟩, rfl, rfl, ?_, fun hs => ?_⟩
  · show w ++ m = (w ++ space) ++ skipBlanks m
    rw [List.append_assoc, ← hm]
  · obtain rfl : space = [] := hs
    exact hm.symm

/-- The words `and` and `or` begin with a letter. -/
theorem spelling_of_joins (y : Lexeme) (h : y.token.Joins) :
    ∃ c cs, y.spelling = c :: cs ∧ isLetter c = true := by
  obtain ⟨t, w, space, hw, hb⟩ := y
  obtain rfl | rfl := h <;>
  cases hw with
  | keyword hword hw => exact spelling_of_keyword hword hw

/-- If the lexeme is a name without white space after it, the text that follows does not go on with
a letter or numeral. -/
def Ends (x : Lexeme) (r : List Char) : Prop :=
  x.token.IsName → x.space = [] → ∀ c ∈ r.head?, isLetterOrNumeral c = false

end Lexeme

/-! ## Lexemes at the front of a text -/

/-- The lexemes stand at the front of a text and leave the rest. -/
structure Laid (s : List Char) (xs : List Lexeme) (r : List Char) : Prop where
  text : skipBlanks s = xs.flatMap Lexeme.text ++ r
  rest : skipBlanks r = r
  ends : ∀ x ∈ xs.getLast?, x.Ends r
  notNot : ∀ x ∈ xs, ¬ x.token.BeginsWithNot
  apart : xs.IsChain Lexeme.Apart

/-- The text is ended or goes on with a character of a level above the given one, so no operator up
to that level begins there. -/
def Follows (level : Nat) (r : List Char) : Prop := ∀ c ∈ r.head?, level < levelOf c

/-- Where no operator up to a level begins, none up to a smaller level does. -/
theorem Follows.mono {j k : Nat} {r : List Char} (h : Follows k r) (hjk : j ≤ k) : Follows j r :=
  fun c hc => Nat.lt_of_le_of_lt hjk (h c hc)

/-- White space does not stand where a level is known. -/
theorem Follows.skipBlanks {k : Nat} {r : List Char} (h : Follows k r) : skipBlanks r = r :=
  skipBlanks_eq_self fun c hc =>
    not_isBlank_of_levelOf (Nat.lt_of_le_of_lt (Nat.zero_le k) (h c hc))

/-- The lexeme begins with a character of the level, and if that is a letter, it is one of the words
between the parts of a condition. -/
def Lexeme.Leads (y : Lexeme) (level : Nat) : Prop :=
  ∃ c cs, y.spelling = c :: cs ∧ levelOf c = level ∧ 0 < level ∧
    (isLetterOrNumeral c = true → y.token.Joins)

/-- No operator of a smaller level begins where the lexeme leads. -/
theorem Lexeme.Leads.follows {y : Lexeme} {j k : Nat} (h : y.Leads k) (hjk : j < k)
    (ys : List Lexeme) (r : List Char) :
    Follows j ((y :: ys).flatMap Lexeme.text ++ r) := by
  obtain ⟨c, cs, hc, hk, -, -⟩ := h
  intro d hd
  rw [List.flatMap_cons, Lexeme.text, hc] at hd
  obtain rfl : c = d := by simpa using hd
  exact hk ▸ hjk

namespace Laid

variable {s m r : List Char} {xs ys : List Lexeme} {x y : Lexeme}

/-- One lexeme is laid if it ends there and does not begin with the word that negates. -/
theorem single (ht : skipBlanks s = x.text ++ r) (hr : skipBlanks r = r) (he : x.Ends r)
    (hn : ¬ x.token.BeginsWithNot) : Laid s [x] r where
  text := by simpa using ht
  rest := hr
  ends := by simpa using he
  notNot := by simpa using hn
  apart := .singleton x

/-- The text left by some lexemes may hold further ones. -/
theorem append (h : Laid s xs m) (h' : Laid m ys r) (hne : ys ≠ []) : Laid s (xs ++ ys) r where
  text := by rw [h.text, ← h.rest, h'.text, List.flatMap_append, List.append_assoc]
  rest := h'.rest
  ends := by rw [List.getLast?_append_of_ne_nil xs hne]; exact h'.ends
  notNot x hx := (List.mem_append.1 hx).elim (h.notNot x) (h'.notNot x)
  apart := by
    refine List.isChain_append.2 ⟨h.apart, h'.apart, ?_⟩
    intro x hx y hy hname hjoin hspace
    obtain ⟨ys, rfl⟩ := List.head?_eq_some_iff.1 hy
    obtain ⟨c, cs, hc, hl⟩ := y.spelling_of_joins hjoin
    have hm : m = c :: (cs ++ (y.space ++ (ys.flatMap Lexeme.text ++ r))) := by
      rw [← h.rest, h'.text, List.flatMap_cons, Lexeme.text, hc]
      simp
    have := h.ends x hx hname hspace c (by rw [hm]; rfl)
    rw [isLetterOrNumeral_of_isLetter hl] at this
    cases this

/-- Behind its first lexeme a text holds the others. -/
theorem tail (h : Laid s (x :: xs) r) : ∃ m, skipBlanks s = x.spelling ++ (x.space ++ m) ∧
    skipBlanks m = m ∧ Laid m xs r ∧ m.length < s.length := by
  have ht := h.text
  rw [List.flatMap_cons, Lexeme.text, List.append_assoc, List.append_assoc] at ht
  have hm : skipBlanks (xs.flatMap Lexeme.text ++ r) = xs.flatMap Lexeme.text ++ r := by
    cases xs with
    | nil => exact h.rest
    | cons y ys =>
      obtain ⟨c, cs, hy, hc⟩ := y.head
      exact skipBlanks_eq_self (by simpa [hy] using hc)
  refine ⟨_, ht, hm, ⟨hm, h.rest, fun y hy => ?_, fun y hy => ?_, h.apart.tail⟩, ?_⟩
  · cases xs with
    | nil => simp at hy
    | cons z zs => exact h.ends y (by simpa using hy)
  · exact h.notNot y (List.mem_cons_of_mem _ hy)
  · obtain ⟨c, cs, hw, -⟩ := x.spells.head
    have hlen := congrArg List.length ht
    have hle := length_skipBlanks_le s
    simp only [hw, List.length_append, List.length_cons] at hlen ⊢
    omega

/-- Lexemes can be cut before one that begins an operator or closes something. -/
theorem split (h : Laid s (xs ++ y :: ys) r) {k : Nat} (hy : y.Leads k) :
    ∃ m, Laid s xs m ∧ Laid m (y :: ys) r ∧ ∀ j < k, Follows j m := by
  have hf := fun j (hj : j < k) => hy.follows hj ys r
  obtain ⟨hchain, hchain', happart⟩ := List.isChain_append.1 h.apart
  have hm : skipBlanks ((y :: ys).flatMap Lexeme.text ++ r) =
      (y :: ys).flatMap Lexeme.text ++ r := by
    obtain ⟨-, -, -, -, hk, -⟩ := hy
    exact (hf 0 hk).skipBlanks
  refine ⟨(y :: ys).flatMap Lexeme.text ++ r, ?_, ?_, hf⟩
  · refine ⟨?_, hm, fun x hx hname hspace c hc => ?_, fun x hx => ?_, hchain⟩
    · rw [h.text, List.flatMap_append, List.append_assoc]
    · -- the next lexeme is no `and` or `or`, as white space would stand before it
      refine Bool.eq_false_iff.2 ?_
      intro hl
      obtain ⟨d, ds, hd, -, -, hjoin⟩ := hy
      obtain rfl : d = c := by simpa [Lexeme.text, hd] using hc
      exact happart x hx y rfl hname (hjoin hl) hspace
    · exact h.notNot x (List.mem_append_left _ hx)
  · refine ⟨hm, h.rest, ?_, fun x hx => h.notNot x (List.mem_append_right _ hx), hchain'⟩
    have := h.ends
    rwa [List.getLast?_append_of_ne_nil xs (List.cons_ne_nil y ys)] at this

end Laid

/-! ## Rules and their readers -/

namespace Rule

/-- How tightly the operators of a rule bind, in the order of `levelOf`. -/
def level : Rule → Nat
  | atom | signed => 0
  | product => 1
  | sum => 2
  | comparison => 3
  | conjunction => 4
  | disjunction => 5

open Reader Grammar in
/-- The reader of the operators of a rule. -/
def operator : Rule → Reader BinaryOp
  | disjunction => keyword "or" .or
  | conjunction => keyword "and" .and
  | comparison => mark '=' .eq <|> mark '<' .lt <|> mark '>' .gt
  | sum => mark '+' .add <|> mark '-' .sub
  | product => mark '*' .mul <|> mark '/' .div
  | _ => stuck

/-- The reader of a rule, where `inner` reads what stands between parentheses. -/
def reader (inner : Reader Expr) : Rule → Reader Expr
  | atom => Grammar.atom inner
  | signed => Grammar.signed inner
  | product => Grammar.product inner
  | sum => Grammar.sum inner
  | comparison => Grammar.comparison inner
  | conjunction => Grammar.conjunction inner
  | disjunction => Grammar.disjunction inner

/-- A rule with repeated operators is read as a chain. -/
theorem reader_eq_chain {rule : Rule} (h : rule.Repeating) (inner : Reader Expr) :
    rule.reader inner = Grammar.chain rule.operator (rule.operand.reader inner) := by
  cases rule with
  | product | sum | conjunction | disjunction => rfl
  | atom | signed | comparison => simp [Repeating] at h

/-- The expression of a comparison, whose second part may be missing. -/
def compared (left : Expr) : Option (BinaryOp × Expr) → Expr
  | none => left
  | some (op, right) => .binary op left right

open Reader Grammar in
/-- A comparison is a sum and perhaps an operator with another one. -/
theorem comparison_eq (inner : Reader Expr) : Grammar.comparison inner =
    (Grammar.sum inner >>= fun left =>
      optionally (operation (operator comparison) (Grammar.sum inner)) >>= fun v =>
        pure (compared left v)) := by
  have h : ∀ left : Expr, (fun v : Option (BinaryOp × Expr) => match v with
      | none => pure left
      | some (op, right) => pure (.binary op left right)) =
        fun v => (pure (compared left v) : Reader Expr) := by
    intro left
    funext v
    cases v <;> rfl
  simp only [← h]
  rfl

/-- Operands bind more tightly than their operators. -/
theorem level_operand_lt {rule : Rule} {t : Token} {op : BinaryOp}
    (h : (t, op) ∈ rule.operators) : rule.operand.level < rule.level := by
  cases rule with
  | atom | signed => cases h
  | product | sum | comparison | conjunction | disjunction => decide

/-- Operands of a rule that repeats bind more tightly than the rule. -/
theorem Repeating.level_operand_lt {rule : Rule} (h : rule.Repeating) :
    rule.operand.level < rule.level := by
  cases rule with
  | product | sum | conjunction | disjunction => decide
  | atom | signed | comparison => simp [Repeating] at h

end Rule

/-- The letters that begin `and` and `or` have the levels of these words. -/
theorem levelOf_of_toLower {c : Char} :
    (c.toLower = 'a' → levelOf c = 4) ∧ (c.toLower = 'o' → levelOf c = 5) := by
  refine ⟨fun h => ?_, fun h => ?_⟩ <;> rcases eq_or_eq_of_toLower h with rfl | rfl <;> rfl

/-- Marks are neither letters nor numerals. -/
theorem marks_not_letter : ∀ c ∈ marks, isLetterOrNumeral c = false :=
  List.all_iff_forall_prop.1 (by decide)

/-- A mark of a level above 0 leads. -/
theorem Lexeme.leads_of_mark {y : Lexeme} {c : Char} (h : y.token = .mark c)
    (hc : 0 < levelOf c) : y.Leads (levelOf c) := by
  obtain ⟨t, w, space, hw, hb⟩ := y
  obtain rfl : t = .mark c := h
  cases hw with
  | mark hmem =>
    refine ⟨c, [], rfl, rfl, hc, ?_⟩
    intro hl
    rw [marks_not_letter c hmem] at hl
    cases hl

/-- A word between the parts of a condition leads, by its first letter. -/
theorem Lexeme.leads_of_keyword {y : Lexeme} {word : String} {k : Nat}
    (h : y.token = .keyword word) (hjoin : y.token.Joins) (hk : 0 < k)
    (hl : ∀ c, some c.toLower = word.toList.head? → levelOf c = k) : y.Leads k := by
  obtain ⟨t, w, space, hw, hb⟩ := y
  obtain rfl : t = .keyword word := h
  cases hw with
  | keyword hword hw =>
    obtain ⟨c, cs, rfl, -⟩ := spelling_of_keyword hword hw
    exact ⟨c, cs, rfl, hl c (by rw [← hw]; rfl), hk, fun _ => hjoin⟩

/-- The lexeme of an operator begins with a character of its rule's level. -/
theorem Lexeme.leads_of_operator {y : Lexeme} {rule : Rule} {op : BinaryOp}
    (h : (y.token, op) ∈ rule.operators) : y.Leads rule.level := by
  cases rule with
  | atom | signed => cases h
  | product | sum =>
    simp only [Rule.operators, List.mem_cons, Prod.mk.injEq, List.not_mem_nil, or_false] at h
    obtain ⟨h, -⟩ | ⟨h, -⟩ := h <;> exact leads_of_mark h (by decide)
  | comparison =>
    simp only [Rule.operators, List.mem_cons, Prod.mk.injEq, List.not_mem_nil, or_false] at h
    obtain ⟨h, -⟩ | ⟨h, -⟩ | ⟨h, -⟩ := h <;> exact leads_of_mark h (by decide)
  | conjunction =>
    obtain ⟨h, -⟩ := Prod.mk.inj (List.mem_singleton.1 h)
    refine leads_of_keyword h (.inl h) (by decide) fun c hc => levelOf_of_toLower.1 ?_
    simpa using hc
  | disjunction =>
    obtain ⟨h, -⟩ := Prod.mk.inj (List.mem_singleton.1 h)
    refine leads_of_keyword h (.inr h) (by decide) fun c hc => levelOf_of_toLower.2 ?_
    simpa using hc

end FormulaSheet
