import FormulaSheet.Proofs.ParseSound

/-!
# Every sentence is read

`parse_complete`: a text that is laid out of tokens that derive an expression is read, and the
expression is what is read. The proof is by induction on the derivation. Readers are greedy and
choices ordered, so each case shows that what is tried before fails and that what is repeated stops:
behind a phrase no operator of its rule begins (`Follows`), and a name is neither taken for a `not`
nor for a call.
-/

namespace FormulaSheet

variable {s m r t w : List Char} {xs ys zs : List Lexeme} {x y : Lexeme} {c : Char} {e : Expr}

/-- Letters and numerals at the front of a text belong to the name that stands there. -/
theorem prefix_of_name {letters : List Char} (h : letters ++ t = w ++ m)
    (hw : ∀ c ∈ w, isLetterOrNumeral c = true)
    (ht : ∀ c ∈ t.head?, isLetterOrNumeral c = false) : ∃ u, letters = w ++ u ∧ m = u ++ t := by
  obtain ⟨u, hu, hm⟩ | ⟨u, hu, hm⟩ := List.append_eq_append_iff.1 h.symm
  · exact ⟨u, hu, hm⟩
  · cases u with
    | nil => exact ⟨[], by simpa using hu.symm, hm.symm⟩
    | cons c u =>
      have hc := ht c (by simp [hm])
      rw [hw c (by simp [hu])] at hc
      cases hc

/-- The letters of a keyword are letters in either case. -/
theorem isLetterOrNumeral_of_keyword (word : String) (hword : word ∈ keywords)
    (hw : w.map Char.toLower <+: word.toList) : ∀ c ∈ w, isLetterOrNumeral c = true := by
  intro c hc
  have hmem : c.toLower ∈ word.toList := hw.subset (List.mem_map_of_mem hc)
  exact isLetterOrNumeral_of_isLetter (isLetter_of_toLower ((keywords_spec word hword).2 _ hmem))

/-- Keywords are made of letters, in any case. -/
theorem isLetterOrNumeral_of_spelling {word : String} (hword : word ∈ keywords)
    (hw : w.map Char.toLower = word.toList) : ∀ c ∈ w, isLetterOrNumeral c = true :=
  isLetterOrNumeral_of_keyword word hword ⟨[], by rw [List.append_nil, hw]⟩

namespace Laid

/-- What follows a lexeme, from its white space on, begins with white space or with the rest. -/
theorem head_rest (hf : Follows 0 r) (hb : c ∈ (x.space ++ r).head?) :
    isBlank c = true ∨ x.space = [] ∧ 0 < levelOf c := by
  cases hs : x.space with
  | nil => exact .inr ⟨rfl, hf c (by simpa [hs] using hb)⟩
  | cons d ds =>
    obtain rfl : d = c := by simpa [hs] using hb
    have := x.blank
    rw [hs, allBlank, List.all_cons, Bool.and_eq_true] at this
    exact .inl this.1

/-- No letter or numeral follows a name at the end of a phrase. -/
theorem head_rest_of_name (h : Laid s [x] r) (hname : x.token.IsName) (hf : Follows 0 r) :
    ∀ c ∈ (x.space ++ r).head?, isLetterOrNumeral c = false := by
  intro c hc
  obtain hb | ⟨hs, -⟩ := head_rest hf hc
  · refine Bool.eq_false_iff.2 ?_
    intro hl
    rw [not_isBlank_of_isLetterOrNumeral hl] at hb
    cases hb
  · exact h.ends x rfl hname hs c (by simpa [hs] using hc)

/-- The name at the front of a text. -/
theorem name_text {letters : List Char} (h : Laid s [x] r) (hx : x.token = .name letters) :
    skipBlanks s = letters ++ (x.space ++ r) ∧ ∃ c cs, letters = c :: cs ∧ isLetter c = true ∧
      ∀ d ∈ cs, isLetterOrNumeral d = true := by
  have ht := h.text
  have hspells := x.spells
  rw [hx] at hspells
  generalize hw : x.spelling = w at hspells
  cases hspells with
  | @name c cs hc hcs =>
    refine ⟨?_, c, cs, rfl, hc, hcs⟩
    simpa [Lexeme.text, hw] using ht

/-- Lexemes can be cut between an operand and the operators that go on from it. -/
theorem split_links {rule : Rule} {links : List Link} (h : Laid s (xs ++ ys) r)
    (hys : ys.map (·.token) = links.flatMap Link.all)
    (hops : ∀ l ∈ links, (l.token, l.op) ∈ rule.operators) (hf : Follows rule.level r) :
    ∃ m, Laid s xs m ∧ Laid m ys r ∧ (∀ j < rule.level, Follows j m) ∧
      (links = [] → m = r) := by
  cases links with
  | nil =>
    obtain rfl : ys = [] := by simpa using hys
    refine ⟨r, by simpa using h, ⟨by simpa using h.rest, h.rest, by simp, by simp, .nil⟩,
      fun j hj => hf.mono (Nat.le_of_lt hj), fun _ => rfl⟩
  | cons l links =>
    cases ys with
    | nil => simp [Link.all] at hys
    | cons y ys =>
      have hy : y.token = l.token := by
        simp only [List.map_cons, List.flatMap_cons, Link.all, List.cons_append] at hys
        exact (List.cons.inj hys).1
      have hop := hops l List.mem_cons_self
      rw [← hy] at hop
      obtain ⟨m, h1, h2, hf'⟩ := h.split (Lexeme.leads_of_operator hop)
      exact ⟨m, h1, h2, hf', by simp⟩

end Laid

namespace Grammar

open Reader

variable {α : Type}

/-! ## Tokens -/

/-- A mark is spelt by itself. -/
theorem spelling_of_mark (hx : x.token = .mark c) : x.spelling = [c] := by
  have hspells := x.spells
  rw [hx] at hspells
  generalize x.spelling = w at hspells
  cases hspells with
  | mark => rfl

/-- A mark that is laid at the front of a text is read off it. -/
theorem reads_mark_of_laid (h : Laid s (x :: xs) r) (hx : x.token = .mark c) (v : α) :
    ∃ m, (mark c v).Reads s v m ∧ Laid m xs r ∧ m.length < s.length := by
  obtain ⟨m, ht, hm, hl, hlen⟩ := h.tail
  rw [spelling_of_mark hx] at ht
  refine ⟨m, reads_mark.2 ⟨rfl, x.space ++ m, ht, ?_⟩, hl, hlen⟩
  rw [skipBlanks_append x.blank, hm]

/-- A keyword that is laid at the front of a text is read off it. -/
theorem reads_keyword_of_laid {word : String} (h : Laid s (x :: xs) r)
    (hx : x.token = .keyword word) (v : α) :
    ∃ m, (keyword word v).Reads s v m ∧ Laid m xs r ∧ m.length < s.length := by
  obtain ⟨m, ht, hm, hl, hlen⟩ := h.tail
  have hspells := x.spells
  rw [hx] at hspells
  generalize hw : x.spelling = w at hspells
  cases hspells with
  | keyword hword hlower =>
    rw [hw] at ht
    refine ⟨m, reads_keyword.2 ⟨rfl, _, _, ht, hlower, ?_⟩, hl, hlen⟩
    rw [skipBlanks_append x.blank, hm]

/-- The first character of a text is that of its first lexeme. -/
theorem head_of_laid (h : Laid s (x :: xs) r) : (skipBlanks s).head? = x.spelling.head? := by
  obtain ⟨m, ht, -, -, -⟩ := h.tail
  obtain ⟨c, cs, hw, -⟩ := x.spells.head
  rw [ht, hw]
  rfl

/-- Characters of a kind and a rest that begins otherwise are told apart. -/
theorem span_append {f : Char → Bool} (hw : ∀ c ∈ w, f c = true)
    (ht : ∀ c ∈ t.head?, f c = false) : (w ++ t).takeWhile f = w ∧ (w ++ t).dropWhile f = t := by
  rw [List.takeWhile_append_of_pos hw, List.dropWhile_append_of_pos hw]
  cases t with
  | nil => simp
  | cons c t => simp [ht c rfl]

/-- A number is read up to a character that is neither a digit nor a point. -/
theorem reads_decimal {d : Decimal} (hw : (Token.number d).Spells w)
    (ht : ∀ c ∈ t.head?, c.isDigit = false ∧ c ≠ '.') : decimal.Reads (w ++ t) d t := by
  have ht' : ∀ c ∈ t.head?, c.isDigit = false := fun c hc => (ht c hc).1
  cases hw with
  | whole hne hw =>
    obtain ⟨c, cs, rfl⟩ := List.exists_cons_of_ne_nil hne
    obtain ⟨htake, hdrop⟩ := span_append hw ht'
    have hrun := run_decimal_whole (s := cs ++ t) (hw c List.mem_cons_self) hdrop
      fun d hd => (ht d hd).2
    rw [← List.cons_append, htake] at hrun
    exact ⟨_, hrun⟩
  | @pointed w f hne hw hf =>
    obtain ⟨c, cs, rfl⟩ := List.exists_cons_of_ne_nil hne
    obtain ⟨htake, hdrop⟩ := span_append (t := '.' :: (f ++ t)) hw (by simp)
    obtain ⟨htake', hdrop'⟩ := span_append hf ht'
    have hrun := run_decimal_pointed (s := cs ++ '.' :: (f ++ t)) (hw c List.mem_cons_self) hdrop
    rw [← List.cons_append, htake, htake', hdrop'] at hrun
    exact ⟨_, by rw [← hrun]; simp⟩
  | @fraction f hne hf =>
    obtain ⟨c, cs, rfl⟩ := List.exists_cons_of_ne_nil hne
    obtain ⟨htake, hdrop⟩ := span_append hf ht'
    have hrun := run_decimal_fraction (hf c List.mem_cons_self) (cs ++ t)
    rw [← List.cons_append, htake, hdrop] at hrun
    exact ⟨_, hrun⟩

/-- A number that is laid at the front of a text is read off it. -/
theorem reads_number_of_laid {d : Decimal} (h : Laid s [x] r) (hx : x.token = .number d)
    (hf : Follows 0 r) : number.Reads s (.number d.toFloat) r := by
  have hspells := x.spells
  rw [hx] at hspells
  have hhead : ∀ c ∈ (x.space ++ r).head?, c.isDigit = false ∧ c ≠ '.' := by
    intro c hc
    obtain hb | ⟨-, hl⟩ := Laid.head_rest hf hc
    · refine ⟨Bool.eq_false_iff.2 fun hd => ?_, fun hdot => ?_⟩
      · rw [not_isBlank_of_isDigit hd] at hb
        cases hb
      · subst hdot
        revert hb
        decide
    · obtain ⟨-, hd, -, hdot, -⟩ := leading_spec c (mem_leading hl)
      exact ⟨hd, hdot⟩
  have hd := reads_decimal hspells hhead
  have ht : skipBlanks s = x.spelling ++ (x.space ++ r) := by
    simpa [Lexeme.text] using h.text
  refine reads_bind.2 ⟨d, r, reads_padded.2 ⟨x.space ++ r, ht ▸ hd, ?_⟩, reads_pure.2 ⟨rfl, rfl⟩⟩
  rw [skipBlanks_append x.blank, h.rest]

/-- A name that is laid at the front of a text is read off it as a reference. -/
theorem reads_reference_of_laid {letters : List Char} (h : Laid s [x] r)
    (hx : x.token = .name letters) (hf : Follows 0 r) :
    reference.Reads s (.cell (String.ofList letters)) r := by
  obtain ⟨ht, c, cs, rfl, hc, hcs⟩ := h.name_text hx
  have hend := h.head_rest_of_name (by simp [hx, Token.IsName]) hf
  obtain ⟨htake, hdrop⟩ := span_append hcs hend
  have hrun := run_cellName hc (cs ++ (x.space ++ r))
  rw [htake, hdrop] at hrun
  refine reads_bind.2 ⟨_, r, reads_padded.2 ⟨x.space ++ r, ⟨_, by rw [ht]; exact hrun⟩, ?_⟩,
    reads_pure.2 ⟨rfl, rfl⟩⟩
  rw [skipBlanks_append x.blank, h.rest]

/-! ## What an operand is not -/

/-- Where neither a digit nor a point stands, no number is read. -/
theorem number_fails (h : ∀ c ∈ (skipBlanks s).head?, c.isDigit = false ∧ c ≠ '.') :
    number.Fails s :=
  fails_bind.2 (.inl (fails_padded.2 ⟨_, run_decimal_of_not h⟩))

/-- Where no parenthesis opens, no group is read. -/
theorem group_fails {inner : Reader Expr} (h : ∀ c ∈ (skipBlanks s).head?, c ≠ '(') :
    (group inner).Fails s :=
  fails_bind.2 (.inl (fails_mark.2 h))

/-- A name is not taken for a function with its arguments. -/
theorem call_fails_of_name {letters : List Char} {inner : Reader Expr} (h : Laid s [x] r)
    (hx : x.token = .name letters) (hf : Follows 0 r) : (call inner).Fails s := by
  obtain ⟨ht, c, cs, hletters, hc, hcs⟩ := h.name_text hx
  have hend := h.head_rest_of_name (by simp [hx, Token.IsName]) hf
  have hname : ∀ d ∈ letters, isLetterOrNumeral d = true := by
    rw [hletters]
    exact List.forall_mem_cons.2 ⟨isLetterOrNumeral_of_isLetter hc, hcs⟩
  obtain ⟨f, m, hread⟩ | hfail := functionName.reads_or_fails s
  · -- the word `max` or `min` begins the name, and no parenthesis follows the word
    refine fails_bind.2 (.inr ⟨f, m, hread, fails_bind.2 (.inl (fails_mark.2 ?_))⟩)
    intro d hd hpar
    obtain ⟨w, m', hs, hw, rfl⟩ : ∃ w m', skipBlanks s = w ++ m' ∧
        (∀ c ∈ w, isLetterOrNumeral c = true) ∧ m = skipBlanks m' := by
      rcases reads_orElse.1 hread with hread | ⟨-, hread⟩ <;>
      · obtain ⟨-, w, m', hs, hw, rfl⟩ := reads_keyword.1 hread
        exact ⟨w, m', hs, isLetterOrNumeral_of_spelling (by decide) hw, rfl⟩
    obtain ⟨u, hu, rfl⟩ := prefix_of_name (ht.symm.trans hs) hw hend
    rw [skipBlanks_skipBlanks] at hd
    cases u with
    | nil =>
      rw [List.nil_append, skipBlanks_append x.blank, h.rest] at hd
      have := (leading_spec d (mem_leading (hf d hd))).2.2.1
      exact this hpar
    | cons d' u =>
      have hd' : isLetterOrNumeral d' = true := hname d' (by simp [hu])
      rw [skipBlanks_eq_self (by simpa using not_isBlank_of_isLetterOrNumeral hd')] at hd
      obtain rfl : d' = d := by simpa using hd
      rw [hpar] at hd'
      revert hd'
      decide
  · exact fails_bind.2 (.inl hfail)

/-- Where neither `not` nor a minus can begin, no sign is read. -/
theorem signReader_fails_of_head (h : ∀ c ∈ (skipBlanks s).head?, c.toLower ≠ 'n' ∧ c ≠ '-') :
    signReader.Fails s :=
  fails_orElse.2
    ⟨fails_keyword_of_head rfl fun c hc => (h c hc).1, fails_mark.2 fun c hc => (h c hc).2⟩

/-- A name that is laid is not read as a sign. -/
theorem signReader_fails_of_name {letters : List Char} (h : Laid s [x] r)
    (hx : x.token = .name letters) (hf : Follows 0 r) : signReader.Fails s := by
  obtain ⟨ht, c, cs, hletters, hc, hcs⟩ := h.name_text hx
  have hend := h.head_rest_of_name (by simp [hx, Token.IsName]) hf
  refine fails_orElse.2 ⟨fails_keyword fun w m hs hw => ?_, fails_mark.2 fun d hd hminus => ?_⟩
  · obtain ⟨u, hu, -⟩ := prefix_of_name (ht.symm.trans hs)
      (isLetterOrNumeral_of_spelling (by decide) hw) hend
    have hlen : w.length = 3 := by
      simpa using congrArg List.length hw
    refine h.notNot x (by simp) ?_
    rw [hx, Token.BeginsWithNot, hu, ← hlen, List.take_left]
    exact hw
  · rw [ht, hletters] at hd
    obtain rfl : c = d := by simpa using hd
    exact (isLetter_spec hc).2.2.2 hminus

/-- A number begins like no sign. -/
theorem head_of_number {d : Decimal} (hw : (Token.number d).Spells w) :
    ∀ c ∈ w.head?, c.toLower ≠ 'n' ∧ c ≠ '-' := by
  have hdigit : ∀ c : Char, c.isDigit = true → c.toLower ≠ 'n' ∧ c ≠ '-' := by
    refine fun c hc => ⟨fun hn => ?_, fun hminus => ?_⟩
    · rcases eq_or_eq_of_toLower hn with rfl | rfl <;> revert hc <;> decide
    · subst hminus
      revert hc
      decide
  intro c hc
  cases hw with
  | whole _ hw => exact hdigit c (hw c (List.mem_of_mem_head? hc))
  | @pointed w f hne hw hf =>
    rw [List.head?_append_of_ne_nil _ hne] at hc
    exact hdigit c (hw c (List.mem_of_mem_head? hc))
  | @fraction f hne hf =>
    obtain rfl : '.' = c := by simpa using hc
    decide

/-- The names of functions begin with one letter. -/
theorem head_of_function {f : Builtin} (hw : (Token.keyword f.name).Spells w) :
    ∀ c ∈ w.head?, c.toLower = 'm' := by
  intro c hc
  obtain ⟨cs, rfl⟩ := List.head?_eq_some_iff.1 hc
  cases hw with
  | keyword hword hlower =>
    cases f with
    | max | min => exact (List.cons.inj hlower).1

/-- Neither operator before an operand begins an atom. -/
theorem signReader_fails {ts : List Token} (hd : Derives .atom ts e)
    (hts : xs.map (·.token) = ts) (h : Laid s xs r) (hf : Follows 0 r) : signReader.Fails s := by
  cases hd with
  | chain hrule => simp [Rule.Repeating] at hrule
  | number =>
    obtain ⟨x, rfl, hx⟩ := List.map_eq_singleton_iff.1 hts
    refine signReader_fails_of_head ?_
    rw [head_of_laid h]
    exact head_of_number (hx ▸ x.spells)
  | group =>
    obtain ⟨x, xs, rfl, hx, -⟩ := List.map_eq_cons_iff.1 hts
    refine signReader_fails_of_head ?_
    rw [head_of_laid h, spelling_of_mark hx]
    simp
  | call =>
    obtain ⟨x, xs, rfl, hx, -⟩ := List.map_eq_cons_iff.1 hts
    refine signReader_fails_of_head ?_
    intro c hc
    rw [head_of_laid h] at hc
    have hm := head_of_function (hx ▸ x.spells) c hc
    refine ⟨by simp [hm], ?_⟩
    intro hminus
    subst hminus
    revert hm
    decide
  | name =>
    obtain ⟨x, rfl, hx⟩ := List.map_eq_singleton_iff.1 hts
    exact signReader_fails_of_name h hx hf

/-! ## Operators -/

/-- The reader of a mark among others reads what stands at the front of a text. -/
theorem fails_mark_of_laid {d : Char} (h : Laid s (x :: xs) r) (hx : x.token = .mark c)
    (hd : c ≠ d) (v : α) : (mark d v).Fails s := by
  refine fails_mark.2 ?_
  intro c' hc'
  rw [head_of_laid h, spelling_of_mark hx] at hc'
  obtain rfl : c = c' := by simpa using hc'
  exact hd

/-- An operator that is laid at the front of a text is read off it. -/
theorem reads_operator_of_laid {rule : Rule} {op : BinaryOp} (h : Laid s (x :: xs) r)
    (hop : (x.token, op) ∈ rule.operators) :
    ∃ m, rule.operator.Reads s op m ∧ Laid m xs r ∧ m.length < s.length := by
  cases rule with
  | atom | signed => cases hop
  | product | sum =>
    simp only [Rule.operators, List.mem_cons, Prod.mk.injEq, List.not_mem_nil, or_false] at hop
    rcases hop with ⟨hx, rfl⟩ | ⟨hx, rfl⟩
    · obtain ⟨m, hr, hl, hlen⟩ := reads_mark_of_laid h hx _
      exact ⟨m, reads_orElse.2 (.inl hr), hl, hlen⟩
    · obtain ⟨m, hr, hl, hlen⟩ := reads_mark_of_laid h hx _
      refine ⟨m, reads_orElse.2 (.inr ⟨fails_mark_of_laid h hx ?_ _, hr⟩), hl, hlen⟩
      decide
  | comparison =>
    simp only [Rule.operators, List.mem_cons, Prod.mk.injEq, List.not_mem_nil, or_false] at hop
    rcases hop with ⟨hx, rfl⟩ | ⟨hx, rfl⟩ | ⟨hx, rfl⟩
    · obtain ⟨m, hr, hl, hlen⟩ := reads_mark_of_laid h hx _
      exact ⟨m, reads_orElse.2 (.inl hr), hl, hlen⟩
    · obtain ⟨m, hr, hl, hlen⟩ := reads_mark_of_laid h hx _
      refine ⟨m, reads_orElse.2 (.inr ⟨fails_mark_of_laid h hx ?_ _, reads_orElse.2 (.inl hr)⟩), hl,
        hlen⟩
      decide
    · obtain ⟨m, hr, hl, hlen⟩ := reads_mark_of_laid h hx _
      refine ⟨m, reads_orElse.2 (.inr ⟨fails_mark_of_laid h hx ?_ _,
        reads_orElse.2 (.inr ⟨fails_mark_of_laid h hx ?_ _, hr⟩)⟩), hl, hlen⟩ <;> decide
  | conjunction | disjunction =>
    obtain ⟨hx, rfl⟩ := Prod.mk.inj (List.mem_singleton.1 hop)
    exact reads_keyword_of_laid h hx _

/-- No operator of a rule begins where only looser ones follow. -/
theorem operator_fails {rule : Rule} (hf : Follows rule.level r) : rule.operator.Fails r := by
  have hmark : ∀ c (v : BinaryOp), levelOf c ≤ rule.level → (mark c v).Fails r := by
    intro c v hc
    refine fails_mark.2 ?_
    intro d hd hdc
    rw [hf.skipBlanks] at hd
    have := hf d hd
    rw [hdc] at this
    omega
  cases rule with
  | atom | signed => exact ⟨_, rfl⟩
  | product | sum =>
    exact fails_orElse.2 ⟨hmark _ _ (by decide), hmark _ _ (by decide)⟩
  | comparison =>
    exact fails_orElse.2 ⟨hmark _ _ (by decide),
      fails_orElse.2 ⟨hmark _ _ (by decide), hmark _ _ (by decide)⟩⟩
  | conjunction =>
    refine fails_keyword_of_head rfl ?_
    intro c hc ha
    rw [hf.skipBlanks] at hc
    have := hf c hc
    rw [levelOf_of_toLower.1 ha] at this
    exact absurd this (by decide)
  | disjunction =>
    refine fails_keyword_of_head rfl ?_
    intro c hc ho
    rw [hf.skipBlanks] at hc
    have := hf c hc
    rw [levelOf_of_toLower.2 ho] at this
    exact absurd this (by decide)

/-! ## Phrases -/

/-- Wherever the tokens are laid and no operator of the rule follows, the reader of the rule takes
them off the text. -/
def Complete (rule : Rule) (ts : List Token) (e : Expr) : Prop :=
  ∀ (depth : Nat) ⦃xs s r⦄, xs.map (·.token) = ts → Laid s xs r → Follows rule.level r →
    s.length ≤ depth → (rule.reader (expression depth)).Reads s e r

/-- Numbers are read wherever they are laid. -/
theorem number_complete {d : Decimal} : Complete .atom [.number d] (.number d.toFloat) := by
  intro depth xs s r hts hl hf hdepth
  obtain ⟨x, rfl, hx⟩ := List.map_eq_singleton_iff.1 hts
  exact reads_orElse.2 (.inl (reads_number_of_laid hl hx hf))

/-- Names are read as references wherever they are laid. -/
theorem name_complete {letters : List Char} :
    Complete .atom [.name letters] (.cell (String.ofList letters)) := by
  intro depth xs s r hts hl hf hdepth
  obtain ⟨x, rfl, hx⟩ := List.map_eq_singleton_iff.1 hts
  obtain ⟨ht, c, cs, hletters, hc, -⟩ := hl.name_text hx
  obtain ⟨hdigit, hdot, hpar, -⟩ := isLetter_spec hc
  have hhead : (skipBlanks s).head? = some c := by rw [ht, hletters]; rfl
  have hnumber : number.Fails s := number_fails (by simp [hhead, hdigit, hdot])
  have hgroup : (group (expression depth)).Fails s := group_fails (by simp [hhead, hpar])
  exact reads_orElse.2 (.inr ⟨hnumber, reads_orElse.2 (.inr ⟨hgroup,
    reads_orElse.2 (.inr ⟨call_fails_of_name hl hx hf, reads_reference_of_laid hl hx hf⟩)⟩)⟩)

/-- An expression before a comma or a closing parenthesis is read up to that mark. -/
theorem reads_enclosed {ts : List Token} (depth : Nat) (ih : Complete .disjunction ts e)
    (hdepth : s.length < depth) (hl : Laid s (xs ++ y :: ys) r) (hts : xs.map (·.token) = ts)
    (hy : y.token = .mark c) (hc : levelOf c = 6) :
    ∃ m m', (expression depth).Reads s e m ∧ (mark c ()).Reads m () m' ∧ Laid m' ys r ∧
      m'.length ≤ s.length ∧ (ys = [] → m' = r) := by
  obtain ⟨depth, rfl⟩ := Nat.exists_eq_succ_of_ne_zero (Nat.ne_zero_of_lt hdepth)
  obtain ⟨m, hl₁, hl₂, hf⟩ := hl.split (Lexeme.leads_of_mark hy (by omega))
  obtain ⟨m', hmark, hl₃, hlen⟩ := reads_mark_of_laid hl₂ hy ()
  have he := ih depth hts hl₁ (hf 5 (by omega)) (Nat.le_of_lt_succ hdepth)
  have hle := hl₁.length_le
  refine ⟨m, m', he, hmark, hl₃, by omega, ?_⟩
  intro hys
  obtain ⟨-, m'', -, rfl⟩ := reads_mark.1 hmark
  have ht := hl₃.text
  rwa [skipBlanks_skipBlanks, hys] at ht

/-- Groups are read if what they enclose is. -/
theorem group_complete {ts : List Token} (ih : Complete .disjunction ts e) :
    Complete .atom (.mark '(' :: ts ++ [.mark ')']) e := by
  intro depth xs s r hts hl hf hdepth
  obtain ⟨x, xs, rfl, hx, hts'⟩ := List.map_eq_cons_iff.1 hts
  obtain ⟨xs, ys, rfl, hxs, hys⟩ := List.map_eq_append_iff.1 hts'
  obtain ⟨y, rfl, hy⟩ := List.map_eq_singleton_iff.1 hys
  have hhead : (skipBlanks s).head? = some '(' := by
    rw [head_of_laid hl, spelling_of_mark hx, List.head?_cons]
  have hnumber : number.Fails s := number_fails (by rw [hhead]; simp)
  obtain ⟨m₁, hopen, hl₁, hlen⟩ := reads_mark_of_laid hl hx ()
  obtain ⟨m₂, m₃, he, hclose, -, -, hend⟩ :=
    reads_enclosed depth ih (Nat.lt_of_lt_of_le hlen hdepth) hl₁ hxs hy (by decide)
  obtain rfl := hend rfl
  have hgroup : (group (expression depth)).Reads s e m₃ :=
    reads_bind.2 ⟨(), m₁, hopen, reads_bind.2 ⟨e, m₂, he, reads_bind.2 ⟨(), m₃, hclose,
      reads_pure.2 ⟨rfl, rfl⟩⟩⟩⟩
  exact reads_orElse.2 (.inr ⟨hnumber, reads_orElse.2 (.inl hgroup)⟩)

/-- The name of a function that is laid at the front of a text is read off it. -/
theorem reads_functionName_of_laid {f : Builtin} (h : Laid s (x :: xs) r)
    (hx : x.token = .keyword f.name) :
    ∃ m, functionName.Reads s f m ∧ Laid m xs r ∧ m.length < s.length := by
  cases f with
  | max =>
    obtain ⟨m, hr, hl, hlen⟩ := reads_keyword_of_laid h hx Builtin.max
    exact ⟨m, reads_orElse.2 (.inl hr), hl, hlen⟩
  | min =>
    obtain ⟨m, hr, hl, hlen⟩ := reads_keyword_of_laid h hx Builtin.min
    refine ⟨m, reads_orElse.2 (.inr ⟨fails_keyword fun w m hs hw => ?_, hr⟩), hl, hlen⟩
    obtain ⟨-, w', m', hs', hw', -⟩ := reads_keyword.1 hr
    -- one text does not begin with both words
    have hmax : w.length = 3 := by simpa using congrArg List.length hw
    have hmin : w'.length = 3 := by simpa [Builtin.name] using congrArg List.length hw'
    obtain ⟨rfl, -⟩ := List.append_inj (hs.symm.trans hs') (hmax.trans hmin.symm)
    rw [hw] at hw'
    revert hw'
    decide

/-- Calls are read if their arguments are. -/
theorem call_complete {f : Builtin} {ts us : List Token} {d : Expr}
    (ih : Complete .disjunction ts e) (ih' : Complete .disjunction us d) :
    Complete .atom (.keyword f.name :: .mark '(' :: ts ++ .mark ',' :: us ++ [.mark ')'])
      (.call f [e, d]) := by
  intro depth xs s r hts hl hf hdepth
  simp only [List.cons_append, List.append_assoc] at hts
  obtain ⟨x, xs, rfl, hx, hts₁⟩ := List.map_eq_cons_iff.1 hts
  obtain ⟨y, xs, rfl, hy, hts₂⟩ := List.map_eq_cons_iff.1 hts₁
  obtain ⟨xs, ys, rfl, hxs, hts₃⟩ := List.map_eq_append_iff.1 hts₂
  obtain ⟨z, ys, rfl, hz, hts₄⟩ := List.map_eq_cons_iff.1 hts₃
  obtain ⟨ys, zs, rfl, hys, hzs⟩ := List.map_eq_append_iff.1 hts₄
  obtain ⟨w, rfl, hw⟩ := List.map_eq_singleton_iff.1 hzs
  obtain ⟨m₁, hname, hl₁, hlen₁⟩ := reads_functionName_of_laid hl hx
  obtain ⟨m₂, hopen, hl₂, hlen₂⟩ := reads_mark_of_laid hl₁ hy ()
  obtain ⟨m₃, m₄, he, hcomma, hl₄, hlen₄, -⟩ :=
    reads_enclosed depth ih (by omega) hl₂ hxs hz (by decide)
  obtain ⟨m₅, m₆, hd, hclose, -, -, hend⟩ :=
    reads_enclosed depth ih' (by omega) hl₄ hys hw (by decide)
  obtain rfl := hend rfl
  have hcall : (call (expression depth)).Reads s (.call f [e, d]) m₆ :=
    reads_bind.2 ⟨f, m₁, hname, reads_bind.2 ⟨(), m₂, hopen, reads_bind.2 ⟨e, m₃, he,
      reads_bind.2 ⟨(), m₄, hcomma, reads_bind.2 ⟨d, m₅, hd, reads_bind.2 ⟨(), m₆, hclose,
        reads_pure.2 ⟨rfl, rfl⟩⟩⟩⟩⟩⟩⟩
  have hletter : ∀ c ∈ (skipBlanks s).head?, isLetter c = true := by
    intro c hc
    rw [head_of_laid hl] at hc
    refine isLetter_of_toLower ?_
    rw [head_of_function (hx ▸ x.spells) c hc]
    decide
  have hnumber : number.Fails s := number_fails fun c hc =>
    have ⟨hdigit, hdot, _⟩ := isLetter_spec (hletter c hc)
    ⟨hdigit, hdot⟩
  have hgroup : (group (expression depth)).Fails s := group_fails fun c hc =>
    (isLetter_spec (hletter c hc)).2.2.1
  exact reads_orElse.2 (.inr ⟨hnumber, reads_orElse.2 (.inr ⟨hgroup, reads_orElse.2 (.inl hcall)⟩)⟩)

/-- A sign that is laid at the front of a text is read off it. -/
theorem reads_sign_of_laid {op : UnaryOp} (h : Laid s (x :: xs) r) (hx : x.token = .sign op) :
    ∃ m, signReader.Reads s op m ∧ Laid m xs r ∧ m.length < s.length := by
  cases op with
  | not =>
    obtain ⟨m, hr, hl, hlen⟩ := reads_keyword_of_laid h hx UnaryOp.not
    exact ⟨m, reads_orElse.2 (.inl hr), hl, hlen⟩
  | neg =>
    obtain ⟨m, hr, hl, hlen⟩ := reads_mark_of_laid h hx UnaryOp.neg
    refine ⟨m, reads_orElse.2 (.inr ⟨fails_keyword_of_head rfl fun c hc => ?_, hr⟩), hl, hlen⟩
    rw [head_of_laid h, spelling_of_mark hx] at hc
    obtain rfl : '-' = c := by simpa using hc
    decide

/-- The operators before an operand are read one after the other. -/
theorem repeats_signs {signs : List UnaryOp} (hts : xs.map (·.token) = signs.map Token.sign)
    (hl : Laid s (xs ++ ys) r) :
    ∃ m, Repeats signReader s signs m ∧ Laid m ys r ∧ m.length ≤ s.length := by
  induction signs generalizing xs s with
  | nil =>
    obtain rfl : xs = [] := by simpa using hts
    exact ⟨s, .nil, hl, Nat.le_refl _⟩
  | cons sign signs ih =>
    obtain ⟨x, xs, rfl, hx, hxs⟩ := List.map_eq_cons_iff.1 hts
    obtain ⟨m, hr, hl', hlen⟩ := reads_sign_of_laid hl hx
    obtain ⟨m', hrs, hl'', hlen'⟩ := ih hxs hl'
    exact ⟨m', .cons hr hrs, hl'', by omega⟩

/-- Signed operands are read if their operands are. -/
theorem signed_complete {signs : List UnaryOp} {ts : List Token} (hd : Derives .atom ts e)
    (ih : Complete .atom ts e) : Complete .signed (signs.map Token.sign ++ ts)
      (signs.foldr .unary e) := by
  intro depth xs s r hts hl hf hdepth
  obtain ⟨xs, ys, rfl, hxs, hys⟩ := List.map_eq_append_iff.1 hts
  obtain ⟨m, hsigns, hl', hlen⟩ := repeats_signs hxs hl
  have hfails := signReader_fails hd hys hl' hf
  exact reads_bind.2 ⟨signs, m, hsigns.reads signReader_advances hfails,
    reads_bind.2 ⟨e, r, ih depth hys hl' hf (Nat.le_trans hlen hdepth), reads_pure.2 ⟨rfl, rfl⟩⟩⟩

/-- A sum alone is read as a comparison. -/
theorem single_complete {ts : List Token} (ih : Complete .sum ts e) :
    Complete .comparison ts e := by
  intro depth xs s r hts hl hf hdepth
  have hsum := ih depth hts hl (hf.mono (by decide)) hdepth
  show (comparison (expression depth)).Reads s e r
  rw [Rule.comparison_eq]
  refine reads_bind.2 ⟨e, r, hsum, reads_bind.2 ⟨none, r, reads_optionally.2 ?_, ?_⟩⟩
  · exact .inr ⟨rfl, rfl, fails_bind.2 (.inl (operator_fails hf))⟩
  · exact reads_pure.2 ⟨rfl, rfl⟩

/-- Comparisons are read if both sums are. -/
theorem compare_complete {ts us : List Token} {d : Expr} {t : Token} {op : BinaryOp}
    (ih : Complete .sum ts e) (hop : (t, op) ∈ Rule.operators .comparison)
    (ih' : Complete .sum us d) : Complete .comparison (ts ++ t :: us) (.binary op e d) := by
  intro depth xs s r hts hl hf hdepth
  obtain ⟨xs, ys, rfl, hxs, hys⟩ := List.map_eq_append_iff.1 hts
  obtain ⟨y, ys, rfl, hy, hys'⟩ := List.map_eq_cons_iff.1 hys
  rw [← hy] at hop
  obtain ⟨m, hl₁, hl₂, hf'⟩ := hl.split (Lexeme.leads_of_operator hop)
  obtain ⟨m', hr, hl₃, hlen⟩ := reads_operator_of_laid hl₂ hop
  have hle := hl₁.length_le
  have hleft := ih depth hxs hl₁ (hf' 2 (by decide)) hdepth
  have hright := ih' depth hys' hl₃ (hf.mono (by decide)) (by omega)
  show (comparison (expression depth)).Reads s _ r
  rw [Rule.comparison_eq]
  refine reads_bind.2 ⟨e, m, hleft, reads_bind.2 ⟨some (op, d), r, reads_optionally.2 ?_, ?_⟩⟩
  · exact .inl ⟨_, rfl, reads_bind.2 ⟨op, m', hr, reads_bind.2 ⟨d, r, hright,
      reads_pure.2 ⟨rfl, rfl⟩⟩⟩⟩
  · exact reads_pure.2 ⟨rfl, rfl⟩

/-- Operators with their operands are read one after the other. -/
theorem repeats_links {rule : Rule} {links : List Link} (depth : Nat)
    (hops : ∀ l ∈ links, (l.token, l.op) ∈ rule.operators)
    (ih : ∀ l ∈ links, Complete rule.operand l.tokens l.operand) (hf : Follows rule.level r)
    (hts : xs.map (·.token) = links.flatMap Link.all) (hl : Laid s xs r) (hs : links = [] → s = r)
    (hdepth : s.length ≤ depth) :
    Repeats (operation rule.operator (rule.operand.reader (expression depth))) s
      (links.map fun l => (l.op, l.operand)) r := by
  induction links generalizing xs s with
  | nil =>
    obtain rfl := hs rfl
    exact .nil
  | cons l links ihl =>
    obtain ⟨hop, hops⟩ := List.forall_mem_cons.1 hops
    obtain ⟨ihop, ih⟩ := List.forall_mem_cons.1 ih
    rw [List.flatMap_cons, Link.all, List.cons_append] at hts
    obtain ⟨x, xs, rfl, hx, hxs⟩ := List.map_eq_cons_iff.1 hts
    obtain ⟨xs, ys, rfl, hxs', hys⟩ := List.map_eq_append_iff.1 hxs
    obtain ⟨m, hr, hl', hlen⟩ := reads_operator_of_laid hl (hx ▸ hop)
    obtain ⟨m', hl₁, hl₂, hf', hm'⟩ := hl'.split_links hys hops hf
    have hle := hl₁.length_le
    have hoperand := ihop depth hxs' hl₁ (hf' _ (Rule.level_operand_lt hop)) (by omega)
    have hlink : (operation rule.operator (rule.operand.reader (expression depth))).Reads s
        (l.op, l.operand) m' :=
      reads_bind.2 ⟨l.op, m, hr, reads_bind.2 ⟨l.operand, m', hoperand, reads_pure.2 ⟨rfl, rfl⟩⟩⟩
    exact .cons hlink (ihl hops ih hys hl₂ hm' (by omega))

/-- An operator with its right operand takes something off the text. -/
theorem operation_advances {rule : Rule} {depth : Nat} :
    (operation rule.operator (rule.operand.reader (expression depth))).Advances := by
  intro s v r h
  obtain ⟨l, xs, -, -, -, -, hne, hl⟩ :=
    link_of_reads_operation rule (operand_sound (expression_sound depth) rule) h
  exact hl.length_lt hne

/-- Chains are read if their operands are. -/
theorem chain_complete {rule : Rule} {ts : List Token} {links : List Link}
    (hrule : rule.Repeating) (ih : Complete rule.operand ts e)
    (hops : ∀ l ∈ links, (l.token, l.op) ∈ rule.operators)
    (ih' : ∀ l ∈ links, Complete rule.operand l.tokens l.operand) :
    Complete rule (ts ++ links.flatMap Link.all) (links.foldl Link.extend e) := by
  intro depth xs s r hts hl hf hdepth
  obtain ⟨xs, ys, rfl, hxs, hys⟩ := List.map_eq_append_iff.1 hts
  obtain ⟨m, hl₁, hl₂, hf', hm⟩ := hl.split_links hys hops hf
  have hle := hl₁.length_le
  have hfirst := ih depth hxs hl₁ (hf' _ hrule.level_operand_lt) hdepth
  have hlinks := repeats_links depth hops ih' hf hys hl₂ hm (by omega)
  have hstop : (operation rule.operator (rule.operand.reader (expression depth))).Fails r :=
    fails_bind.2 (.inl (operator_fails hf))
  rw [Rule.reader_eq_chain hrule]
  refine reads_bind.2 ⟨e, m, hfirst, reads_bind.2 ⟨_, r, hlinks.reads operation_advances hstop, ?_⟩⟩
  exact reads_pure.2 ⟨by rw [List.foldl_map]; rfl, rfl⟩

/-- Every phrase is read off a text where it is laid. -/
theorem complete_of_derives {rule : Rule} {ts : List Token} (h : Derives rule ts e) :
    Complete rule ts e := by
  induction h with
  | chain hrule _ hops _ ih ih' => exact chain_complete hrule ih hops ih'
  | single _ ih => exact single_complete ih
  | compare _ hop _ ih ih' => exact compare_complete ih hop ih'
  | signed hd ih => exact signed_complete hd ih
  | number => exact number_complete
  | group _ ih => exact group_complete ih
  | call _ _ ih ih' => exact call_complete ih ih'
  | name => exact name_complete

end Grammar

/-- A text that is laid out of lexemes is read as the expression that their tokens derive. -/
theorem parse_complete {s : String} {e : Expr} (h : Sentence s.toList e) : parse s = .ok e := by
  obtain ⟨⟨before, xs, hblank, hnotNot, hapart⟩, htext, hd⟩ := h
  have hskip : skipBlanks s.toList = xs.flatMap Lexeme.text := by
    rw [← htext, Layout.text, skipBlanks_append hblank]
    cases xs with
    | nil => rfl
    | cons x xs =>
      obtain ⟨c, cs, hx, hc⟩ := x.head
      exact skipBlanks_eq_self (by simpa [hx] using hc)
  have hl : Laid s.toList xs [] := ⟨by simpa using hskip, rfl,
    fun _ _ _ _ c hc => by simp at hc, hnotNot, hapart⟩
  have hread : (Grammar.expression (s.toList.length + 1)).Reads s.toList e [] :=
    Grammar.complete_of_derives hd s.toList.length rfl hl (fun c hc => by simp at hc)
      (Nat.le_refl _)
  exact parse_eq_ok_iff.2 ⟨[], Grammar.reads_formula.2 ⟨hread, rfl⟩⟩

/-- A text stands for at most one expression. -/
theorem Sentence.unique {s : List Char} {e e' : Expr} (h : Sentence s e) (h' : Sentence s e') :
    e = e' := by
  have hs : (String.ofList s).toList = s := String.toList_ofList
  have hp := parse_complete (hs.symm ▸ h)
  rw [parse_complete (hs.symm ▸ h')] at hp
  exact (Except.ok.inj hp).symm

/-- Tokens that derive an expression are read as it, whatever white space they are laid out with. -/
theorem Layout.parse_text {l : Layout} {e : Expr} (h : Derives .disjunction l.tokens e) :
    parse (String.ofList l.text) = .ok e :=
  parse_complete ⟨l, String.toList_ofList.symm, h⟩

/-- Reading accepts exactly the sentences and gives the one expression that they stand for, which
the white space between the tokens does not change. -/
theorem parse_exact :
    (∀ (s : String) (e : Expr), parse s = .ok e ↔ Sentence s.toList e) ∧
    (∀ (s : List Char) (e e' : Expr), Sentence s e → Sentence s e' → e = e') ∧
    ∀ (l l' : Layout) (e : Expr), l.tokens = l'.tokens → Derives .disjunction l.tokens e →
      parse (String.ofList l.text) = .ok e ∧ parse (String.ofList l'.text) = .ok e :=
  ⟨fun _ _ => ⟨parse_sound, parse_complete⟩, fun _ _ _ h h' => h.unique h', fun _ _ _ ht hd =>
    ⟨Layout.parse_text hd, Layout.parse_text (ht ▸ hd)⟩⟩

/-- The word `not` and the name `E1`, with any case of the word and any white space behind it. -/
def Layout.notE1 (word space : List Char) (hword : word.map Char.toLower = "not".toList)
    (hspace : allBlank space = true) : Layout where
  before := []
  lexemes := [⟨.keyword "not", word, space, .keyword (by decide) hword, hspace⟩,
    ⟨.name ['E', '1'], ['E', '1'], [], .name rfl (List.all_eq_true.1 rfl), allBlank_nil⟩]
  blank := allBlank_nil
  notNot := by simp [Token.BeginsWithNot]
  apart := by simp [Lexeme.Apart, Token.IsName]

/-- A negated reference is derived. -/
theorem derives_notE1 :
    Derives .disjunction [.keyword "not", .name ['E', '1']] (.unary .not (.cell "E1")) := by
  have hsigned : Derives .signed [.keyword "not", .name ['E', '1']] (.unary .not (.cell "E1")) :=
    @Derives.signed [.not] _ _ .name
  exact hsigned.of_signed

/-- No white space is needed behind the word `not`. -/
theorem parse_notE1 : Sentence "NOTE1".toList (.unary .not (.cell "E1")) ∧
    parse "NOTE1" = .ok (.unary .not (.cell "E1")) ∧
    parse "not E1" = .ok (.unary .not (.cell "E1")) := by
  have hjoined : String.ofList (Layout.notE1 "NOT".toList [] rfl rfl).text = "NOTE1" := rfl
  have hspaced : String.ofList (Layout.notE1 "not".toList [' '] rfl rfl).text = "not E1" := rfl
  have h := parse_exact.2.2 (.notE1 "NOT".toList [] rfl rfl)
    (.notE1 "not".toList [' '] rfl rfl) _ rfl derives_notE1
  rw [hjoined, hspaced] at h
  exact ⟨(parse_exact.1 _ _).1 h.1, h⟩

end FormulaSheet
