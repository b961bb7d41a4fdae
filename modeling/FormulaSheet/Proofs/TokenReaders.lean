import FormulaSheet.Formula.Grammar
import FormulaSheet.Proofs.ReaderLaws
import Mathlib.Data.Bool.AllAny

/-!
# The readers of tokens

What each reader of a token makes of a text, obstacles included: marks, keywords, numbers and names.
A text is described by its first characters, as far as the reader looks at them.

The classes of characters are kept apart here too: white space is neither a letter nor a numeral
(`not_isBlank_of_isLetterOrNumeral`), and the character that begins an operator tells how tightly
the operator binds (`levelOf`).
-/

namespace FormulaSheet

/-! ## Characters -/

/-- Only a letter and its capital have the letter as lower case. -/
theorem eq_or_eq_of_toLower {c d : Char} (h : c.toLower = d) :
    c = d ∨ c = Char.ofNat (d.toNat - 32) := by
  by_cases hc : c.val ≥ 'A'.val ∧ c.val ≤ 'Z'.val
  · refine .inr ?_
    have hlower : c.toLower.val = c.val + ('a'.val - 'A'.val) := congrArg Char.val (dif_pos hc)
    have hbound : c.val.toNat ≤ 90 := UInt32.le_iff_toNat_le.1 hc.2
    have hdistance : ('a'.val - 'A'.val).toNat = 32 := rfl
    have hnat : c.toLower.val.toNat = c.val.toNat + 32 := by
      rw [hlower, UInt32.toNat_add, hdistance]
      omega
    rw [← h, Char.toNat, hnat, Nat.add_sub_cancel]
    exact (Char.ofNat_toNat c).symm
  · have hlower : c.toLower = c := dif_neg hc
    exact .inl (hlower.symm.trans h)

/-- What a table of ranges contains is in one of its ranges. -/
theorem exists_range_of_anyContains {ranges : List CodeRange} {n : Nat}
    (h : CodeRange.anyContains ranges n = true) : ∃ r ∈ ranges, r.first ≤ n ∧ n ≤ r.last := by
  induction ranges with
  | nil => cases h
  | cons range later ih =>
    unfold CodeRange.anyContains at h
    split at h
    · cases h
    · next hn =>
      rcases Bool.or_eq_true_iff.1 h with h | h
      · exact ⟨range, List.mem_cons_self, by omega, by simpa using h⟩
      · obtain ⟨r, hr, hb⟩ := ih h
        exact ⟨r, List.mem_cons_of_mem _ hr, hb⟩

/-- White space is neither a letter nor a numeral. -/
theorem isBlank_ranges : ∀ r ∈ blankRanges, ∀ n ∈ List.range' r.first (r.last + 1 - r.first),
    CodeRange.anyContains letterRanges n = false ∧
      CodeRange.anyContains numeralRanges n = false := by
  decide +kernel

/-- Letters and numerals are no white space. -/
theorem not_isBlank_of_isLetterOrNumeral {c : Char} (h : isLetterOrNumeral c = true) :
    isBlank c = false := by
  refine Bool.eq_false_iff.2 ?_
  intro hb
  obtain ⟨r, hr, h1, h2⟩ := exists_range_of_anyContains hb
  obtain ⟨hl, hn⟩ := isBlank_ranges r hr c.toNat (List.mem_range'_1.2 ⟨h1, by omega⟩)
  simp [isLetterOrNumeral, isLetter, isNumeral, hl, hn] at h

/-- The letters that keywords are made of. -/
def keywordLetters : List Char := ['a', 'd', 'i', 'm', 'n', 'o', 'r', 't', 'x']

/-- Both cases of the letters of keywords are letters. -/
theorem isLetter_keywordLetters : ∀ l ∈ keywordLetters,
    isLetter l = true ∧ isLetter (Char.ofNat (l.toNat - 32)) = true :=
  List.all_iff_forall_prop.1 (by decide)

/-- A letter of a keyword is a letter in any case. -/
theorem isLetter_of_toLower {c : Char} (h : c.toLower ∈ keywordLetters) : isLetter c = true := by
  rcases eq_or_eq_of_toLower (c := c) rfl with hc | hc
  · exact hc ▸ (isLetter_keywordLetters _ h).1
  · exact hc ▸ (isLetter_keywordLetters _ h).2

/-- Letters can stand in a name. -/
theorem isLetterOrNumeral_of_isLetter {c : Char} (h : isLetter c = true) :
    isLetterOrNumeral c = true := by
  rw [isLetterOrNumeral, h, Bool.true_or]

/-- No letter comes before the capital `A`. -/
theorem letterRanges_first : ∀ r ∈ letterRanges, 65 ≤ r.first := by decide +kernel

/-- A letter is none of the other characters that an operand may begin with. -/
theorem isLetter_spec {c : Char} (h : isLetter c = true) :
    c.isDigit = false ∧ c ≠ '.' ∧ c ≠ '(' ∧ c ≠ '-' := by
  obtain ⟨r, hr, h1, -⟩ := exists_range_of_anyContains h
  have hc : 65 ≤ c.toNat := Nat.le_trans (letterRanges_first r hr) h1
  refine ⟨Bool.eq_false_iff.2 fun hd => ?_, ?_, ?_, ?_⟩
  · have : c.toNat ≤ 57 := by
      simpa [UInt32.le_iff_toNat_le] using (Bool.and_eq_true_iff.1 hd).2
    omega
  all_goals
    rintro rfl
    revert hc
    decide

/-- How tightly the operator binds that a character begins: from 1 for products to 5 for `or`, and 6
for the marks that end what stands between parentheses. No operator begins with a character of
level 0. -/
def levelOf (c : Char) : Nat :=
  if c = '*' ∨ c = '/' then 1
  else if c = '+' ∨ c = '-' then 2
  else if c = '=' ∨ c = '<' ∨ c = '>' then 3
  else if c.toLower = 'a' then 4
  else if c.toLower = 'o' then 5
  else if c = ',' ∨ c = ')' then 6
  else 0

/-- The characters of a level above 0. -/
def leading : List Char := ['*', '/', '+', '-', '=', '<', '>', 'a', 'A', 'o', 'O', ',', ')']

/-- What has a level is a mark or a letter that begins one of the words. -/
theorem mem_leading {c : Char} (h : 0 < levelOf c) : c ∈ leading := by
  unfold levelOf at h
  split at h
  · next hc => rcases hc with rfl | rfl <;> decide
  split at h
  · next hc => rcases hc with rfl | rfl <;> decide
  split at h
  · next hc => rcases hc with rfl | rfl | rfl <;> decide
  split at h
  · next hc => rcases eq_or_eq_of_toLower hc with rfl | rfl <;> decide
  split at h
  · next hc => rcases eq_or_eq_of_toLower hc with rfl | rfl <;> decide
  split at h
  · next hc => rcases hc with rfl | rfl <;> decide
  · cases h

/-- What begins an operator is neither white space nor the start of an operand in parentheses or of
a number. -/
theorem leading_spec : ∀ c ∈ leading,
    isBlank c = false ∧ c.isDigit = false ∧ c ≠ '(' ∧ c ≠ '.' ∧
      (isLetterOrNumeral c = true → levelOf c = 4 ∨ levelOf c = 5) :=
  List.all_iff_forall_prop.1 (by decide)

/-- What begins an operator or a closing mark has a level up to six. -/
theorem leading_level_le : ∀ c ∈ leading, levelOf c ≤ 6 :=
  List.all_iff_forall_prop.1 (by decide)

/-- There are six levels, and none for other characters. -/
theorem levelOf_le (c : Char) : levelOf c ≤ 6 := by
  cases h : levelOf c with
  | zero => exact Nat.zero_le 6
  | succ k => exact h ▸ leading_level_le c (mem_leading (h ▸ Nat.succ_pos k))

/-- What has a level is no white space. -/
theorem not_isBlank_of_levelOf {c : Char} (h : 0 < levelOf c) : isBlank c = false :=
  (leading_spec c (mem_leading h)).1

/-- White space has no level. -/
theorem levelOf_of_isBlank {c : Char} (h : isBlank c = true) : levelOf c = 0 := by
  refine Nat.eq_zero_of_not_pos ?_
  intro hpos
  rw [not_isBlank_of_levelOf hpos] at h
  cases h

/-! ## White space -/

/-- White space in front is skipped. -/
theorem skipBlanks_append {w : List Char} (h : allBlank w = true) (s : List Char) :
    skipBlanks (w ++ s) = skipBlanks s :=
  List.dropWhile_append_of_pos (by simpa [allBlank] using h)

/-- A text that does not begin with white space is left as it is. -/
theorem skipBlanks_eq_self {s : List Char} (h : ∀ c ∈ s.head?, isBlank c = false) :
    skipBlanks s = s := by
  cases s with
  | nil => rfl
  | cons c s => exact List.dropWhile_cons_of_neg (by simp [h c rfl])

/-- The character behind those of a kind is of another kind. -/
theorem not_of_head_dropWhile {f : Char → Bool} {s : List Char} {c : Char}
    (h : c ∈ (s.dropWhile f).head?) : f c = false := by
  have hnot := List.head?_dropWhile_not f s
  rw [show (s.dropWhile f).head? = some c from h] at hnot
  exact hnot

/-- A text begins with a character of a kind or not. -/
theorem begins_or_head_not (f : Char → Bool) (s : List Char) :
    (∃ c m, s = c :: m ∧ f c = true) ∨ ∀ c ∈ s.head?, f c = false := by
  cases s with
  | nil => exact .inr fun c hc => nomatch hc
  | cons c m =>
    cases hc : f c with
    | true => exact .inl ⟨c, m, rfl, hc⟩
    | false =>
      refine .inr ?_
      intro d hd
      obtain rfl := Option.some.inj hd
      exact hc

/-- A text begins with a character or not. -/
theorem begins_or_head_ne (c : Char) (s : List Char) :
    (∃ m, s = c :: m) ∨ ∀ d ∈ s.head?, d ≠ c := by
  obtain ⟨d, m, rfl, hd⟩ | hne := begins_or_head_not (· == c) s
  · exact .inl ⟨m, by rw [beq_iff_eq.1 hd]⟩
  · exact .inr fun d hd => beq_eq_false_iff_ne.1 (hne d hd)

/-- No white space stands where it was skipped. -/
theorem isBlank_head_skipBlanks {s : List Char} {c : Char} (h : c ∈ (skipBlanks s).head?) :
    isBlank c = false :=
  not_of_head_dropWhile h

/-- To skip white space twice is to skip it once. -/
@[simp] theorem skipBlanks_skipBlanks (s : List Char) : skipBlanks (skipBlanks s) = skipBlanks s :=
  skipBlanks_eq_self fun _ => isBlank_head_skipBlanks

/-- What is skipped is white space. -/
theorem exists_blank_append (s : List Char) :
    ∃ w, allBlank w = true ∧ s = w ++ skipBlanks s :=
  ⟨s.takeWhile isBlank, by simp [allBlank, List.all_takeWhile],
    List.takeWhile_append_dropWhile.symm⟩

/-- To skip white space leaves no more of a text than there was. -/
theorem length_skipBlanks_le (s : List Char) : (skipBlanks s).length ≤ s.length :=
  (List.dropWhile_suffix isBlank).length_le

namespace Grammar

open Reader

variable {α β : Type} {s m r : List Char} {c : Char}

/-! ## Marks and keywords -/

/-- A token is read with the white space around it, and what is read is made into a value. -/
theorem run_token (p : Reader α) (g : α → β) (s : List Char) :
    (padded p >>= fun v => pure (g v)).run s = match p.run (skipBlanks s) with
      | .read v m o => .read (g v) (skipBlanks m) o
      | .blocked o => .blocked o := by
  rw [run_bind, run_padded]
  cases p.run (skipBlanks s) <;> rfl

/-- A mark is read with the white space around it. -/
theorem run_mark_of_eq (v : α) (h : skipBlanks s = c :: m) :
    (mark c v).run s = .read v (skipBlanks m) none := by
  rw [mark, run_token, h, character, run_test, if_pos (by simp)]

/-- A mark is blocked at another character. -/
theorem run_mark_of_ne (v : α) (h : ∀ d ∈ (skipBlanks s).head?, d ≠ c) :
    (mark c v).run s = .blocked ⟨skipBlanks s, [.character c]⟩ := by
  rw [mark, run_token]
  cases hs : skipBlanks s with
  | nil => rfl
  | cons d m =>
    rw [hs] at h
    rw [character, run_test, if_neg (by simpa using h d rfl)]

/-- A mark is read if it is the first character behind white space. -/
theorem reads_mark {v v' : α} :
    (mark c v).Reads s v' r ↔ v' = v ∧ ∃ m, skipBlanks s = c :: m ∧ r = skipBlanks m := by
  constructor
  · intro hr
    obtain ⟨m, hm⟩ | hne := begins_or_head_ne c (skipBlanks s)
    · obtain ⟨rfl, rfl⟩ := hr.unique ⟨_, run_mark_of_eq v hm⟩
      exact ⟨rfl, m, hm, rfl⟩
    · exact absurd hr (Fails.not_reads ⟨_, run_mark_of_ne v hne⟩)
  · rintro ⟨rfl, m, hm, rfl⟩
    exact ⟨_, run_mark_of_eq v' hm⟩

/-- A mark fails if it is not the first character behind white space. -/
theorem fails_mark {v : α} : (mark c v).Fails s ↔ ∀ d ∈ (skipBlanks s).head?, d ≠ c := by
  refine ⟨fun h d hd hc => ?_, fun h => ⟨_, run_mark_of_ne v h⟩⟩
  obtain ⟨m, hm⟩ := List.head?_eq_some_iff.1 hd
  exact h.not_reads (reads_mark.2 ⟨rfl, m, hc ▸ hm, rfl⟩)

/-- The letters of a word are read one by one, in either case. -/
theorem run_letters_cons (l : Char) (word : List Char) (c : Char) (s : List Char) :
    (letters (l :: word)).run (c :: s) =
      if c.toLower = l then (letters word).run s else .blocked ⟨c :: s, [.kind]⟩ := by
  rw [letters, run_bind, kind, run_test]
  by_cases h : c.toLower = l <;> simp [h]

/-- The letters of a word are blocked at the end. -/
theorem run_letters_cons_nil (l : Char) (word : List Char) :
    (letters (l :: word)).run [] = .blocked ⟨[], [.kind]⟩ := rfl

/-- The letters of a word are read in either case. -/
theorem reads_letters {u : Unit} {word : List Char} : (letters word).Reads s u r ↔
    ∃ w, s = w ++ r ∧ w.map Char.toLower = word := by
  induction word generalizing s with
  | nil => simp [letters, eq_comm]
  | cons l word ih =>
    cases s with
    | nil =>
      refine ⟨fun h => absurd h (Fails.not_reads ⟨_, run_letters_cons_nil l word⟩), ?_⟩
      rintro ⟨w, hw, h⟩
      obtain rfl := List.append_eq_nil_iff.1 hw.symm |>.1
      simp at h
    | cons c s =>
      by_cases hc : c.toLower = l
      · have h : (letters (l :: word)).Reads (c :: s) u r ↔ (letters word).Reads s u r := by
          simp only [Reads, run_letters_cons, hc, if_true]
        rw [h, ih]
        constructor
        · rintro ⟨w, rfl, hw⟩
          exact ⟨c :: w, rfl, by simp [hw, hc]⟩
        · rintro ⟨- | ⟨d, w⟩, hs, hw⟩
          · simp at hw
          · obtain ⟨rfl, rfl⟩ := List.cons.inj hs
            exact ⟨w, rfl, by simpa [hc] using hw⟩
      · refine ⟨fun h => absurd h (Fails.not_reads ⟨_, by rw [run_letters_cons, if_neg hc]⟩), ?_⟩
        rintro ⟨- | ⟨d, w⟩, hs, hw⟩
        · simp at hw
        · obtain ⟨rfl, rfl⟩ := List.cons.inj hs
          exact absurd (List.cons.inj hw).1 hc

/-- A keyword is read if it is spelt behind white space. -/
theorem reads_keyword {word : String} {v v' : α} : (keyword word v).Reads s v' r ↔
    v' = v ∧ ∃ w m, skipBlanks s = w ++ m ∧ w.map Char.toLower = word.toList ∧
      r = skipBlanks m := by
  rw [keyword, reads_bind]
  simp only [reads_pure, reads_padded, reads_letters]
  constructor
  · rintro ⟨u, m, ⟨m', ⟨w, hs, hw⟩, rfl⟩, rfl, rfl⟩
    exact ⟨rfl, w, m', hs, hw, rfl⟩
  · rintro ⟨rfl, w, m, hs, hw, rfl⟩
    exact ⟨(), _, ⟨m, ⟨w, hs, hw⟩, rfl⟩, rfl, rfl⟩

/-- A keyword is missing where the text has another letter. -/
theorem fails_keyword {word : String} {v : α}
    (h : ∀ w m, skipBlanks s = w ++ m → w.map Char.toLower ≠ word.toList) :
    (keyword word v).Fails s := by
  refine ((keyword word v).reads_or_fails s).resolve_left ?_
  rintro ⟨v', r, hr⟩
  obtain ⟨-, w, m, hs, hw, -⟩ := reads_keyword.1 hr
  exact h w m hs hw

/-- A keyword is missing where the text begins with a character that is not its first letter. -/
theorem fails_keyword_of_head {word : String} {v : α} {l : Char} {ls : List Char}
    (hword : word.toList = l :: ls) (h : ∀ c ∈ (skipBlanks s).head?, c.toLower ≠ l) :
    (keyword word v).Fails s := by
  refine fails_keyword ?_
  intro w m hs hw
  cases w with
  | nil => rw [hword] at hw; cases hw
  | cons c w =>
    rw [hword] at hw
    exact h c (by simp [hs]) (List.cons.inj hw).1

/-! ## Numbers -/

section
variable {f : List Char}

/-- A repetition of digits takes all digits. -/
theorem run_many_digit (s : List Char) : (many digit).run s =
    .read (s.takeWhile Char.isDigit) (s.dropWhile Char.isDigit)
      (some ⟨s.dropWhile Char.isDigit, [.kind]⟩) :=
  run_many_kind Char.isDigit s

/-- A repetition of at least one digit takes all digits. -/
theorem run_many1_digit (hc : c.isDigit = true) (s : List Char) : (many1 digit).run (c :: s) =
    .read ((c :: s).takeWhile Char.isDigit) ((c :: s).dropWhile Char.isDigit)
      (some ⟨(c :: s).dropWhile Char.isDigit, [.kind]⟩) := by
  rw [List.takeWhile_cons_of_pos hc, List.dropWhile_cons_of_pos hc]
  exact run_many1_kind hc s

/-- A repetition of at least one digit is blocked where no digit stands. -/
theorem run_many1_digit_of_not (h : ∀ c ∈ s.head?, c.isDigit = false) :
    (many1 digit).run s = .blocked ⟨s, [.kind]⟩ :=
  run_many1_kind_of_not h

/-- An obstacle behind the characters of a kind is further than one before them. -/
theorem join_dropWhile (c : Char) (f : List Char) (accepts : Char → Bool)
    (es fs : List Expectation) :
    Obstacle.join ⟨c :: f, es⟩ ⟨f.dropWhile accepts, fs⟩ = ⟨f.dropWhile accepts, fs⟩ :=
  Obstacle.join_of_further (Nat.lt_succ_of_le (List.dropWhile_suffix _).length_le)

/-- Digits, a point, and the digits after it if there are any. -/
theorem run_decimal_pointed (hc : c.isDigit = true)
    (h : (c :: s).dropWhile Char.isDigit = '.' :: f) :
    decimal.run (c :: s) = .read
      (.ofDigits ((c :: s).takeWhile Char.isDigit) (f.takeWhile Char.isDigit))
      (f.dropWhile Char.isDigit) (some ⟨f.dropWhile Char.isDigit, [.kind]⟩) := by
  have hf : (do let _ ← character '.'; many digit : Reader (List Char)).run ('.' :: f) =
      .read (f.takeWhile Char.isDigit) (f.dropWhile Char.isDigit)
        (some ⟨f.dropWhile Char.isDigit, [.kind]⟩) := by
    rw [run_bind_of_read (m := f) (v := '.') (o := none) rfl, run_many_digit, Outcome.after_none]
  rw [decimal]
  refine run_orElse_of_read ?_
  rw [run_bind_of_read (run_many1_digit hc s), h, run_bind_of_read (run_optionally_of_read hf),
    run_pure]
  simp [Outcome.after, join_dropWhile]

/-- Digits without a point. -/
theorem run_decimal_whole (hc : c.isDigit = true) (hm : (c :: s).dropWhile Char.isDigit = m)
    (h : ∀ d ∈ m.head?, d ≠ '.') :
    decimal.run (c :: s) = .read (.ofDigits ((c :: s).takeWhile Char.isDigit) []) m
      (some ⟨m, [.kind, .character '.']⟩) := by
  have hf : (do let _ ← character '.'; many digit : Reader (List Char)).run m =
      .blocked ⟨m, [.character '.']⟩ := by
    refine run_bind_of_blocked ?_
    cases m with
    | nil => rfl
    | cons d m => rw [character, run_test, if_neg (by simpa using h d rfl)]
  rw [decimal]
  refine run_orElse_of_read ?_
  rw [run_bind_of_read (run_many1_digit hc s), hm, run_bind_of_read (run_optionally_of_blocked hf),
    run_pure]
  simp [Outcome.after, Obstacle.join_of_same, merge]

/-- A number that begins with its point. -/
theorem run_decimal_fraction (hc : c.isDigit = true) (s : List Char) :
    decimal.run ('.' :: c :: s) = .read (.ofDigits [] ((c :: s).takeWhile Char.isDigit))
      ((c :: s).dropWhile Char.isDigit) (some ⟨(c :: s).dropWhile Char.isDigit, [.kind]⟩) := by
  have h1 : (many1 digit).run ('.' :: c :: s) = .blocked ⟨'.' :: c :: s, [.kind]⟩ :=
    run_many1_digit_of_not (by simp)
  rw [decimal, run_orElse_of_blocked (run_bind_of_blocked h1),
    run_bind_of_read (m := c :: s) (v := '.') (o := none) rfl,
    run_bind_of_read (run_many1_digit hc s), run_pure]
  simp only [Outcome.after, Obstacle.join?_none, Obstacle.none_join?, Obstacle.join?_some,
    join_dropWhile]

/-- A point that no digit follows. -/
theorem run_decimal_point (h : ∀ d ∈ s.head?, d.isDigit = false) :
    decimal.run ('.' :: s) = .blocked ⟨s, [.kind]⟩ := by
  have h1 : (many1 digit).run ('.' :: s) = .blocked ⟨'.' :: s, [.kind]⟩ :=
    run_many1_digit_of_not (by simp)
  rw [decimal, run_orElse_of_blocked (run_bind_of_blocked h1),
    run_bind_of_read (m := s) (v := '.') (o := none) rfl,
    run_bind_of_blocked (run_many1_digit_of_not h)]
  simp [Outcome.after, Obstacle.after, Obstacle.join_of_further]

/-- Neither a digit nor a point. -/
theorem run_decimal_of_not (h : ∀ d ∈ s.head?, d.isDigit = false ∧ d ≠ '.') :
    decimal.run s = .blocked ⟨s, [.kind, .character '.']⟩ := by
  have h2 : (character '.').run s = .blocked ⟨s, [.character '.']⟩ := by
    cases s with
    | nil => rfl
    | cons d s => rw [character, run_test, if_neg (by simpa using (h d rfl).2)]
  rw [decimal, run_orElse_of_blocked
      (run_bind_of_blocked (run_many1_digit_of_not fun d hd => (h d hd).1)),
    run_bind_of_blocked h2]
  simp [Outcome.after, Obstacle.after, Obstacle.join_of_same, merge]

end

/-! ## Names -/

/-- The name of a cell is a letter with all letters and numerals behind it. -/
theorem run_cellName (hc : isLetter c = true) (s : List Char) : cellName.run (c :: s) =
    .read (String.ofList (c :: s.takeWhile isLetterOrNumeral)) (s.dropWhile isLetterOrNumeral)
      (some ⟨s.dropWhile isLetterOrNumeral, [.kind]⟩) := by
  have h : (kind isLetter).run (c :: s) = .read c s none := by simp [kind, run_test, hc]
  rw [cellName, run_bind_of_read h, run_bind_of_read (run_many_kind isLetterOrNumeral s)]
  rfl

/-- The name of a cell is blocked where no letter stands. -/
theorem run_cellName_of_not (h : ∀ c ∈ s.head?, isLetter c = false) :
    cellName.run s = .blocked ⟨s, [.kind]⟩ := by
  refine run_bind_of_blocked ?_
  cases s with
  | nil => rfl
  | cons c s => simp [kind, run_test, h c rfl]

end Grammar

end FormulaSheet
