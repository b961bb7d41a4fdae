import FormulaSheet.Proofs.Faults

/-!
# Creating the cells that are missing

An evaluation fails with the name of the first missing cell. `Spreadsheet.supply` is a round of
evaluating a formula and creating the cell that it fails for. The cells that are missing are then
created one by one, in the order of their first references in the text (`Sheet.missing`), and as
soon as all are there the formula has a value (`Spreadsheet.supply_missing`).
-/

namespace FormulaSheet

/-! ## First occurrences -/

section
variable {α : Type} [DecidableEq α] {a b : α} {l : List α}

/-- The first entry stays the first when duplicates are removed. -/
theorem head?_eraseDups (l : List α) : l.eraseDups.head? = l.head? := by
  cases l with
  | nil => rfl
  | cons a l => rw [List.eraseDups_cons, List.head?_cons, List.head?_cons]

/-- What comes first among some members of a list comes first in the list. -/
theorem idxOf_lt_of_filter {p : α → Bool} (ha : p a = true) (hb : p b = true)
    (h : (l.filter p).idxOf a < (l.filter p).idxOf b) : l.idxOf a < l.idxOf b := by
  induction l with
  | nil => exact h
  | cons c l ih =>
    by_cases hca : c = a
    · subst hca
      rw [List.filter_cons_of_pos ha] at h
      have hcb : c ≠ b := by
        rintro rfl
        exact Nat.lt_irrefl _ h
      rw [List.idxOf_cons_self, List.idxOf_cons_ne _ hcb]
      exact Nat.succ_pos _
    · by_cases hcb : c = b
      · subst hcb
        rw [List.filter_cons_of_pos hb, List.idxOf_cons_self] at h
        exact absurd h (Nat.not_lt_zero _)
      · rw [List.idxOf_cons_ne _ hca, List.idxOf_cons_ne _ hcb]
        refine Nat.succ_lt_succ (ih ?_)
        by_cases hc : p c = true
        · rw [List.filter_cons_of_pos hc, List.idxOf_cons_ne _ hca, List.idxOf_cons_ne _ hcb] at h
          exact Nat.lt_of_succ_lt_succ h
        · rwa [List.filter_cons_of_neg hc] at h

/-- A list without its repetitions is in the order of first occurrences. -/
theorem pairwise_eraseDups : ∀ l : List α, l.eraseDups.Pairwise fun a b => l.idxOf a < l.idxOf b
  | [] => .nil
  | c :: l => by
    have hne : ∀ a ∈ (l.filter (!· == c)).eraseDups, (!a == c) = true := fun a ha =>
      (List.mem_filter.1 (List.mem_eraseDups.1 ha)).2
    have hidx : ∀ a, (!a == c) = true → (c :: l).idxOf a = l.idxOf a + 1 := by
      intro a ha
      refine List.idxOf_cons_ne _ ?_
      rintro rfl
      simp at ha
    rw [List.eraseDups_cons, List.pairwise_cons]
    refine ⟨fun a ha => ?_, (pairwise_eraseDups (l.filter (!· == c))).imp_of_mem ?_⟩
    · rw [List.idxOf_cons_self, hidx a (hne a ha)]
      exact Nat.succ_pos _
    · intro a b ha hb hab
      rw [hidx a (hne a ha), hidx b (hne b hb)]
      exact Nat.succ_lt_succ (idxOf_lt_of_filter (hne a ha) (hne b hb) hab)
termination_by l => l.length
decreasing_by exact Nat.lt_succ_of_le (List.length_filter_le _ _)

end

/-! ## Missing cells -/

namespace Sheet

variable {sheet : Sheet} {names later : List String} {name key text : String}

/-- The keys that a sheet lacks for these names, in the order in which the names come first. -/
def missing (sheet : Sheet) (names : List String) : List String :=
  ((names.map normalName).filter (· ∉ sheet.keys)).eraseDups

/-- A key is lacking if it is no key of the sheet but the normal form of one of the names. -/
theorem mem_missing :
    key ∈ sheet.missing names ↔ key ∉ sheet.keys ∧ ∃ name ∈ names, normalName name = key := by
  rw [missing, List.mem_eraseDups, List.mem_filter, decide_eq_true_iff, List.mem_map, and_comm]

/-- The missing keys are in the order of the first names that stand for them. -/
theorem pairwise_missing (sheet : Sheet) (names : List String) :
    (sheet.missing names).Pairwise fun key other =>
      (names.map normalName).idxOf key < (names.map normalName).idxOf other := by
  refine (pairwise_eraseDups _).imp_of_mem ?_
  intro key other hkey hother hlt
  exact idxOf_lt_of_filter (List.mem_filter.1 (List.mem_eraseDups.1 hkey)).2
    (List.mem_filter.1 (List.mem_eraseDups.1 hother)).2 hlt

/-- No key is lacking twice. -/
theorem nodup_missing (sheet : Sheet) (names : List String) : (sheet.missing names).Nodup := by
  refine (sheet.pairwise_missing names).imp ?_
  rintro key _ hlt rfl
  exact Nat.lt_irrefl _ hlt

/-- The first missing key is that of the first name without a cell. -/
theorem head?_missing (sheet : Sheet) (names : List String) : (sheet.missing names).head? =
    (names.find? (!sheet.contains ·)).map normalName := by
  have hcontains : (fun name => decide (normalName name ∉ sheet.keys)) = (!sheet.contains ·) := by
    funext name
    rw [Bool.eq_iff_iff, decide_eq_true_iff, Bool.not_eq_true', ← Bool.not_eq_true, contains_iff]
  rw [missing, head?_eraseDups, List.head?_filter, List.find?_map, ← hcontains]
  rfl

/-- Lacking keys are normal forms. -/
theorem normalName_of_mem_missing (h : key ∈ sheet.missing names) : normalName key = key := by
  obtain ⟨-, name, -, rfl⟩ := mem_missing.1 h
  exact normalName_normalName name

/-- No cell is found under a name whose normal form is no key. -/
theorem get?_eq_none_iff : sheet.get? name = none ↔ normalName name ∉ sheet.keys := by
  rw [← contains_iff, contains, Option.isSome_iff_ne_none, not_not]

/-- To set a formula adds one key, that of its name. -/
theorem mem_keys_setFormula :
    key ∈ (sheet.setFormula name text).2.keys ↔ key = normalName name ∨ key ∈ sheet.keys :=
  mem_keys_putCell

/-- When the first missing cell has been created, the others are missing still. -/
theorem missing_setFormula (h : sheet.missing names = key :: later) :
    (sheet.setFormula key text).2.missing names = later := by
  have hkey : normalName key = key := normalName_of_mem_missing (h ▸ List.mem_cons_self)
  have hfilter : (names.map normalName).filter (· ∉ (sheet.setFormula key text).2.keys) =
      ((names.map normalName).filter (· ∉ sheet.keys)).filter (!· == key) := by
    rw [List.filter_filter]
    refine List.filter_congr ?_
    intro other _
    rw [Bool.eq_iff_iff]
    simp [mem_keys_setFormula, hkey]
  rw [missing, hfilter]
  rw [missing] at h
  generalize (names.map normalName).filter (· ∉ sheet.keys) = lacking at h ⊢
  cases lacking with
  | nil => cases h
  | cons other lacking =>
    rw [List.eraseDups_cons, List.cons.injEq] at h
    obtain ⟨rfl, rfl⟩ := h
    rw [List.filter_cons_of_neg (by simp)]

/-- A missing cell is created without a formula and with the value 0, and no other is changed. -/
theorem get?_create (h : key ∈ sheet.missing names) : (sheet.setFormula key "").2.get? name =
    if normalName name = key then some {} else sheet.get? name := by
  have hkey : normalName key = key := normalName_of_mem_missing h
  have hnone : sheet.get? key = none := by
    rw [get?_eq_none_iff, hkey]
    exact (mem_missing.1 h).1
  rw [get?_setFormula, hnone, hkey]
  rfl

/-- An evaluation fails for the first missing cell, if there is one. -/
theorem errorOf_evaluate_missing {e : Expr} (settings : Settings) (h : parse text = .ok e) :
    errorOf (sheet.evaluate settings text) =
      (sheet.missing e.references).head?.map fun key => .fault (.unknownCell key) := by
  rw [errorOf_evaluate, h, head?_missing, Option.map_map]
  rfl

end Sheet

/-! ## Rounds -/

namespace Spreadsheet

variable {s : Spreadsheet} {text name key : String} {later : List String} {e : Expr} {n : Nat}

/-- The spreadsheet after a round: if the formula fails for a missing cell, that cell is created. -/
def supply (text : String) (s : Spreadsheet) : Spreadsheet :=
  match s.evaluate text with
  | .error (.fault (.unknownCell name)) => s.setFormula name ""
  | _ => s

/-- A formula that lacks no cell has a value. -/
theorem evaluate_eq_ok (h : parse text = .ok e) (hmissing : s.sheet.missing e.references = []) :
    ∃ x, s.evaluate text = .ok x := by
  rw [← errorOf_eq_none, evaluate, Sheet.errorOf_evaluate_missing s.settings h, hmissing]
  rfl

/-- A formula that lacks cells fails with the first of them. -/
theorem evaluate_eq_error (h : parse text = .ok e)
    (hmissing : s.sheet.missing e.references = key :: later) :
    s.evaluate text = .error (.fault (.unknownCell key)) := by
  rw [← errorOf_eq_some, evaluate, Sheet.errorOf_evaluate_missing s.settings h, hmissing]
  rfl

/-- A round changes nothing if no cell is missing, and else it creates the first one. -/
theorem supply_eq (h : parse text = .ok e) : s.supply text =
    match s.sheet.missing e.references with
    | [] => s
    | key :: _ => s.setFormula key "" := by
  unfold supply
  cases hmissing : s.sheet.missing e.references with
  | nil =>
    obtain ⟨x, hx⟩ := evaluate_eq_ok h hmissing
    generalize s.evaluate text = result at hx ⊢
    rw [hx]
  | cons key later =>
    have herror := evaluate_eq_error h hmissing
    generalize s.evaluate text = result at herror ⊢
    rw [herror]

/-- A round leaves all but the first of the missing cells missing. -/
theorem missing_supply (h : parse text = .ok e) :
    (s.supply text).sheet.missing e.references = (s.sheet.missing e.references).tail := by
  rw [supply_eq h]
  cases hmissing : s.sheet.missing e.references with
  | nil => exact hmissing
  | cons key later => exact Sheet.missing_setFormula hmissing

/-- Each round takes the first of the missing cells away. -/
theorem missing_rounds (h : parse text = .ok e) (n : Nat) :
    ((supply text)^[n] s).sheet.missing e.references = (s.sheet.missing e.references).drop n := by
  induction n with
  | zero => rfl
  | succ n ih => rw [Function.iterate_succ_apply', missing_supply h, ih, List.tail_drop]

/-- The cells that the rounds have created are new, and all others are as before. -/
theorem get?_rounds (h : parse text = .ok e) (n : Nat) : ((supply text)^[n] s).sheet.get? name =
    if normalName name ∈ (s.sheet.missing e.references).take n then some {}
    else s.sheet.get? name := by
  induction n with
  | zero => rfl
  | succ n ih =>
    have hmissing := missing_rounds (s := s) h n
    rw [Function.iterate_succ_apply', supply_eq h, hmissing]
    cases hdrop : (s.sheet.missing e.references).drop n with
    | nil =>
      have hall : (s.sheet.missing e.references).take (n + 1) =
          (s.sheet.missing e.references).take n := by
        rw [List.take_of_length_le (List.drop_eq_nil_iff.1 hdrop),
          List.take_of_length_le (Nat.le_succ_of_le (List.drop_eq_nil_iff.1 hdrop))]
      rw [hall]
      exact ih
    | cons key later =>
      have htake : (s.sheet.missing e.references).take (n + 1) =
          (s.sheet.missing e.references).take n ++ [key] := by
        rw [List.take_add_one, ← List.head?_drop, hdrop]
        rfl
      have hkey : key ∈ ((supply text)^[n] s).sheet.missing e.references := by
        rw [hmissing, hdrop]
        exact List.mem_cons_self
      rw [htake]
      refine (Sheet.get?_create hkey).trans ?_
      by_cases hname : normalName name = key
      · rw [if_pos hname, if_pos (List.mem_append_right _ (List.mem_singleton.2 hname))]
      · simp only [hname, if_false, ih, List.mem_append, List.mem_singleton, or_false]

/-- A round leads to a spreadsheet that can be reached. -/
theorem Reachable.supply (hs : s.Reachable) : (s.supply text).Reachable := by
  unfold Spreadsheet.supply
  split
  · exact .setFormula _ _ hs
  · exact hs

/-- A round leaves the settings as they are. -/
theorem settings_supply : (s.supply text).settings = s.settings := by
  unfold supply
  split <;> rfl

/-- The cells that a formula lacks are created one by one. The evaluation fails for each of them in
turn, in the order in which the text refers to them first, as often as cells are missing. Each is
new when the evaluation fails for it, and is kept under that very name afterwards. When all are
there the formula has a value, and nothing else has changed. -/
theorem supply_missing (hs : s.Reachable) (h : parse text = .ok e) :
    let after := fun n => (supply text)^[n] s
    let keys := e.references.map normalName
    let missing := s.sheet.missing e.references
    (∃ layout : Layout, layout.text = text.toList ∧ Derives .disjunction layout.tokens e ∧
      e.references = layout.tokens.filterMap Token.name?) ∧
    (∀ key, key ∈ missing ↔ key ∈ keys ∧ key ∉ s.sheet.keys) ∧
    missing.Nodup ∧
    missing.Pairwise (fun key other => keys.idxOf key < keys.idxOf other) ∧
    (∀ n (hn : n < missing.length),
      (after n).evaluate text = .error (.fault (.unknownCell missing[n])) ∧
      after (n + 1) = (after n).setFormula missing[n] "" ∧
      missing[n] ∉ (after n).sheet.keys ∧ missing[n] ∈ (after (n + 1)).sheet.keys) ∧
    (∀ n, missing.length ≤ n → ∃ x, (after n).evaluate text = .ok x) ∧
    ∀ n, (after n).Reachable ∧ (after n).settings = s.settings ∧
      ∀ name, (after n).sheet.get? name =
        if normalName name ∈ missing.take n then some { formula := "", value := 0 }
        else s.sheet.get? name := by
  intro after keys missing
  have hmissing (n : Nat) : (after n).sheet.missing e.references = missing.drop n :=
    missing_rounds h n
  refine ⟨?layout, fun key => ?mem, s.sheet.nodup_missing _, s.sheet.pairwise_missing _,
    fun n hn => ?fails, fun n hn => ?value,
    fun n => ⟨?reachable, ?settings, fun _ => get?_rounds h n⟩⟩
  case layout =>
    obtain ⟨layout, htext, hderives⟩ := parse_sound h
    exact ⟨layout, htext, hderives, hderives.references⟩
  case mem => rw [Sheet.mem_missing, List.mem_map, and_comm]
  case fails =>
    have hdrop : (after n).sheet.missing e.references = missing[n] :: missing.drop (n + 1) := by
      rw [hmissing, List.drop_eq_getElem_cons hn]
    have hcreate : after (n + 1) = (after n).setFormula missing[n] "" := by
      simp only [after, Function.iterate_succ_apply']
      rw [supply_eq h]
      simp only [after] at hdrop
      rw [hdrop]
    have hmem : missing[n] ∈ (after n).sheet.missing e.references := hdrop ▸ List.mem_cons_self
    refine ⟨evaluate_eq_error h hdrop, hcreate, (Sheet.mem_missing.1 hmem).1, ?_⟩
    rw [hcreate]
    exact Sheet.mem_keys_setFormula.2 (.inl (Sheet.normalName_of_mem_missing hmem).symm)
  case value => exact evaluate_eq_ok h (by rw [hmissing, List.drop_eq_nil_iff.2 hn])
  case reachable =>
    induction n with
    | zero => exact hs
    | succ n ih =>
      simp only [after, Function.iterate_succ_apply']
      exact ih.supply
  case settings =>
    induction n with
    | zero => rfl
    | succ n ih =>
      simp only [after, Function.iterate_succ_apply', settings_supply]
      exact ih

/-- A formula that spells one of its two missing cells in two ways has a value after two rounds. -/
theorem supply_two_cells :
    let s := (empty {}).setFormula "a1" "1"
    let text := "ß2*b1 + a1 - Ss2"
    s.Reachable ∧ (∃ e, parse text = .ok e) ∧
      s.evaluate text = .error (.fault (.unknownCell "SS2")) ∧
      (s.supply text).evaluate text = .error (.fault (.unknownCell "B1")) ∧
      (∃ x, ((s.supply text).supply text).evaluate text = .ok x) ∧
      ((s.supply text).supply text).sheet.get? "A1" = some ⟨"1", 0⟩ := by
  intro s text
  have hs : s.Reachable := .setFormula _ _ (.empty _)
  have hparsed : (parse text).toOption.map (fun e => s.sheet.missing e.references) =
      some ["SS2", "B1"] := by
    decide +kernel
  obtain ⟨e, he⟩ : ∃ e, parse text = .ok e := by
    generalize parse text = parsed at hparsed
    cases parsed with
    | error => cases hparsed
    | ok e => exact ⟨e, rfl⟩
  have hmissing : s.sheet.missing e.references = ["SS2", "B1"] := by
    generalize parse text = parsed at he hparsed
    rw [he] at hparsed
    exact Option.some.inj hparsed
  obtain ⟨-, -, -, -, hfails, hvalue, hafter⟩ := supply_missing hs he
  simp only [hmissing] at hfails hvalue hafter
  obtain ⟨-, -, hget⟩ := hafter 2
  refine ⟨hs, ⟨e, he⟩, (hfails 0 (by decide)).1, (hfails 1 (by decide)).1, hvalue 2 le_rfl, ?_⟩
  exact (hget "A1").trans (by decide +kernel)

end Spreadsheet

end FormulaSheet
