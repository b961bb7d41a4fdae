import FormulaSheet.Proofs.Convergence
import FormulaSheet.Proofs.ParseComplete

/-!
# Recalculation is local to references

What a cell becomes depends on the cells that its formula refers to, on those that they refer to and
so on, and on nothing else. Two sheets that agree on a set of names (`Sheet.AgreeOn`), where the
formulas of the set refer to no other cells, agree on it after each recalculation
(`Sheet.AgreeOn.recalculate`) and give a formula over the set the same value
(`Sheet.AgreeOn.evaluate`). The tolerance plays a part only in formulas with an equals sign. So an
edit changes another cell only along references to it (`Spreadsheet.recalculate_local`).
-/

namespace FormulaSheet

/-! ## Formulas without an equals sign -/

/-- The value of the expression does not depend on the tolerance. -/
def Expr.IgnoresTolerance (e : Expr) : Prop :=
  ∀ tolerance tolerance' lookup, e.eval tolerance lookup = e.eval tolerance' lookup

namespace Expr.IgnoresTolerance

variable {e d : Expr}

/-- A sign does not depend on the tolerance. -/
theorem unary (h : e.IgnoresTolerance) (op : UnaryOp) : (Expr.unary op e).IgnoresTolerance := by
  intro tolerance tolerance' lookup
  rw [eval, h tolerance tolerance', eval]

/-- An operator other than `=` does not depend on the tolerance. -/
theorem binary {op : BinaryOp} (hop : op ≠ .eq) (h : e.IgnoresTolerance)
    (h' : d.IgnoresTolerance) : (Expr.binary op e d).IgnoresTolerance := by
  intro tolerance tolerance' lookup
  have happly : op.apply tolerance = op.apply tolerance' := by
    funext x y
    cases op with
    | eq => exact absurd rfl hop
    | add | sub | mul | div | lt | gt | and | or => rfl
  rw [eval, h tolerance tolerance', h' tolerance tolerance', happly, eval]

/-- Calls do not depend on the tolerance. -/
theorem call {f : Builtin} (h : e.IgnoresTolerance) (h' : d.IgnoresTolerance) :
    (Expr.call f [e, d]).IgnoresTolerance := by
  intro tolerance tolerance' lookup
  rw [eval, h tolerance tolerance', h' tolerance tolerance', eval]

/-- Signs do not depend on the tolerance. -/
theorem foldr_unary (h : e.IgnoresTolerance) (signs : List UnaryOp) :
    (signs.foldr .unary e).IgnoresTolerance :=
  List.foldrRecOn signs Expr.unary h fun _ ih op _ => ih.unary op

/-- A chain without `=` does not depend on the tolerance. -/
theorem foldl_extend (h : e.IgnoresTolerance) {links : List Link}
    (hlinks : ∀ l ∈ links, l.op ≠ .eq ∧ l.operand.IgnoresTolerance) :
    (links.foldl Link.extend e).IgnoresTolerance :=
  List.foldlRecOn links Link.extend h fun _ ih l hl => ih.binary (hlinks l hl).1 (hlinks l hl).2

end Expr.IgnoresTolerance

/-- The operator that compares with the tolerance is written with an equals sign. -/
theorem Rule.eq_of_operators {rule : Rule} {t : Token} (h : (t, .eq) ∈ rule.operators) :
    t = .mark '=' := by
  cases rule <;> simp [operators] at h
  exact h

/-- Without an equals sign, tokens derive an expression that does not depend on the tolerance. -/
theorem Derives.ignoresTolerance {rule : Rule} {ts : List Token} {e : Expr}
    (h : Derives rule ts e) (hts : .mark '=' ∉ ts) : e.IgnoresTolerance := by
  induction h with
  | @chain rule ts e links _ _ hops _ ih ihs =>
    rw [List.mem_append, not_or] at hts
    refine (ih hts.1).foldl_extend ?_
    intro l hl
    have htokens : .mark '=' ∉ l.all := fun hmem => hts.2 (List.mem_flatMap.2 ⟨l, hl, hmem⟩)
    rw [Link.all, List.mem_cons, not_or] at htokens
    refine ⟨?_, ihs l hl htokens.2⟩
    intro heq
    exact htokens.1 (Rule.eq_of_operators (heq ▸ hops l hl)).symm
  | single _ ih => exact ih hts
  | @compare _ _ _ _ t op _ hop _ ih ih' =>
    rw [List.mem_append, List.mem_cons, not_or, not_or] at hts
    refine (ih hts.1).binary ?_ (ih' hts.2.2)
    rintro rfl
    exact hts.2.1 (Rule.eq_of_operators hop).symm
  | signed _ ih =>
    rw [List.mem_append, not_or] at hts
    exact (ih hts.2).foldr_unary _
  | number => exact fun _ _ _ => rfl
  | group _ ih =>
    refine ih ?_
    intro hmem
    exact hts (List.mem_cons_of_mem _ (List.mem_append_left _ hmem))
  | call _ _ ih ih' =>
    simp only [List.cons_append, List.mem_cons, List.mem_append, not_or] at hts
    exact (ih hts.2.2.1.1).call (ih' hts.2.2.1.2.2)
  | name => exact fun _ _ _ => rfl

/-- A mark among the tokens stands in the text. -/
theorem Layout.mem_text {l : Layout} {c : Char} (h : .mark c ∈ l.tokens) : c ∈ l.text := by
  obtain ⟨x, hx, hmark⟩ := List.mem_map.1 h
  refine List.mem_append_right _ (List.mem_flatMap.2 ⟨x, hx, List.mem_append_left _ ?_⟩)
  rw [Grammar.spelling_of_mark hmark]
  exact List.mem_cons_self

/-- A formula without an equals sign does not depend on the tolerance. -/
theorem ignoresTolerance_of_parse {text : String} {e : Expr} (h : parse text = .ok e)
    (heq : '=' ∉ text.toList) : e.IgnoresTolerance := by
  obtain ⟨l, htext, hd⟩ := parse_sound h
  refine hd.ignoresTolerance ?_
  intro hmem
  exact heq (htext ▸ l.mem_text hmem)

namespace Sheet

variable {settings settings' : Settings} {sheet other : Sheet} {text : String} {D : Set String}

/-- The settings make no difference to a formula. -/
def SameSettings (settings settings' : Settings) (text : String) : Prop :=
  settings.tolerance = settings'.tolerance ∨ '=' ∉ text.toList

/-- A formula has one value under settings that make no difference to it. -/
theorem evaluate_congr_settings (h : SameSettings settings settings' text) :
    sheet.evaluate settings text = sheet.evaluate settings' text := by
  obtain htolerance | hequals := h
  · rw [show settings = settings' from congrArg Settings.mk htolerance]
  · have hignores := @ignoresTolerance_of_parse text
    unfold evaluate
    generalize parse text = parsed at hignores ⊢
    cases parsed with
    | error e => rfl
    | ok e =>
      dsimp only
      rw [hignores rfl hequals settings.tolerance settings'.tolerance]

/-! ## Agreement on a set of names -/

/-- The formula refers to names of the set only, and to names without a cell in either sheet. -/
def Covers (D : Set String) (sheet other : Sheet) (text : String) : Prop :=
  ∀ e, parse text = .ok e → ∀ name ∈ e.references,
    normalName name ∈ D ∨ sheet.contains name = false ∧ other.contains name = false

/-- A formula whose references are known is covered if each of them is. -/
theorem covers_of_references {names : List String}
    (hparse : (parse text).toOption.map Expr.references = some names)
    (h : ∀ name ∈ names,
      normalName name ∈ D ∨ sheet.contains name = false ∧ other.contains name = false) :
    Covers D sheet other text := by
  intro e he name hname
  rw [he] at hparse
  exact h name (Option.some.inj hparse ▸ hname)

/-- Two sheets have the same cells under the names of a set, or none, and the formulas of these
cells refer to no other cells. -/
structure AgreeOn (D : Set String) (sheet other : Sheet) : Prop where
  normal : ∀ key ∈ D, normalName key = key
  get? : ∀ key ∈ D, sheet.get? key = other.get? key
  covers : ∀ key ∈ D, Covers D sheet other (sheet.formula key)

/-- Values do not matter to what covers a formula. -/
theorem Covers.withValues {values values' : String → Float} (h : Covers D sheet other text) :
    Covers D (sheet.withValues values) (other.withValues values') text := by
  intro e he name hname
  rw [contains_withValues, contains_withValues]
  exact h e he name hname

namespace AgreeOn

/-- Sheets that agree have the same formulas. -/
theorem formula (h : sheet.AgreeOn D other) {key : String} (hkey : key ∈ D) :
    sheet.formula key = other.formula key := by
  rw [Sheet.formula, h.get? key hkey, Sheet.formula]

/-- Sheets that agree have the same values. -/
theorem valueAt (h : sheet.AgreeOn D other) {key : String} (hkey : key ∈ D) :
    sheet.valueAt key = other.valueAt key := by
  rw [Sheet.valueAt, value?, h.get? key hkey, Sheet.valueAt, value?]

/-- Sheets that agree have cells under the same keys. -/
theorem mem_keys (h : sheet.AgreeOn D other) {key : String} (hkey : key ∈ D) :
    key ∈ sheet.keys ↔ key ∈ other.keys := by
  have hcontains : sheet.contains key = other.contains key := by
    rw [contains, h.get? key hkey, contains]
  rw [← h.normal key hkey, ← contains_iff, ← contains_iff, hcontains]

/-- A formula over the set has the same value in both sheets. -/
theorem evaluate (h : sheet.AgreeOn D other) (hcovers : Covers D sheet other text)
    (hsettings : SameSettings settings settings' text) :
    sheet.evaluate settings text = other.evaluate settings' text := by
  rw [← evaluate_congr_settings hsettings]
  refine evaluate_congr ?_
  intro e he name hname
  obtain hmem | ⟨habsent, habsent'⟩ := hcovers e he name hname
  · have hget := h.get? _ hmem
    rw [Sheet.get?, Sheet.get?, normalName_normalName] at hget
    rw [value?, value?, Sheet.get?, Sheet.get?, hget]
  · rw [contains, Option.isSome_eq_false_iff, Option.isNone_iff_eq_none] at habsent habsent'
    rw [value?, value?, habsent, habsent']

/-- Other values keep the agreement if they agree on the set. -/
theorem withValues {values values' : String → Float} (h : sheet.AgreeOn D other)
    (hvalues : ∀ key ∈ sheet.keys, key ∈ D → values key = values' key) :
    (sheet.withValues values).AgreeOn D (other.withValues values') where
  normal := h.normal
  get? key hkey := by
    have hmem : (other.get? key).isSome = true → key ∈ sheet.keys := fun hsome =>
      (h.mem_keys hkey).2 (h.normal key hkey ▸ contains_iff.1 hsome)
    rw [get?_withValues, get?_withValues, h.get? key hkey, h.normal key hkey]
    cases hcell : other.get? key with
    | none => rfl
    | some cell =>
      rw [hcell] at hmem
      rw [hvalues key (hmem rfl) hkey]
  covers key hkey := by
    rw [formula_withValues]
    exact (h.covers key hkey).withValues

/-- The formulas of sheets that agree have the same values. -/
theorem cellValue (h : sheet.AgreeOn D other) {key : String} (hkey : key ∈ D)
    (hsettings : SameSettings settings settings' (sheet.formula key)) :
    sheet.cellValue settings (sheet.formula key) =
      other.cellValue settings' (other.formula key) := by
  rw [← h.formula hkey, Sheet.cellValue, Sheet.cellValue,
    h.evaluate (h.covers key hkey) hsettings]

/-! ## Recalculations -/

/-- A recalculation gives the cells of the set the same values in both sheets, for the cells before
one of them in the set have the same new values already. -/
theorem recalculated (h : sheet.AgreeOn D other) (hsheet : sheet.WellFormed)
    (hother : other.WellFormed)
    (hsettings : ∀ key ∈ D, SameSettings settings settings' (sheet.formula key)) :
    ∀ key ∈ sheet.keys, key ∈ D →
      sheet.recalculated settings key = other.recalculated settings' key := by
  refine forall_keys_of_before hsheet.ascending ?_
  intro key hkey hbefore hmem
  rw [hsheet.solves_recalculated key hkey,
    hother.solves_recalculated key ((h.mem_keys hmem).1 hkey)]
  have hduring : (sheet.during (sheet.recalculated settings) key).AgreeOn D
      (other.during (other.recalculated settings') key) := by
    refine h.withValues ?_
    intro j hj hjmem
    split
    · next hlt => exact hbefore j hj hlt hjmem
    · exact h.valueAt hjmem
  have hformula : (sheet.during (sheet.recalculated settings) key).formula key =
      sheet.formula key := formula_withValues
  have hformula' : (other.during (other.recalculated settings') key).formula key =
      other.formula key := formula_withValues
  rw [← hformula, ← hformula']
  exact hduring.cellValue hmem (hformula.symm ▸ hsettings key hmem)

/-- A recalculation keeps the agreement. -/
theorem recalculate (h : sheet.AgreeOn D other) (hsheet : sheet.WellFormed)
    (hother : other.WellFormed)
    (hsettings : ∀ key ∈ D, SameSettings settings settings' (sheet.formula key)) :
    (sheet.recalculate settings).sheet.AgreeOn D (other.recalculate settings').sheet := by
  rw [hsheet.recalculate, hother.recalculate]
  exact h.withValues (h.recalculated hsheet hother hsettings)

end AgreeOn

/-! ## Edits -/

/-- The formula under a key refers to the cell of a name, whether there is one or not. -/
def Mentions (sheet : Sheet) (key other : String) : Prop :=
  ∃ e, parse (sheet.formula key) = .ok e ∧ other ∈ e.references.map normalName

/-- What a cell refers to is found among the references of its formula. -/
theorem Mentions.mem {key other : String} {names : List String} (h : sheet.Mentions key other)
    (hparse : (parse (sheet.formula key)).toOption.map Expr.references = some names) :
    other ∈ names.map normalName := by
  obtain ⟨e, he, hmem⟩ := h
  rw [he] at hparse
  exact Option.some.inj hparse ▸ hmem

/-- References do not lead out of a set that is closed under them. -/
theorem not_reaches_of_closed {key name : String}
    (hclosed : ∀ key ∈ D, ∀ other, sheet.Mentions key other → other ∈ D) (hkey : key ∈ D)
    (hname : name ∉ D) : ¬ Relation.ReflTransGen sheet.Mentions key name := by
  refine fun hreaches => hname ?_
  clear hname
  induction hreaches with
  | refl => exact hkey
  | tail _ hmentions ih => exact hclosed _ ih _ hmentions

/-- An edit of a formula leaves all cells alike that do not refer to the edited one, directly or
through others. -/
theorem agreeOn_setFormula (name text : String) :
    sheet.AgreeOn {key | normalName key = key ∧
      ¬ Relation.ReflTransGen sheet.Mentions key (normalName name)}
      (sheet.setFormula name text).2 where
  normal key hkey := hkey.1
  get? key hkey := by
    rw [get?_setFormula, if_neg]
    intro heq
    rw [hkey.1] at heq
    exact hkey.2 (heq ▸ .refl)
  covers key hkey e he other hother := by
    refine .inl ⟨normalName_normalName other, fun hreaches => hkey.2 ?_⟩
    exact .head ⟨e, he, List.mem_map_of_mem hother⟩ hreaches

end Sheet

namespace Spreadsheet

variable {s s' : Spreadsheet} {D : Set String}

/-- Passes keep a sheet well-formed. -/
theorem wellFormed_passes (h : s.sheet.WellFormed) (n : Nat) : (s.passes n).sheet.WellFormed := by
  rw [sheet_passes_eq h]
  exact h.withValues

/-- Any number of recalculations keeps the agreement of two sheets on a set of names. -/
theorem agreeOn_passes (h : s.sheet.AgreeOn D s'.sheet) (hs : s.sheet.WellFormed)
    (hs' : s'.sheet.WellFormed)
    (hsettings : ∀ key ∈ D, Sheet.SameSettings s.settings s'.settings (s.sheet.formula key))
    (n : Nat) : (s.passes n).sheet.AgreeOn D (s'.passes n).sheet := by
  induction n with
  | zero => exact h
  | succ n ih =>
    rw [passes_succ, passes_succ]
    refine ih.recalculate (wellFormed_passes hs n) (wellFormed_passes hs' n) ?_
    intro key hkey
    rw [settings_passes, settings_passes, sheet_passes_eq hs, Sheet.formula_withValues]
    exact hsettings key hkey

/-- Take two spreadsheets that have the same cells under the names of a set, whose formulas refer to
no other cells. After any number of recalculations they still have the same cells there and give
each formula over the set the same value or the same error. The tolerances must be the same only if
a formula has an equals sign. So an edit makes no difference to the cells that do not refer to the
edited one, directly or through others. -/
theorem recalculate_local (hs : s.sheet.WellFormed) (hs' : s'.sheet.WellFormed) :
    (∀ D, s.sheet.AgreeOn D s'.sheet →
      (s.settings.tolerance = s'.settings.tolerance ∨
        ∀ key ∈ D, '=' ∉ (s.sheet.formula key).toList) →
      ∀ n, (∀ key ∈ D, (s.passes n).sheet.get? key = (s'.passes n).sheet.get? key) ∧
        ∀ text, Sheet.Covers D s.sheet s'.sheet text →
          (s.settings.tolerance = s'.settings.tolerance ∨ '=' ∉ text.toList) →
          (s.passes n).evaluate text = (s'.passes n).evaluate text) ∧
    ∀ name text key,
      ¬ Relation.ReflTransGen s.sheet.Mentions (normalName key) (normalName name) →
      ∀ n, ((s.setFormula name text).passes n).sheet.get? key = (s.passes n).sheet.get? key := by
  constructor
  · intro D h htolerance n
    have hagree := agreeOn_passes h hs hs'
      (fun key hkey => htolerance.imp id fun hequals => hequals key hkey) n
    refine ⟨hagree.get?, ?_⟩
    intro text hcovers hsettings
    rw [Spreadsheet.evaluate, Spreadsheet.evaluate, settings_passes, settings_passes]
    refine hagree.evaluate ?_ hsettings
    rw [sheet_passes_eq hs, sheet_passes_eq hs']
    exact hcovers.withValues
  · intro name text key hreaches n
    have hagree := @agreeOn_passes s (s.setFormula name text) _
      (Sheet.agreeOn_setFormula name text) hs hs.setFormula (fun _ _ => .inl rfl) n
    have hget := hagree.get? (normalName key) ⟨normalName_normalName key, hreaches⟩
    rw [Sheet.get?, Sheet.get?, normalName_normalName] at hget
    exact hget.symm

/-- Two spreadsheets with other tolerances and other cells around them agree on two cells, of which
one refers to the other. They give the same error for a text that refers to a cell in neither. The
cell `C1` alone refers to another that is edited, so that the edit leaves the two as they are. -/
theorem recalculate_two_neighbourhoods :
    let s := (((empty {}).setFormula "a1" "B1+1").setFormula "B1" "1/3").setFormula "c1" "a1=Z1"
    let s' := (((empty { tolerance := 0.5 }).setFormula "b1" "1/3").setFormula "A1"
      "B1+1").setFormula "0" "A1*"
    (∀ n, (s.passes n).sheet.get? "A1" = (s'.passes n).sheet.get? "A1") ∧
      (∀ n, (s.passes n).evaluate "max(b1, Q1)" = (s'.passes n).evaluate "max(b1, Q1)") ∧
      ∀ n, ((s.setFormula "z1" "7").passes n).sheet.get? "A1" = (s.passes n).sheet.get? "A1" := by
  intro s s'
  have hs : s.Reachable := .setFormula _ _ (.setFormula _ _ (.setFormula _ _ (.empty _)))
  have hs' : s'.Reachable := .setFormula _ _ (.setFormula _ _ (.setFormula _ _ (.empty _)))
  obtain ⟨hagree, hedit⟩ := recalculate_local hs.wellFormed hs'.wellFormed
  have hB1 : (parse "B1+1").toOption.map Expr.references = some ["B1"] := by decide +kernel
  have hthird : (parse "1/3").toOption.map Expr.references = some [] := by decide +kernel
  have hformulas : s.sheet.formula "A1" = "B1+1" ∧ s.sheet.formula "B1" = "1/3" := by
    decide +kernel
  have hnormal : normalName "B1" = "B1" := by decide +kernel
  have hcells : s.sheet.AgreeOn {"A1", "B1"} s'.sheet := by
    refine ⟨?_, ?_, ?_⟩
    · rintro key (rfl | rfl) <;> decide +kernel
    · rintro key (rfl | rfl) <;> decide +kernel
    · rintro key (rfl | rfl)
      · rw [hformulas.1]
        exact Sheet.covers_of_references hB1 (List.forall_mem_singleton.2 (.inl (.inr hnormal)))
      · rw [hformulas.2]
        exact Sheet.covers_of_references hthird (List.forall_mem_nil _)
  have hequals : ∀ key ∈ ({"A1", "B1"} : Set String), '=' ∉ (s.sheet.formula key).toList := by
    rintro key (rfl | rfl)
    · rw [hformulas.1]
      decide
    · rw [hformulas.2]
      decide
  have hrun := hagree _ hcells (.inr hequals)
  have htext : (parse "max(b1, Q1)").toOption.map Expr.references = some ["b1", "Q1"] := by
    decide +kernel
  refine ⟨fun n => (hrun n).1 "A1" (.inl rfl), fun n => (hrun n).2 _ ?_ (.inr (by decide)), ?_⟩
  · refine Sheet.covers_of_references htext (List.forall_mem_cons.2 ⟨.inl (.inr ?_), ?_⟩)
    · decide +kernel
    · exact List.forall_mem_singleton.2 (.inr (by decide +kernel))
  · have hA1 : normalName "A1" = "A1" := by decide +kernel
    have hz1 : normalName "z1" = "Z1" := by decide +kernel
    refine hedit "z1" "7" "A1" ?_
    rw [hA1, hz1]
    refine Sheet.not_reaches_of_closed (D := {"A1", "B1"}) ?_ (.inl rfl) (by decide)
    rintro key (rfl | rfl) other hother
    · rw [← hformulas.1] at hB1
      exact .inr ((List.mem_singleton.1 (hother.mem hB1)).trans hnormal)
    · rw [← hformulas.2] at hthird
      exact nomatch hother.mem hthird

end Spreadsheet

end FormulaSheet
