import FormulaSheet.Proofs.FailureLog
import FormulaSheet.Proofs.Padding

/-!
# The spread of what is not a number

Arithmetic at what is not a number gives what is not a number, and the functions are defined so that
they do the same, while the operators that decide something always give 0 or 1. So a cell whose
formula reads what is not a number is none itself afterwards if only arithmetic stands above the
reference (`Expr.exposed`), whatever the rest of the formula is and whether or not that fails. What
a visit reads depends on the order of the visits: `Sheet.recalculate_notANumber` says it for the
sheet as the visit finds it, and for chains of references in the order of the visits.
-/

namespace FormulaSheet

/-! ## Numbers -/

section
variable {x : Float}

/-- There is only one value that is not a number. -/
theorem isNaN_iff : x.isNaN = true ↔ x = notANumber := by
  constructor
  · intro h
    have hunpack : Float.Model.UnpackedFloat.unpack .binary64 x.toBits.toBitVec = .notANumber :=
      Float.Model.UnpackedFloat.isNaN_iff.1 h
    have hx : (⟨Float.Model.pack
        (Float.Model.UnpackedFloat.unpack .binary64 x.toBits.toBitVec)⟩ : Float) = x :=
      Float.ofBits_toBits x
    rw [← hx, hunpack]
    rfl
  · rintro rfl
    rfl

theorem neg_notANumber : -notANumber = notANumber := rfl

theorem abs_notANumber : notANumber.abs = notANumber := rfl

theorem notANumber_add (x : Float) : notANumber + x = notANumber := rfl

theorem notANumber_sub (x : Float) : notANumber - x = notANumber := rfl

theorem notANumber_mul (x : Float) : notANumber * x = notANumber := rfl

theorem notANumber_div (x : Float) : notANumber / x = notANumber := rfl

-- on the left the first equation of each operation applies, on the right the other operand decides
-- which one does

theorem add_notANumber (x : Float) : x + notANumber = notANumber := by
  change (⟨Float.Model.pack (.add .binary64 x.toModel.unpack .notANumber)⟩ : Float) = _
  cases x.toModel.unpack <;> rfl

theorem sub_notANumber (x : Float) : x - notANumber = notANumber := by
  change (⟨Float.Model.pack (.sub .binary64 x.toModel.unpack .notANumber)⟩ : Float) = _
  cases x.toModel.unpack <;> rfl

theorem mul_notANumber (x : Float) : x * notANumber = notANumber := by
  change (⟨Float.Model.pack (.mul .binary64 x.toModel.unpack .notANumber)⟩ : Float) = _
  cases x.toModel.unpack <;> rfl

theorem div_notANumber (x : Float) : x / notANumber = notANumber := by
  change (⟨Float.Model.pack (.div .binary64 x.toModel.unpack .notANumber)⟩ : Float) = _
  cases x.toModel.unpack <;> rfl

/-- A number is less than another if its parts are. -/
theorem lt_iff_unpack {y : Float} : x < y ↔ x.toModel.unpack.lt y.toModel.unpack = true :=
  decide_eq_true_iff

/-- What is not a number is less than none. -/
theorem not_notANumber_lt (x : Float) : ¬ notANumber < x := by
  rw [lt_iff_unpack]
  change ¬ Float.Model.UnpackedFloat.lt .notANumber x.toModel.unpack = true
  cases x.toModel.unpack <;> exact Bool.false_ne_true

/-- No number is less than what is not a number. -/
theorem not_lt_notANumber (x : Float) : ¬ x < notANumber := by
  rw [lt_iff_unpack]
  change ¬ Float.Model.UnpackedFloat.lt x.toModel.unpack .notANumber = true
  cases x.toModel.unpack with
  | infinity sign => cases sign <;> exact Bool.false_ne_true
  | notANumber | zero | finite => exact Bool.false_ne_true

end

/-! ## Operators -/

/-- Whether an operator computes a number from its operands, rather than decide something about
them. -/
def BinaryOp.isArithmetic : BinaryOp → Bool
  | add | sub | mul | div => true
  | eq | lt | gt | and | or => false

section
variable {tolerance x y z : Float} {op : BinaryOp}

/-- Arithmetic passes on what is not a number. -/
theorem BinaryOp.apply_notANumber (h : op.isArithmetic = true)
    (hxy : x = notANumber ∨ y = notANumber) : op.apply tolerance x y = notANumber := by
  obtain rfl | rfl := hxy
  · cases op with
    | add => exact notANumber_add y
    | sub => exact notANumber_sub y
    | mul => exact notANumber_mul y
    | div => exact notANumber_div y
    | eq | lt | gt | and | or => cases h
  · cases op with
    | add => exact add_notANumber x
    | sub => exact sub_notANumber x
    | mul => exact mul_notANumber x
    | div => exact div_notANumber x
    | eq | lt | gt | and | or => cases h

/-- A function passes on what is not a number. -/
theorem Builtin.apply_notANumber (function : Builtin) (hxy : x = notANumber ∨ y = notANumber) :
    function.apply x y = notANumber := by
  have hnan : (x.isNaN || y.isNaN) = true := by
    rwa [Bool.or_eq_true, isNaN_iff, isNaN_iff]
  exact if_pos hnan

/-- A truth value is 0 or 1. -/
theorem truthValue_eq (b : Bool) : truthValue b = 0 ∨ truthValue b = 1 := by
  cases b
  · exact .inl rfl
  · exact .inr rfl

/-- An operator that decides gives 0 or 1. -/
theorem BinaryOp.apply_eq_zero_or_one (h : op.isArithmetic = false) :
    op.apply tolerance x y = 0 ∨ op.apply tolerance x y = 1 := by
  cases op with
  | add | sub | mul | div => cases h
  | eq | lt | gt | and | or => exact truthValue_eq _

/-- A comparison with what is not a number does not hold, whatever the tolerance is. -/
theorem BinaryOp.apply_comparison (hop : op ∈ [eq, lt, gt])
    (hxy : x = notANumber ∨ y = notANumber) : op.apply tolerance x y = 0 := by
  have hnot : op.apply tolerance x y = truthValue false := by
    simp only [List.mem_cons, List.not_mem_nil, or_false] at hop
    obtain rfl | rfl | rfl := hop
    · have hdiff : x - y = notANumber := by
        obtain rfl | rfl := hxy
        · exact notANumber_sub y
        · exact sub_notANumber x
      rw [apply, hdiff, abs_notANumber, decide_eq_false (not_notANumber_lt tolerance)]
    · refine congrArg truthValue (decide_eq_false ?_)
      obtain rfl | rfl := hxy
      · exact not_notANumber_lt y
      · exact not_lt_notANumber x
    · refine congrArg truthValue (decide_eq_false ?_)
      obtain rfl | rfl := hxy
      · exact not_lt_notANumber y
      · exact not_notANumber_lt x
  exact hnot

/-- Only zero counts as false. -/
theorem truthValue_truthy (x : Float) : truthValue (truthy x) = if x == 0 then 0 else 1 := by
  rw [truthy, bne]
  cases x == 0 <;> rfl

/-- What is not a number counts as true: a conjunction with it is what the other operand is. -/
theorem BinaryOp.apply_and (hxy : x = notANumber ∧ z = y ∨ y = notANumber ∧ z = x) :
    and.apply tolerance x y = if z == 0 then 0 else 1 := by
  rw [apply, ← truthValue_truthy]
  obtain ⟨rfl, rfl⟩ | ⟨rfl, rfl⟩ := hxy
  · rfl
  · exact congrArg truthValue (Bool.and_true _)

/-- What is not a number counts as true in a disjunction. -/
theorem BinaryOp.apply_or (hxy : x = notANumber ∨ y = notANumber) : or.apply tolerance x y = 1 := by
  obtain rfl | rfl := hxy
  · rfl
  · exact congrArg truthValue (Bool.or_true _)

end

/-! ## Expressions -/

/-- The references in an expression, as written, with only arithmetic above them: negations,
operators that compute a number, and calls with two arguments. -/
def Expr.exposed : Expr → List String
  | number _ => []
  | cell name => [name]
  | unary .neg operand => operand.exposed
  | unary .not _ => []
  | binary op left right => if op.isArithmetic then left.exposed ++ right.exposed else []
  | call _ [first, second] => first.exposed ++ second.exposed
  | call _ _ => []

/-- Whether an expression is a decision: a comparison, a conjunction, a disjunction or a
negation of a truth value. -/
def Expr.decides : Expr → Bool
  | unary .not _ => true
  | binary op _ _ => !op.isArithmetic
  | _ => false

section
variable {ε α β γ : Type} {x : Except ε α} {y : Except ε β}

/-- A computation that goes on with a value gives one if the first part does. -/
theorem map_eq_ok {g : α → γ} {r : γ} :
    (x >>= fun v => pure (g v)) = .ok r ↔ ∃ v, x = .ok v ∧ g v = r := by
  cases x <;> simp [bind, Except.bind, pure, Except.pure]

/-- Two computations give a value together if both do. -/
theorem map₂_eq_ok {g : α → β → γ} {r : γ} :
    (x >>= fun v => y >>= fun w => pure (g v w)) = .ok r ↔
      ∃ v, x = .ok v ∧ ∃ w, y = .ok w ∧ g v w = r := by
  cases x <;> cases y <;> simp [bind, Except.bind, pure, Except.pure]

end

section
variable {tolerance x y : Float} {lookup : String → Except Fault Float} {e left right : Expr}
  {name : String}

/-- What is not a number comes through arithmetic: an expression with an exposed reference to it has
no number as its value, if it has a value at all. -/
theorem Expr.eval_exposed (hname : name ∈ e.exposed)
    (hlookup : ∀ v, lookup name = .ok v → v = notANumber)
    (h : e.eval tolerance lookup = .ok x) : x = notANumber := by
  fun_induction Expr.exposed e generalizing x with
  | case1 value => cases hname
  | case2 other =>
    obtain rfl := List.mem_singleton.1 hname
    exact hlookup x h
  | case3 operand ih =>
    rw [Expr.eval] at h
    obtain ⟨v, hv, rfl⟩ := map_eq_ok.1 h
    rw [ih hname hv]
    exact neg_notANumber
  | case4 operand => cases hname
  | case5 op left right hop ihl ihr =>
    rw [Expr.eval] at h
    obtain ⟨v, hv, w, hw, rfl⟩ := map₂_eq_ok.1 h
    refine BinaryOp.apply_notANumber hop ?_
    exact (List.mem_append.1 hname).imp (ihl · hv) (ihr · hw)
  | case6 op left right hop => cases hname
  | case7 function first second ihf ihs =>
    rw [Expr.eval] at h
    obtain ⟨v, hv, w, hw, rfl⟩ := map₂_eq_ok.1 h
    refine function.apply_notANumber ?_
    exact (List.mem_append.1 hname).imp (ihf · hv) (ihs · hw)
  | case8 function arguments hother => cases hname

/-- A decision has no value but 0 and 1. -/
theorem Expr.eval_decides (he : e.decides = true) (h : e.eval tolerance lookup = .ok x) :
    x = 0 ∨ x = 1 := by
  cases e with
  | unary op operand =>
    cases op with
    | neg => cases he
    | not =>
      rw [Expr.eval] at h
      obtain ⟨v, -, rfl⟩ := map_eq_ok.1 h
      exact truthValue_eq _
  | binary op left right =>
    rw [Expr.eval] at h
    obtain ⟨v, -, w, -, rfl⟩ := map₂_eq_ok.1 h
    refine BinaryOp.apply_eq_zero_or_one ?_
    rwa [decides, Bool.not_eq_true'] at he
  | number | cell | call => cases he

/-- An operator is applied to the values of its operands. -/
theorem Expr.eval_binary (op : BinaryOp) (hleft : left.eval tolerance lookup = .ok x)
    (hright : right.eval tolerance lookup = .ok y) :
    (binary op left right).eval tolerance lookup = .ok (op.apply tolerance x y) := by
  rw [Expr.eval, hleft, hright]
  rfl

end

/-! ## Cells -/

namespace Sheet

variable {settings : Settings} {sheet : Sheet} {name key other text : String} {e : Expr}

/-- Whether a cell holds a value that is not a number. -/
def holdsNaN (sheet : Sheet) (name : String) : Bool := (sheet.value? name).any Float.isNaN

/-- A cell holds no number if it holds the value that is none. -/
theorem holdsNaN_iff : sheet.holdsNaN name = true ↔ sheet.value? name = some notANumber := by
  simp only [holdsNaN, Option.any_eq_true, isNaN_iff, exists_eq_right]

/-- A formula is not blank. -/
theorem not_allBlank_of_parse_ok (h : parse text = .ok e) : ¬ allBlank text.toList = true := by
  intro hblank
  rw [parse_blank hblank] at h
  cases h

/-- A cell gets the value of its formula, or one that is not a number. -/
theorem cellValue_of_parse_ok (h : parse text = .ok e) : sheet.cellValue settings text =
    (e.eval settings.tolerance sheet.lookup).toOption.getD notANumber := by
  rw [cellValue, if_neg (not_allBlank_of_parse_ok h), evaluate_of_parse_ok h]
  cases e.eval settings.tolerance sheet.lookup <;> rfl

/-- A cell whose formula has an exposed reference to what is not a number gets no number, whether
the formula fails elsewhere or not. -/
theorem cellValue_exposed (h : parse text = .ok e) (hname : name ∈ e.exposed)
    (hnan : sheet.holdsNaN name = true) : sheet.cellValue settings text = notANumber := by
  rw [cellValue_of_parse_ok h]
  cases hx : e.eval settings.tolerance sheet.lookup with
  | error fault => rfl
  | ok x =>
    refine e.eval_exposed hname ?_ hx
    intro v hv
    rw [lookup, holdsNaN_iff.1 hnan] at hv
    exact (Except.ok.inj hv).symm

/-- A formula that does not fail has a value. -/
theorem exists_eval_of_not_fails (h : parse text = .ok e) (hfails : ¬ sheet.Fails text) :
    ∃ x, e.eval settings.tolerance sheet.lookup = .ok x := by
  have hnone : errorOf (sheet.evaluateCell settings text) = none := by
    rw [errorOf_evaluateCell, ← Option.not_isSome_iff_eq_none]
    exact mt formulaError?_isSome.1 hfails
  rw [evaluateCell, if_neg (not_allBlank_of_parse_ok h), evaluate_of_parse_ok h, errorOf_mapError,
    Option.map_eq_none_iff] at hnone
  exact errorOf_eq_none.1 hnone

/-- A cell whose formula decides something gets 0 or 1, unless the formula fails. -/
theorem cellValue_decides (h : parse text = .ok e) (he : e.decides = true)
    (hfails : ¬ sheet.Fails text) :
    sheet.cellValue settings text = 0 ∨ sheet.cellValue settings text = 1 := by
  obtain ⟨x, hx⟩ : ∃ x, e.eval settings.tolerance sheet.lookup = .ok x :=
    exists_eval_of_not_fails h hfails
  rw [cellValue_of_parse_ok h, hx]
  exact e.eval_decides he hx

/-! ## Visits -/

/-- Visits to some cells go before visits to the others. -/
theorem visited_append {values : String → Float} (before later : List (String × String)) :
    sheet.visited settings values (before ++ later) =
      sheet.visited settings (sheet.visited settings values before) later := by
  induction before generalizing values with
  | nil => rfl
  | cons entry before ih => exact ih

/-- The sheet that the visit to a key finds, after the visits to the smaller keys. -/
def visiting (settings : Settings) (sheet : Sheet) (key : String) : Sheet :=
  (sheet.recalculateCells settings (sheet.formulas.takeWhile (·.1 < key))).sheet

/-- A visit finds new values for the smaller keys and old ones for its own and the greater keys. -/
theorem WellFormed.visiting_eq (h : sheet.WellFormed) (hkey : key ∈ sheet.keys) :
    sheet.visiting settings key = sheet.during (sheet.recalculated settings) key := by
  obtain ⟨before, later, happend⟩ := List.append_of_mem (h.mem_formulas hkey)
  have hcells : (sheet.formulas.map (·.1)).Pairwise (· < ·) := keys_formulas ▸ h.ascending
  rw [happend, List.map_append, List.map_cons, List.pairwise_append, List.pairwise_cons] at hcells
  obtain ⟨-, ⟨habove, -⟩, hbetween⟩ := hcells
  have hsmaller : ∀ entry ∈ before, entry.1 < key := fun entry hentry =>
    hbetween _ (List.mem_map_of_mem hentry) key List.mem_cons_self
  have htake : sheet.formulas.takeWhile (·.1 < key) = before := by
    rw [happend, List.takeWhile_append_of_pos fun entry hentry =>
      decide_eq_true (hsmaller entry hentry), List.takeWhile_cons_of_neg, List.append_nil]
    simp
  have hvisits : ((sheet.withValues sheet.valueAt).recalculateCells settings before).sheet =
      sheet.withValues (sheet.visited settings sheet.valueAt before) := by
    refine h.recalculateCells ?_
    intro entry hentry
    rw [← keys_formulas, happend]
    exact List.mem_map_of_mem (List.mem_append_left _ hentry)
  rw [h.withValues_valueAt] at hvisits
  rw [visiting, htake, hvisits, during]
  refine withValues_congr ?_
  intro j _
  split
  · next hlt =>
    -- no later visit changes it
    have hnot : j ∉ ((key, sheet.formula key) :: later).map (·.1) := by
      intro hj
      obtain rfl | hj := List.mem_cons.1 hj
      · exact String.lt_irrefl j hlt
      · exact String.lt_asymm hlt (habove j hj)
    rw [recalculated, happend, visited_append, visited_of_not_mem hnot]
  · next hnot =>
    refine visited_of_not_mem ?_
    intro hj
    obtain ⟨entry, hentry, rfl⟩ := List.mem_map.1 hj
    exact hnot (hsmaller entry hentry)

/-- A visit reads new values under smaller keys and old ones under the others. -/
theorem WellFormed.value?_visiting (h : sheet.WellFormed) (hkey : key ∈ sheet.keys) :
    (sheet.visiting settings key).value? name =
      if normalName name < key then (sheet.recalculate settings).sheet.value? name
      else sheet.value? name := by
  have hold : sheet.value? name =
      if normalName name ∈ sheet.keys then some (sheet.valueAt (normalName name)) else none := by
    rw [← value?_withValues, h.withValues_valueAt]
  rw [h.visiting_eq hkey, h.recalculate, during, value?_withValues, value?_withValues, hold]
  split_ifs <;> rfl

/-- The new value of a cell is that of its formula in the sheet that the visit finds. -/
theorem WellFormed.value?_recalculate (h : sheet.WellFormed) (hkey : key ∈ sheet.keys) :
    (sheet.recalculate settings).sheet.value? key =
      some ((sheet.visiting settings key).cellValue settings (sheet.formula key)) := by
  rw [h.visiting_eq hkey, ← h.solves_recalculated key hkey, h.recalculate, value?_withValues,
    h.normal key hkey, if_pos hkey]

/-! ## Recalculations -/

/-- The keys of the exposed references in the formula under a key. -/
def exposedKeys (sheet : Sheet) (key : String) : List String :=
  match parse (sheet.formula key) with
  | .ok e => e.exposed.map normalName
  | .error _ => []

/-- The visit to a key reads, in an exposed reference, a cell that is visited before. -/
def Feeds (sheet : Sheet) (key other : String) : Prop :=
  key < other ∧ other ∈ sheet.keys ∧ key ∈ sheet.exposedKeys other

instance : DecidableRel sheet.Feeds := fun _ _ => inferInstanceAs (Decidable (_ ∧ _ ∧ _))

/-- The exposed keys are the normal forms of the exposed references. -/
theorem mem_exposedKeys : key ∈ sheet.exposedKeys other ↔
    ∃ e, parse (sheet.formula other) = .ok e ∧ ∃ name ∈ e.exposed, normalName name = key := by
  unfold exposedKeys
  generalize parse (sheet.formula other) = parsed
  cases parsed with
  | error => simp
  | ok e => simp

/-- A visit that reads no number in an exposed reference stores none. -/
theorem WellFormed.holdsNaN_of_exposed (h : sheet.WellFormed) (hkey : key ∈ sheet.keys)
    (he : parse (sheet.formula key) = .ok e) (hname : name ∈ e.exposed)
    (hnan : (sheet.visiting settings key).holdsNaN name = true) :
    (sheet.recalculate settings).sheet.holdsNaN key = true := by
  rw [holdsNaN_iff, h.value?_recalculate hkey, cellValue_exposed he hname hnan]

/-- A cell that is not a number makes each cell none that it feeds. -/
theorem WellFormed.holdsNaN_of_feeds (h : sheet.WellFormed) (hfeeds : sheet.Feeds key other)
    (hnan : (sheet.recalculate settings).sheet.holdsNaN key = true) :
    (sheet.recalculate settings).sheet.holdsNaN other = true := by
  obtain ⟨hlt, hother, hkey⟩ := hfeeds
  obtain ⟨e, he, name, hname, rfl⟩ := mem_exposedKeys.1 hkey
  refine h.holdsNaN_of_exposed hother he hname ?_
  rw [holdsNaN_iff, h.value?_visiting hother, if_pos hlt]
  rw [holdsNaN_iff] at hnan
  rwa [value?, get?, normalName_normalName] at hnan

/-- What is not a number goes on along a chain of cells that feed each other. -/
theorem WellFormed.holdsNaN_of_chain (h : sheet.WellFormed) {path : List String}
    (hpath : List.IsChain sheet.Feeds (key :: path))
    (hnan : (sheet.recalculate settings).sheet.holdsNaN key = true) :
    ∀ other ∈ path, (sheet.recalculate settings).sheet.holdsNaN other = true := by
  induction path generalizing key with
  | nil => exact List.forall_mem_nil _
  | cons next path ih =>
    obtain ⟨hfeeds, hpath⟩ := List.isChain_cons_cons.1 hpath
    have hnext := h.holdsNaN_of_feeds hfeeds hnan
    exact List.forall_mem_cons.2 ⟨hnext, ih hpath hnext⟩

/-- A cell whose formula decides holds 0 or 1 unless it fails. -/
theorem WellFormed.value?_of_decides (h : sheet.WellFormed) (hkey : key ∈ sheet.keys)
    (he : parse (sheet.formula key) = .ok e) (hdecides : e.decides = true)
    (hfailed : key ∉ (sheet.recalculate settings).failures.map (·.name)) :
    (sheet.recalculate settings).sheet.value? key = some 0 ∨
      (sheet.recalculate settings).sheet.value? key = some 1 := by
  rw [failures_recalculate, h.mem_names_failures] at hfailed
  -- a visit changes no key, so the formula fails then if it fails before
  have hvisit : ¬ (sheet.visiting settings key).Fails (sheet.formula key) := by
    intro hvisit
    refine hfailed ⟨hkey, hvisit.anti ?_⟩
    rw [h.visiting_eq hkey, during, keys_withValues]
    exact List.Subset.refl _
  rw [h.value?_recalculate hkey]
  exact (cellValue_decides he hdecides hvisit).imp (congrArg some) (congrArg some)

/-- A cell that holds 0 or 1 holds a number. -/
theorem holdsNaN_of_zero_or_one (h : sheet.value? name = some 0 ∨ sheet.value? name = some 1) :
    sheet.holdsNaN name = false := by
  rw [holdsNaN]
  obtain h | h := h <;> rw [h] <;> rfl

/-- A cell that fails holds no number. -/
theorem WellFormed.holdsNaN_of_failure (h : sheet.WellFormed) {failure : Failure}
    (hmem : failure ∈ (sheet.recalculate settings).failures) :
    (sheet.recalculate settings).sheet.holdsNaN failure.name = true := by
  rw [failures_recalculate] at hmem
  obtain ⟨hkey, hfails⟩ := h.mem_names_failures.1 (List.mem_map_of_mem hmem)
  exact holdsNaN_iff.2 (h.value?_of_fails hkey hfails)

/-- How what is not a number spreads in a recalculation. The visit to a cell reads the new values of
the smaller keys and the old ones of the others. If it reads what is not a number where only
arithmetic stands above the reference, the cell is not a number afterwards, and neither are the
cells that failed nor all on a chain of such references in the order of the visits. But a cell whose
formula decides something is 0 or 1 unless it fails: a comparison with what is not a number does not
hold, and such an operand of a connective counts as true. -/
theorem recalculate_notANumber (settings : Settings) (h : sheet.WellFormed) :
    let result := sheet.recalculate settings
    let after := result.sheet
    (∀ key ∈ sheet.keys, ∀ e, parse (sheet.formula key) = .ok e →
      let now := sheet.visiting settings key
      (∀ name, now.value? name =
        if normalName name < key then after.value? name else sheet.value? name) ∧
      (∀ name ∈ e.exposed, now.holdsNaN name = true → after.holdsNaN key = true) ∧
      (e.decides = true → key ∉ result.failures.map (·.name) →
        (after.value? key = some 0 ∨ after.value? key = some 1) ∧ after.holdsNaN key = false)) ∧
    (∀ failure ∈ result.failures, after.holdsNaN failure.name = true) ∧
    (∀ key path, List.IsChain sheet.Feeds (key :: path) → after.holdsNaN key = true →
      ∀ other ∈ path, after.holdsNaN other = true) ∧
    (∀ (tolerance : Float) (lookup : String → Except Fault Float) (operand : Expr) (x : Float),
      operand.eval tolerance lookup = .ok x → x.isNaN = true →
      (Expr.unary .not operand).eval tolerance lookup = .ok 0) ∧
    ∀ (tolerance : Float) (lookup : String → Except Fault Float) (left right : Expr) (x y : Float),
      left.eval tolerance lookup = .ok x → right.eval tolerance lookup = .ok y →
      (x.isNaN = true ∨ y.isNaN = true → ∀ op ∈ [BinaryOp.eq, .lt, .gt],
        (Expr.binary op left right).eval tolerance lookup = .ok 0) ∧
      (x.isNaN = true → (Expr.binary .and left right).eval tolerance lookup =
        .ok (if y == 0 then 0 else 1)) ∧
      (y.isNaN = true → (Expr.binary .and left right).eval tolerance lookup =
        .ok (if x == 0 then 0 else 1)) ∧
      (x.isNaN = true ∨ y.isNaN = true →
        (Expr.binary .or left right).eval tolerance lookup = .ok 1) := by
  intro result after
  refine ⟨fun key hkey e he => ⟨fun name => ?now, fun name hname hnan => ?spread,
    fun hdecides hfailed => ?decision⟩, fun failure => ?failed, fun key path => ?chain,
    fun tolerance lookup operand x hx hnan => ?not, fun tolerance lookup left right x y hx hy => ?_⟩
  case now => exact h.value?_visiting hkey
  case spread => exact h.holdsNaN_of_exposed hkey he hname hnan
  case decision =>
    have hvalue : after.value? key = some 0 ∨ after.value? key = some 1 :=
      h.value?_of_decides hkey he hdecides hfailed
    exact ⟨hvalue, holdsNaN_of_zero_or_one hvalue⟩
  case failed => exact h.holdsNaN_of_failure
  case chain => exact h.holdsNaN_of_chain
  case not =>
    rw [Expr.eval, hx, isNaN_iff.1 hnan]
    rfl
  simp only [Expr.eval_binary _ hx hy, isNaN_iff, Except.ok.injEq]
  exact ⟨fun hnan op hop => BinaryOp.apply_comparison hop hnan,
    fun hnan => BinaryOp.apply_and (.inl ⟨hnan, rfl⟩),
    fun hnan => BinaryOp.apply_and (.inr ⟨hnan, rfl⟩), BinaryOp.apply_or⟩

/-- The formula of the first cell is not finished, which makes the second and the third cell not a
number though the third multiplies by 0. The fourth only asks whether the third is true, and the
last reads itself, which is not a number from before. -/
theorem recalculate_notANumber_through_zero :
    let sheet := (((((Sheet.empty.setFormula "a1" "1+").2.setFormula "b1" "max(2, A1)").2.setFormula
      "c1" "(D1 < 2) - 0*-b1").2.setFormula "d1" "not C1").2.setFormula "e1" "E1/3").2.setValue "E1"
        notANumber
    let after := (sheet.recalculate {}).sheet
    sheet.WellFormed ∧ List.IsChain sheet.Feeds ["A1", "B1", "C1"] ∧
      (∀ key ∈ ["A1", "B1", "C1", "E1"], after.holdsNaN key = true) ∧
      (after.value? "D1" = some 0 ∨ after.value? "D1" = some 1) := by
  intro sheet after
  have hsheet : sheet.WellFormed :=
    .setValue (.setFormula (.setFormula (.setFormula (.setFormula (.setFormula .empty)))))
  obtain ⟨hvisit, hfailed, hchain, -⟩ := recalculate_notANumber {} hsheet
  have hparsed (key : String) (p : Expr → Bool)
      (h : (parse (sheet.formula key)).toOption.any p = true) :
      ∃ e, parse (sheet.formula key) = .ok e ∧ p e = true := by
    generalize parse (sheet.formula key) = parsed at h ⊢
    cases parsed with
    | error => cases h
    | ok e => exact ⟨e, rfl, h⟩
  have hfeeds : List.IsChain sheet.Feeds ["A1", "B1", "C1"] := by decide +kernel
  have hA1 : after.holdsNaN "A1" = true :=
    hfailed ⟨"A1", .parse .unexpectedEnd⟩ (by decide +kernel)
  have hpath := List.forall_mem_cons.1 (hchain "A1" ["B1", "C1"] hfeeds hA1)
  have hE1 : after.holdsNaN "E1" = true := by
    obtain ⟨e, he, hexposed⟩ := hparsed "E1" ("E1" ∈ ·.exposed) (by decide +kernel)
    obtain ⟨-, hspread, -⟩ := hvisit "E1" (by decide +kernel) e he
    exact hspread "E1" (of_decide_eq_true hexposed) (by decide +kernel)
  refine ⟨hsheet, hfeeds, ?_, ?_⟩
  · simp only [List.forall_mem_cons]
    exact ⟨hA1, hpath.1, hpath.2 "C1" List.mem_cons_self, hE1, List.forall_mem_nil _⟩
  · obtain ⟨e, he, hdecides⟩ := hparsed "D1" Expr.decides (by decide +kernel)
    obtain ⟨-, -, hdecision⟩ := hvisit "D1" (by decide +kernel) e he
    exact (hdecision hdecides (by decide +kernel)).1

end Sheet

end FormulaSheet
