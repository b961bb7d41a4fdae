import FormulaSheet.Proofs.WordTracking

/-!
# Where a text is blocked

`run_formula_spec`: a text is read as a formula if the cursor gets over it to a place where a
formula may end. Otherwise its obstacle lies where the cursor is stuck, and holds just what the
cursor expects there, in the order of the tests.
-/

namespace FormulaSheet

open Reader Grammar Cursor

/-- From where an operand is to begin, the cursor tracks the reader of expressions. -/
theorem expression_tracks (depth : Nat) : Tracks 5 depth (expression depth) := by
  induction depth with
  | zero =>
    intro _ _ h
    exact absurd h (Nat.not_lt_zero _)
  | succ depth ih =>
    have hsigned : Tracks 0 (depth + 1) (signed (expression depth)) := signed_tracks ih
    have hproduct : Tracks 1 (depth + 1) (product (expression depth)) :=
      chain_tracks .product rfl (by decide) hsigned
    have hsum : Tracks 2 (depth + 1) (sum (expression depth)) :=
      chain_tracks .sum rfl (by decide) hproduct
    have hcomparison : Tracks 3 (depth + 1) (comparison (expression depth)) :=
      comparison_tracks hsum
    have hconjunction : Tracks 4 (depth + 1) (conjunction (expression depth)) :=
      chain_tracks .conjunction rfl (by decide) hcomparison
    exact chain_tracks .disjunction rfl (by decide) hconjunction

/-- A text is read as a formula if a formula may end where the cursor stands behind it. Otherwise it
is blocked where the cursor is stuck. -/
theorem run_formula_spec (s : List Char) :
    (∃ e o q, formula.run s = .read e [] o ∧ start.advance s = some q ∧ q.accepting = true) ∨
    ∃ o, formula.run s = .blocked o ∧ start.Stops s o := by
  have htracked := expression_tracks (s.length + 1) (q := start) (Nat.lt_succ_self s.length) rfl
    fun _ => rfl
  rw [run_formula, run_bind]
  generalize (expression (s.length + 1)).run s = out at htracked
  cases htracked with
  | blocked hs => exact .inr ⟨_, rfl, hs⟩
  | @doomed e r p c hs hp hc hblank hlevel =>
    obtain ⟨r, rfl⟩ := List.head?_eq_some_iff.1 hc
    have hjoin : p.join ⟨c :: r, [.ending]⟩ = p := Obstacle.join_of_nearer hp
    refine .inr ⟨p, ?_, hs⟩
    exact congrArg Outcome.blocked hjoin
  | @paused e r o q hw hf hcomp hpause =>
    cases r with
    | nil =>
      obtain ⟨u, rfl, hu⟩ := hw
      rw [List.append_nil]
      refine .inl ⟨e, o, q, ?_, hu, ?_⟩
      · rfl
      · rw [accepting, hpause.complete, hf]
        rfl
    | cons c r =>
      have hstops := (hpause.stops (fun d hd => by rw [close, hf]; rfl) (by simp)).of_walks hw
      have hclosers : q.closers = [.ending] := by rw [closers, hf]; rfl
      rw [hclosers] at hstops
      exact .inr ⟨_, rfl, hstops⟩

end FormulaSheet
