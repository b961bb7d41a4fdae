import FormulaSheet.Sheet.Name

/-!
# Names in normal form

The normal form of a name has itself as normal form (`normalName_normalName`). This is a property of
the tables of upper-case mappings: no image of the mapping has another upper case. Whether a run of
images avoids a table is checked along the table (`UpperRun.avoids`), and a lookup in a table that
is avoided finds nothing.
-/

namespace FormulaSheet

/-! ## Lookups -/

/-- What a table of runs gives is an image of one of its runs. -/
theorem UpperRun.exists_of_lookup {runs : List UpperRun} {n m : Nat}
    (h : lookup runs n = some m) :
    ∃ run ∈ runs, ∃ d, d ≤ run.last - run.first ∧ d % run.stride = 0 ∧ m = run.image + d := by
  induction runs with
  | nil => cases h
  | cons run later ih =>
    unfold lookup at h
    split at h
    · cases h
    · split at h
      · split at h
        · next hd =>
          obtain rfl := Option.some.inj h
          exact ⟨run, List.mem_cons_self, n - run.first, by omega, hd, rfl⟩
        · cases h
      · obtain ⟨r, hr, hd⟩ := ih h
        exact ⟨r, List.mem_cons_of_mem _ hr, hd⟩

/-- What a table of expansions gives are the images of one of its entries. -/
theorem UpperExpansion.exists_of_lookup {expansions : List UpperExpansion} {n : Nat}
    {ms : List Nat} (h : lookup expansions n = some ms) :
    ∃ expansion ∈ expansions, ms = expansion.images := by
  induction expansions with
  | nil => cases h
  | cons expansion later ih =>
    unfold lookup at h
    split at h
    · cases h
    · split at h
      · exact ⟨expansion, List.mem_cons_self, (Option.some.inj h).symm⟩
      · obtain ⟨x, hx, hm⟩ := ih h
        exact ⟨x, List.mem_cons_of_mem _ hx, hm⟩

/-- The code point of an expansion as a run of its own. -/
def UpperExpansion.run (expansion : UpperExpansion) : UpperRun :=
  ⟨expansion.code, expansion.code, 1, expansion.code⟩

/-- What is not found when expansions are taken as runs is in no expansion. -/
theorem UpperExpansion.lookup_eq_none {expansions : List UpperExpansion} {n : Nat}
    (h : UpperRun.lookup (expansions.map run) n = none) : lookup expansions n = none := by
  induction expansions with
  | nil => rfl
  | cons expansion later ih =>
    simp only [List.map_cons, UpperRun.lookup, run, Nat.mod_one, if_true] at h
    unfold lookup
    split at h
    · exact if_pos ‹_›
    · split at h
      · cases h
      · rw [if_neg ‹_›, if_neg (by omega)]
        exact ih h

/-! ## Tables that are avoided -/

/-- Whether no run has one of the code points `lo`, `lo + step` and so on up to `hi`. Of two runs
that overlap, only a difference in parity is recognized. -/
def UpperRun.avoids (lo hi step : Nat) : List UpperRun → Bool
  | [] => true
  | run :: later =>
    Nat.blt hi run.first ||
      (Nat.blt run.last lo ||
          Nat.beq step 2 && Nat.beq run.stride 2 && Nat.beq ((lo + run.first) % 2) 1) &&
        avoids lo hi step later

/-- A code point of a run that is avoided is not found. -/
theorem UpperRun.lookup_of_avoids {runs : List UpperRun} {lo hi step n : Nat}
    (h : avoids lo hi step runs = true) (hlo : lo ≤ n) (hhi : n ≤ hi) (hn : (n - lo) % step = 0) :
    lookup runs n = none := by
  induction runs with
  | nil => rfl
  | cons run later ih =>
    simp only [avoids, Bool.or_eq_true, Bool.and_eq_true, Nat.blt_eq, Nat.beq_eq] at h
    unfold lookup
    obtain hbefore | ⟨hmiss, hlater⟩ := h
    · exact if_pos (by omega)
    · have hn' : n < run.first ∨ run.last < n ∨ (n - run.first) % run.stride ≠ 0 := by
        obtain hafter | ⟨⟨hstep, hstride⟩, hparity⟩ := hmiss
        · omega
        · rw [hstep] at hn
          rw [hstride]
          omega
      have hrest := ih hlater
      grind

/-! ## The tables of upper-case mappings -/

/-- Whether the code points `lo`, `lo + step` and so on up to `hi` have no other upper case. -/
def upperAvoids (lo hi step : Nat) : Bool :=
  UpperRun.avoids lo hi step upperRuns &&
    UpperRun.avoids lo hi step (upperExpansions.map UpperExpansion.run)

-- Where a run is a single code point, any step describes its image; 2 is the one that helps.
/-- The images of the runs have no other upper case. -/
theorem upperRuns_avoid : (upperRuns.all fun run =>
    upperAvoids run.image (run.image + (run.last - run.first))
      (if run.first = run.last then 2 else run.stride)) = true := by
  decide +kernel

/-- The images of the expansions have no other upper case. -/
theorem upperExpansions_avoid :
    (upperExpansions.all fun expansion =>
      expansion.images.all fun n => upperAvoids n n 2) = true := by
  decide +kernel

/-- A code point without another upper case. -/
def UpperFixed (n : Nat) : Prop :=
  UpperRun.lookup upperRuns n = none ∧ UpperExpansion.lookup upperExpansions n = none

/-- A code point of a run that both tables avoid has no other upper case. -/
theorem upperFixed_of_avoids {lo hi step n : Nat} (h : upperAvoids lo hi step = true)
    (hlo : lo ≤ n) (hhi : n ≤ hi) (hn : (n - lo) % step = 0) : UpperFixed n := by
  obtain ⟨hruns, hexpansions⟩ := Bool.and_eq_true_iff.1 h
  exact ⟨UpperRun.lookup_of_avoids hruns hlo hhi hn,
    UpperExpansion.lookup_eq_none (UpperRun.lookup_of_avoids hexpansions hlo hhi hn)⟩

theorem UpperFixed.zero : UpperFixed 0 := ⟨rfl, rfl⟩

/-- An image of a run has no other upper case. -/
theorem upperFixed_of_run {n m : Nat} (h : UpperRun.lookup upperRuns n = some m) :
    UpperFixed m := by
  obtain ⟨run, hrun, d, hd, hstride, rfl⟩ := UpperRun.exists_of_lookup h
  refine upperFixed_of_avoids (List.all_eq_true.1 upperRuns_avoid run hrun) (by omega) (by omega) ?_
  rw [Nat.add_sub_cancel_left]
  split
  · have : d = 0 := by omega
    rw [this]
  · exact hstride

/-- An image of an expansion has no other upper case. -/
theorem upperFixed_of_expansion {n m : Nat} {ms : List Nat}
    (h : UpperExpansion.lookup upperExpansions n = some ms) (hm : m ∈ ms) : UpperFixed m := by
  obtain ⟨expansion, hx, rfl⟩ := UpperExpansion.exists_of_lookup h
  have havoids := List.all_eq_true.1 (List.all_eq_true.1 upperExpansions_avoid expansion hx) m hm
  exact upperFixed_of_avoids havoids (Nat.le_refl m) (Nat.le_refl m)
    (by rw [Nat.sub_self, Nat.zero_mod])

/-! ## Normal forms -/

/-- A character without another upper case is its own. -/
theorem UpperFixed.upperCase {c : Char} (h : UpperFixed c.toNat) : upperCase c = [c] := by
  rw [FormulaSheet.upperCase, h.1, h.2]

/-- A code point keeps being without another upper case as a character, or stands for the one at 0.
-/
theorem UpperFixed.ofNat {n : Nat} (h : UpperFixed n) : UpperFixed (Char.ofNat n).toNat := by
  by_cases hn : n.isValidChar
  · have hnat : (Char.ofNat n).toNat = n := congrArg Char.toNat (dif_pos hn)
    rwa [hnat]
  · have hnat : (Char.ofNat n).toNat = 0 := congrArg Char.toNat (dif_neg hn)
    rw [hnat]
    exact .zero

/-- The characters of an upper case are their own upper case. -/
theorem upperCase_of_mem {c d : Char} (h : d ∈ upperCase c) : upperCase d = [d] := by
  rw [upperCase] at h
  split at h
  · next n hn =>
    obtain rfl := List.mem_singleton.1 h
    exact (upperFixed_of_run hn).ofNat.upperCase
  · next hrun =>
    split at h
    · next ns hns =>
      obtain ⟨n, hn, rfl⟩ := List.mem_map.1 h
      exact (upperFixed_of_expansion hns hn).ofNat.upperCase
    · next hexpansion =>
      obtain rfl := List.mem_singleton.1 h
      exact UpperFixed.upperCase ⟨hrun, hexpansion⟩

/-- A text of characters that are their own upper case is its own. -/
theorem upperCaseText_of_fixed {text : List Char} (h : ∀ c ∈ text, upperCase c = [c]) :
    upperCaseText text = text := by
  induction text with
  | nil => rfl
  | cons c text ih =>
    have hrest := ih fun d hd => h d (List.mem_cons_of_mem c hd)
    unfold upperCaseText at hrest ⊢
    rw [List.flatMap_cons, h c List.mem_cons_self, hrest, List.singleton_append]

/-- A text in upper case is its own upper case. -/
theorem upperCaseText_upperCaseText (text : List Char) :
    upperCaseText (upperCaseText text) = upperCaseText text := by
  refine upperCaseText_of_fixed ?_
  intro d hd
  obtain ⟨c, _, hc⟩ := List.mem_flatMap.1 hd
  exact upperCase_of_mem hc

/-- A normal form is its own normal form. -/
@[simp] theorem normalName_normalName (name : String) :
    normalName (normalName name) = normalName name := by
  simp only [normalName, String.toList_ofList, upperCaseText_upperCaseText]

/-- The characters of a normal form are their own upper case. -/
theorem upperCase_of_mem_normalName {name : String} {c : Char}
    (h : c ∈ (normalName name).toList) : upperCase c = [c] := by
  rw [normalName, String.toList_ofList] at h
  obtain ⟨d, -, hc⟩ := List.mem_flatMap.1 h
  exact upperCase_of_mem hc

/-! ## The letters and digits of ASCII -/

/-- The capital letters of ASCII lie from 65 to 90. -/
theorem isUpper_iff {c : Char} : c.isUpper = true ↔ 65 ≤ c.toNat ∧ c.toNat ≤ 90 :=
  decide_eq_true_iff.trans (and_congr UInt32.le_iff_toNat_le UInt32.le_iff_toNat_le)

/-- The digits of ASCII lie from 48 to 57. -/
theorem isDigit_iff {c : Char} : c.isDigit = true ↔ 48 ≤ c.toNat ∧ c.toNat ≤ 57 := by
  simp [Char.isDigit, UInt32.le_iff_toNat_le]

/-- Capital letters are their own upper case. -/
theorem upperCase_of_isUpper {c : Char} (h : c.isUpper = true) : upperCase c = [c] := by
  obtain ⟨hfirst, hlast⟩ := isUpper_iff.1 h
  have hfixed : UpperFixed c.toNat :=
    upperFixed_of_avoids (by decide +kernel : upperAvoids 65 90 1 = true) hfirst hlast
      (Nat.mod_one _)
  exact hfixed.upperCase

/-- Digits are their own upper case. -/
theorem upperCase_of_isDigit {c : Char} (h : c.isDigit = true) : upperCase c = [c] := by
  obtain ⟨hfirst, hlast⟩ := isDigit_iff.1 h
  have hfixed : UpperFixed c.toNat :=
    upperFixed_of_avoids (by decide +kernel : upperAvoids 48 57 1 = true) hfirst hlast
      (Nat.mod_one _)
  exact hfixed.upperCase

/-- What is the same of each capital and its small letter does not depend on case. -/
theorem apply_toLower {α : Type} (f : Char → α)
    (h : ∀ d < 26, f (Char.ofNat (65 + d)).toLower = f (Char.ofNat (65 + d))) (c : Char) :
    f c.toLower = f c := by
  by_cases hc : c.isUpper = true
  · obtain ⟨hfirst, hlast⟩ := isUpper_iff.1 hc
    have hcapital := h (c.toNat - 65) (by omega)
    rwa [Nat.add_sub_cancel' hfirst, Char.ofNat_toNat] at hcapital
  · have hlower : c.toLower = c := dif_neg fun h => hc (decide_eq_true h)
    rw [hlower]

/-- The upper case of a small letter is that of its capital. -/
theorem upperCase_toLower (c : Char) : upperCase c.toLower = upperCase c :=
  apply_toLower upperCase (by decide +kernel) c

/-- A text and its small letters have one upper case. -/
theorem upperCaseText_map_toLower (text : List Char) :
    upperCaseText (text.map Char.toLower) = upperCaseText text := by
  rw [upperCaseText, upperCaseText, List.flatMap_map]
  exact congrArg text.flatMap (funext upperCase_toLower)

/-- Names that differ in the case of ASCII letters only have one normal form. -/
theorem normalName_eq_of_toLower {name other : String}
    (h : name.toList.map Char.toLower = other.toList.map Char.toLower) :
    normalName name = normalName other := by
  rw [normalName, ← upperCaseText_map_toLower, h, upperCaseText_map_toLower, ← normalName]

end FormulaSheet
