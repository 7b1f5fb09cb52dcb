import ParamQuery.Text.Letter

/-!
# Capitals and small letters

The tables of cased letters fit together: no character is a capital and a small letter, and what a
capital becomes in lower case is a small letter, unless the capital has none and stays as it is. The
capital I with a dot above is the only one that becomes two characters.

## Main definitions

* `hasSmall`, `lacksSmall` — a capital with a small letter of its own, and one without.

## Main statements

* `isLower_iff`, `isUpper_iff` — letters by their runs, those of ASCII included.
* `not_isUpper_of_isLower` — no character is a capital and a small letter.
* `lowered_cases` — what a capital becomes in lower case.
-/

namespace ParamQuery.Text

variable {c : Char} {n : Nat}

/-! ## Runs of letters -/

/-- Runs of small letters. -/
def smallRuns : List (Nat × Nat × Nat) := (0x61, 0x7A, 1) :: lowerRuns

/-- Runs of capitals. -/
def capitalRuns : List (Nat × Nat × Nat) := (0x41, 0x5A, 1) :: upperRuns

/-- What can be checked for each character of ASCII holds for all of them. -/
theorem of_ascii {p : Char → Prop} (h : ∀ n < 128, p (Char.ofNat n)) (hc : c.toNat < 128) :
    p c := by
  simpa using h c.toNat hc

theorem inRun_iff {first last step : Nat} :
    inRun n first last step = true ↔ first ≤ n ∧ n ≤ last ∧ (n - first) % step = 0 := by
  simp [inRun, and_assoc]

/-- A test by a run of ASCII, and by runs beyond ASCII, is a test by all of these runs. -/
theorem ascii_or_beyond_iff {runs : List (Nat × Nat × Nat)} {first last : Nat} {ascii : Bool}
    (hruns : ∀ run ∈ runs, 128 ≤ run.1) (hlast : last < 128)
    (hascii : ascii = true ↔ first ≤ n ∧ n ≤ last) :
    (if n < 128 then ascii else runs.any fun run => inRun n run.1 run.2.1 run.2.2) = true ↔
      ∃ run ∈ (first, last, 1) :: runs, inRun n run.1 run.2.1 run.2.2 = true := by
  simp only [List.mem_cons, exists_eq_or_imp, inRun_iff, Nat.mod_one, and_true]
  split
  · next hn =>
    have hnone : ¬ ∃ run ∈ runs, run.1 ≤ n ∧ n ≤ run.2.1 ∧ (n - run.1) % run.2.2 = 0 := by
      rintro ⟨run, hrun, hin, _⟩
      have hfirst := hruns run hrun
      omega
    rw [or_iff_left hnone, hascii]
  · next hn =>
    have hnone : ¬ (first ≤ n ∧ n ≤ last) := by omega
    rw [or_iff_right hnone]
    simp only [List.any_eq_true, inRun_iff]

theorem ascii_isLower_iff : c.isLower = true ↔ 0x61 ≤ c.toNat ∧ c.toNat ≤ 0x7A := by
  have hlower : c.isLower = (decide (0x61 ≤ c.val) && decide (c.val ≤ 0x7A)) := rfl
  simp [hlower, UInt32.le_iff_toNat_le, ← Char.toNat_val]

theorem ascii_isUpper_iff : c.isUpper = true ↔ 0x41 ≤ c.toNat ∧ c.toNat ≤ 0x5A := by
  have hupper : c.isUpper = decide (0x41 ≤ c.val ∧ c.val ≤ 0x5A) := rfl
  simp [hupper, UInt32.le_iff_toNat_le, ← Char.toNat_val]

theorem ascii_of_isLower (h : c.isLower = true) : c.toNat < 128 := by
  have hle := (ascii_isLower_iff.1 h).2
  omega

theorem ascii_of_isUpper (h : c.isUpper = true) : c.toNat < 128 := by
  have hle := (ascii_isUpper_iff.1 h).2
  omega

theorem isLower_iff :
    isLower c = true ↔ ∃ run ∈ smallRuns, inRun c.toNat run.1 run.2.1 run.2.2 = true :=
  ascii_or_beyond_iff (by decide +kernel) (by decide) ascii_isLower_iff

theorem isUpper_iff :
    isUpper c = true ↔ ∃ run ∈ capitalRuns, inRun c.toNat run.1 run.2.1 run.2.2 = true :=
  ascii_or_beyond_iff (by decide +kernel) (by decide) ascii_isUpper_iff

/-! ## Capitals are no small letters -/

/-- A run of every other character or of a single one: all are even, or all are odd. -/
def alternates (run : Nat × Nat × Nat) : Bool := run.2.2 == 2 || run.1 == run.2.1

theorem mod_two_of_alternates {run : Nat × Nat × Nat} (hrun : alternates run = true)
    (hn : inRun n run.1 run.2.1 run.2.2 = true) : n % 2 = run.1 % 2 := by
  obtain ⟨hfirst, hlast, hstep⟩ := inRun_iff.1 hn
  simp only [alternates, Bool.or_eq_true, beq_iff_eq] at hrun
  rcases hrun with htwo | hone
  · rw [htwo] at hstep
    omega
  · rw [show n = run.1 by omega]

/-- Two runs do not overlap, or one of them has even characters and the other has odd ones. -/
def apart (run run' : Nat × Nat × Nat) : Bool :=
  Nat.blt run.2.1 run'.1 || Nat.blt run'.2.1 run.1 ||
    (alternates run && alternates run' && run.1 % 2 != run'.1 % 2)

theorem not_inRun_of_apart {run run' : Nat × Nat × Nat} (h : apart run run' = true)
    (hn : inRun n run.1 run.2.1 run.2.2 = true) : ¬ inRun n run'.1 run'.2.1 run'.2.2 = true := by
  intro hn'
  simp only [apart, Bool.or_eq_true, Bool.and_eq_true, Nat.blt_eq, bne_iff_ne] at h
  rcases h with hapart | ⟨⟨halternates, halternates'⟩, hparity⟩
  · obtain ⟨hfirst, hlast, -⟩ := inRun_iff.1 hn
    obtain ⟨hfirst', hlast', -⟩ := inRun_iff.1 hn'
    omega
  · exact hparity ((mod_two_of_alternates halternates hn).symm.trans
      (mod_two_of_alternates halternates' hn'))

theorem smallRuns_apart_capitalRuns :
    (smallRuns.all fun run => capitalRuns.all fun run' => apart run run') = true := by
  decide +kernel

/-- No character is a capital and a small letter. -/
theorem not_isUpper_of_isLower (h : isLower c = true) : isUpper c = false := by
  obtain ⟨run, hrun, hin⟩ := isLower_iff.1 h
  rw [← Bool.not_eq_true, isUpper_iff]
  rintro ⟨run', hrun', hin'⟩
  have hapart := List.all_eq_true.1 (List.all_eq_true.1 smallRuns_apart_capitalRuns run hrun)
  exact not_inRun_of_apart (hapart run' hrun') hin hin'

theorem ne_of_isLower_of_isUpper {x : Char} (hx : isLower x = true) (hc : isUpper c = true) :
    x ≠ c := by
  rintro rfl
  rw [not_isUpper_of_isLower hx] at hc
  cases hc

/-! ## Lower case -/

/-- A run of characters moved by the distance to their lower case. -/
def shifted (run : Nat × Nat × Nat × Int) : Nat × Nat × Nat :=
  (((run.1 : Int) + run.2.2.2).toNat, ((run.2.1 : Int) + run.2.2.2).toNat, run.2.2.1)

/-- A run that does not start at zero lies in another one. -/
def within (run run' : Nat × Nat × Nat) : Bool :=
  Nat.blt 0 run.1 && Nat.ble run'.1 run.1 && Nat.ble run.2.1 run'.2.1 &&
    (run'.2.2 == 1 || (run'.2.2 == 2 && alternates run && run.1 % 2 == run'.1 % 2))

theorem inRun_shifted {run : Nat × Nat × Nat × Int} (hpos : 0 < (shifted run).1)
    (hn : inRun n run.1 run.2.1 run.2.2.1 = true) :
    inRun ((n : Int) + run.2.2.2).toNat (shifted run).1 (shifted run).2.1 (shifted run).2.2 =
      true := by
  obtain ⟨hfirst, hlast, hstep⟩ := inRun_iff.1 hn
  unfold shifted at hpos ⊢
  dsimp only at hpos ⊢
  have hdistance : ((n : Int) + run.2.2.2).toNat - ((run.1 : Int) + run.2.2.2).toNat =
      n - run.1 := by
    omega
  exact inRun_iff.2 ⟨by omega, by omega, by rwa [hdistance]⟩

theorem inRun_of_within {run run' : Nat × Nat × Nat} (h : within run run' = true)
    (hn : inRun n run.1 run.2.1 run.2.2 = true) : inRun n run'.1 run'.2.1 run'.2.2 = true := by
  obtain ⟨hfirst, hlast, -⟩ := inRun_iff.1 hn
  simp only [within, Bool.or_eq_true, Bool.and_eq_true, Nat.blt_eq, Nat.ble_eq, beq_iff_eq] at h
  obtain ⟨⟨⟨-, hfirst'⟩, hlast'⟩, hstep⟩ := h
  refine inRun_iff.2 ⟨by omega, by omega, ?_⟩
  rcases hstep with hone | ⟨⟨htwo, halternates⟩, hparity⟩
  · rw [hone, Nat.mod_one]
  · have hn := mod_two_of_alternates halternates hn
    rw [htwo]
    omega

theorem lowerShifts_within_smallRuns :
    (lowerShifts.all fun run => smallRuns.any fun run' => within (shifted run) run') = true := by
  decide +kernel

theorem isValidChar_of_smallRuns : ∀ run ∈ smallRuns,
    run.2.1 < 0xD800 ∨ 0xDFFF < run.1 ∧ run.2.1 < 0x110000 := by
  decide +kernel

theorem isLower_ofNat {run : Nat × Nat × Nat} (hrun : run ∈ smallRuns)
    (hn : inRun n run.1 run.2.1 run.2.2 = true) : isLower (Char.ofNat n) = true := by
  obtain ⟨hfirst, hlast, -⟩ := inRun_iff.1 hn
  have hruns := isValidChar_of_smallRuns run hrun
  have hvalid : n.isValidChar := by
    unfold Nat.isValidChar
    omega
  have hcode : (Char.ofNat n).toNat = n := by
    rw [Char.ofNat, dif_pos hvalid]
    rfl
  exact isLower_iff.2 ⟨run, hrun, by rwa [hcode]⟩

theorem isLower_toLower (h : c.isUpper = true) : isLower c.toLower = true :=
  of_ascii (p := fun c => c.isUpper = true → isLower c.toLower = true) (by decide)
    (ascii_of_isUpper h) h

/-- A capital in lower case is a small letter, unless it stays as it is. -/
theorem lowerChar_cases (h : isUpper c = true) :
    lowerChar c = c ∨ isLower (lowerChar c) = true := by
  unfold lowerChar
  split
  · next hc =>
    rw [isUpper, if_pos hc] at h
    exact .inr (isLower_toLower h)
  · next hc =>
    split
    · next run hrun =>
      have hin := List.find?_some hrun
      obtain ⟨run', hrun', hwithin⟩ := List.any_eq_true.1
        (List.all_eq_true.1 lowerShifts_within_smallRuns run (List.mem_of_find?_eq_some hrun))
      have hpos : 0 < (shifted run).1 := by
        simp only [within, Bool.and_eq_true, Nat.blt_eq] at hwithin
        exact hwithin.1.1.1
      exact .inr (isLower_ofNat hrun' (inRun_of_within hwithin (inRun_shifted hpos hin)))
    · exact .inl rfl

/-- The capital I with a dot above becomes a small letter and a mark. -/
theorem lowered_dotted : lowered 'İ' = ['i', '\u0307'] := rfl

/-- A capital in lower case is the capital itself or a small letter, but for the capital I with a
dot above. -/
theorem lowered_cases (h : isUpper c = true) :
    c = 'İ' ∨ lowered c = [c] ∨ ∃ x, lowered c = [x] ∧ isLower x = true := by
  unfold lowered
  split
  · next hc => exact .inl hc
  · rcases lowerChar_cases h with hsame | hlower
    · exact .inr (.inl (by rw [hsame]))
    · exact .inr (.inr ⟨lowerChar c, rfl, hlower⟩)

/-! ## Capitals with and without small letters -/

/-- A capital that becomes one small letter in lower case. -/
def hasSmall (c : Char) : Bool := isUpper c && lowered c != [c] && c != 'İ'

/-- A capital that lower case leaves as it is. -/
def lacksSmall (c : Char) : Bool := isUpper c && lowered c == [c]

/-- The capitals of ASCII have small letters. -/
theorem hasSmall_of_ascii (h : c.isUpper = true) : hasSmall c = true :=
  of_ascii (p := fun c => c.isUpper = true → hasSmall c = true) (by decide) (ascii_of_isUpper h) h

end ParamQuery.Text
