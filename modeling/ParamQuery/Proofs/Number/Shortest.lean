import ParamQuery.Number.Shortest
import ParamQuery.Proofs.Number.Rounding
import Mathlib.Tactic.SplitIfs

/-!
# The shortest digits

The digits chosen for a finite value lie in the interval of the numbers that are rounded to it, and
the intervals of different values do not meet. So a value can be told from its digits.

## Main definitions

* `Shortest.Rounds` — a number lies in the interval of a value.
* `Binary64.written` — the number that is written for a value.

## Main statements

* `Shortest.Rounds.unique` — a number lies in one interval at most.
* `Shortest.rounds_digits` — seventeen digits suffice, so that there always are digits.
* `Shortest.rounds_written` — the number that is written is rounded to the value.
-/

namespace ParamQuery

namespace Binary64

variable {x y : Binary64}

/-- The first value comes before the second, whatever their signs are. -/
def Before (x y : Binary64) : Prop :=
  x.exponent < y.exponent ∨ x.exponent = y.exponent ∧ x.mantissa < y.mantissa

theorem mantissa_cases (x : Binary64) :
    x.biasedExponent = 0 ∧ x.mantissa = x.fraction ∨
      x.biasedExponent ≠ 0 ∧ x.mantissa = exponentUnit + x.fraction := by
  unfold mantissa
  split
  · next h => exact .inl ⟨h, rfl⟩
  · next h => exact .inr ⟨h, rfl⟩

/-- Sign, mantissa and exponent determine a finite value. -/
theorem eq_of_parts (hsign : x.negative = y.negative) (hmantissa : x.mantissa = y.mantissa)
    (hexponent : x.exponent = y.exponent) : x = y := by
  have hcases := mantissa_cases x
  have hcases' := mantissa_cases y
  rw [hmantissa] at hcases
  obtain ⟨bits⟩ := x
  obtain ⟨bits'⟩ := y
  have hsize := bits.toNat_lt
  have hsize' := bits'.toNat_lt
  have hbits : bits.toNat = bits'.toNat := by
    simp only [negative, exponent, biasedExponent, fraction] at hsign hexponent hcases hcases'
    unfold exponentUnit at hexponent hcases hcases'
    unfold signUnit at hsign
    rw [Bool.eq_iff_iff, beq_iff_eq, beq_iff_eq] at hsign
    omega
  rw [UInt64.toNat_inj.1 hbits]

/-- The absolute value of what is written for a finite value. -/
def written (x : Binary64) : ℚ :=
  if x.mantissa = 0 then 0 else (Shortest.digits x).1 * 10 ^ (Shortest.digits x).2

theorem mantissa_lt (x : Binary64) : x.mantissa < 2 * exponentUnit := by
  unfold mantissa fraction exponentUnit
  split <;> omega

theorem le_exponent (x : Binary64) : -1074 ≤ x.exponent := by
  unfold exponent
  omega

theorem exponent_le (h : x.isFinite = true) : x.exponent ≤ 971 := by
  rw [isFinite, bne_iff_ne] at h
  have hbound : x.biasedExponent < 2048 := Nat.mod_lt _ (by decide)
  unfold exponent
  omega

/-- Below the least normal value all values have the least exponent. -/
theorem le_mantissa (h : -1074 < x.exponent) :
    1 < x.biasedExponent ∧ x.mantissa = exponentUnit + x.fraction := by
  have hbiased : 1 < x.biasedExponent := by
    unfold exponent at h
    omega
  exact ⟨hbiased, if_neg (by omega)⟩

end Binary64

namespace Shortest

open Binary64

variable {x y : Binary64} {v w : ℚ}

/-- A quarter of the last place of a value. -/
def quarter (x : Binary64) : ℚ := 2 ^ (x.exponent - 2)

theorem quarter_pos (x : Binary64) : 0 < quarter x := by
  unfold quarter
  positivity

/-- A number lies in the interval of the numbers that are rounded to a value. -/
def Rounds (v : ℚ) (x : Binary64) : Prop :=
  if (interval x).closed then (interval x).low * quarter x ≤ v ∧ v ≤ (interval x).high * quarter x
  else (interval x).low * quarter x < v ∧ v < (interval x).high * quarter x

theorem Rounds.bounds (h : Rounds v x) :
    (interval x).low * quarter x ≤ v ∧ v ≤ (interval x).high * quarter x := by
  unfold Rounds at h
  split at h
  · exact h
  · exact ⟨h.1.le, h.2.le⟩

theorem Rounds.bounds_of_odd (h : Rounds v x) (hodd : x.mantissa % 2 = 1) :
    (interval x).low * quarter x < v ∧ v < (interval x).high * quarter x := by
  have hopen : (interval x).closed = false := by simp [interval, hodd]
  rwa [Rounds, hopen, if_neg (by decide)] at h

theorem high_interval (x : Binary64) : (interval x).high = 4 * x.mantissa + 2 := rfl

theorem le_low_interval (x : Binary64) : 4 * x.mantissa - 2 ≤ (interval x).low := by
  unfold interval
  dsimp only
  split <;> omega

/-- An interval ends below the least number of the next exponent, and reaches it only if it is
open. -/
theorem Rounds.lt_next (h : Rounds v x) : v < (8 * exponentUnit - 2 : Nat) * quarter x := by
  have hquarter := quarter_pos x
  have hmantissa := x.mantissa_lt
  unfold exponentUnit at hmantissa ⊢
  obtain hlast | hbefore : x.mantissa = 9007199254740991 ∨ x.mantissa < 9007199254740991 := by omega
  · refine (h.bounds_of_odd (by omega)).2.trans_eq ?_
    rw [high_interval, hlast]
  · refine h.bounds.2.trans_lt ?_
    gcongr
    rw [high_interval]
    omega

/-- Above the least exponent an interval starts no lower than the one before it ends. -/
theorem Rounds.next_le (h : Rounds v x) (hexponent : -1074 < x.exponent) :
    (4 * exponentUnit - 1 : Nat) * quarter x ≤ v := by
  have hquarter := quarter_pos x
  obtain ⟨_, hmantissa⟩ := le_mantissa hexponent
  refine le_trans ?_ h.bounds.1
  gcongr
  unfold interval
  dsimp only
  unfold exponentUnit at hmantissa ⊢
  split <;> omega

/-- The intervals of values lie in the order of the values. -/
theorem Rounds.lt (hxy : x.Before y) (hv : Rounds v x) (hw : Rounds w y) : v < w := by
  have hquarter := quarter_pos x
  obtain hexponent | ⟨hexponent, hmantissa⟩ := hxy
  · have hdouble : 2 * quarter x ≤ quarter y := by
      unfold quarter
      rw [← zpow_one_add₀ two_ne_zero]
      exact zpow_le_zpow_right₀ one_le_two (by omega)
    have hleast := x.le_exponent
    calc v < (8 * exponentUnit - 2 : Nat) * quarter x := hv.lt_next
      _ = (4 * exponentUnit - 1 : Nat) * (2 * quarter x) := by
        norm_num [exponentUnit]
        ring
      _ ≤ (4 * exponentUnit - 1 : Nat) * quarter y := by gcongr
      _ ≤ w := hw.next_le (by omega)
  · have hsame : quarter y = quarter x := by rw [quarter, quarter, hexponent]
    have hlow := le_low_interval y
    have hleft := hv.bounds.2
    have hright := hw.bounds.1
    rw [hsame] at hright
    obtain hnext | hlater : y.mantissa = x.mantissa + 1 ∨ x.mantissa + 1 < y.mantissa := by omega
    · -- Of two neighbours one has an odd mantissa: the end they share is not in its interval.
      have hmeet : ((interval x).high : ℚ) * quarter x ≤ (interval y).low * quarter x := by
        gcongr
        rw [high_interval]
        omega
      obtain hodd | hodd : x.mantissa % 2 = 1 ∨ y.mantissa % 2 = 1 := by omega
      · exact ((hv.bounds_of_odd hodd).2.trans_le hmeet).trans_le hright
      · have hright := (hw.bounds_of_odd hodd).1
        rw [hsame] at hright
        exact (hleft.trans hmeet).trans_lt hright
    · have hgap : ((interval x).high : ℚ) * quarter x < (interval y).low * quarter x := by
        gcongr
        rw [high_interval]
        omega
      exact (hleft.trans_lt hgap).trans_le hright

/-- A number is rounded to one value at most, whatever the sign. -/
theorem Rounds.unique (hx : Rounds v x) (hy : Rounds v y) (hsign : x.negative = y.negative) :
    x = y := by
  have hnot {x y : Binary64} (hx : Rounds v x) (hy : Rounds v y) : ¬ x.Before y := fun h =>
    lt_irrefl v (hx.lt h hy)
  have hxy := hnot hx hy
  have hyx := hnot hy hx
  unfold Before at hxy hyx
  exact eq_of_parts hsign (by omega) (by omega)

/-! ## Grids -/

theorem snd_scale_pos {n d : Nat} (hd : 0 < d) (k : Int) : 0 < (scale n d k).2 :=
  snd_scaleBy_pos (by decide : 0 < 10) hd k

theorem scale_eq (n d : Nat) (k : Int) :
    ((scale n d k).1 : ℚ) / (scale n d k).2 = n / d * 10 ^ k :=
  scaleBy_eq (by decide : 0 < 10) n d k

/-- The logarithm of two is close to 0.30103, from both sides. -/
theorem ten_pow_le : ∀ k < 1100, 10 ^ (k * 30103 / 100000) ≤ 10 * 2 ^ k := by
  decide +kernel

theorem two_pow_le : ∀ k < 1100, 2 ^ k ≤ 10 * 10 ^ ((k * 30103 + 99999) / 100000) := by
  decide +kernel

/-- The estimated power of ten is at most ten times too large. -/
theorem estimate_le {b : Int} (hb : -1100 < b ∧ b < 1100) :
    (10 : ℚ) ^ (b * 30103 / 100000 - 1) ≤ 2 ^ b := by
  obtain ⟨k, rfl | rfl⟩ := b.eq_nat_or_neg
  · have hestimate : ((k : Int) * 30103 / 100000) = (k * 30103 / 100000 : Nat) := by omega
    rw [hestimate, zpow_sub_one₀ (by norm_num), ← div_eq_mul_inv, div_le_iff₀ (by norm_num),
      mul_comm (2 ^ _), zpow_natCast, zpow_natCast]
    exact_mod_cast ten_pow_le k (by omega)
  · have hestimate : (-(k : Int) * 30103 / 100000 - 1) =
        -((k * 30103 + 99999) / 100000 + 1 : Nat) := by omega
    rw [hestimate, zpow_neg, zpow_neg, zpow_natCast, zpow_natCast]
    gcongr
    rw [pow_succ']
    exact_mod_cast two_pow_le k (by omega)

/-- The power of ten that is found is not greater than the fraction. -/
theorem decade_le {n d : Nat} (hn : 0 < n) (hd : 0 < d)
    (hb : -1100 < BinaryFormat.binade n d ∧ BinaryFormat.binade n d < 1100) :
    (10 : ℚ) ^ decade n d ≤ n / d := by
  have hd' : (0 : ℚ) < d := by exact_mod_cast hd
  have hreaches (e : Int) :
      (scale 1 1 e).1 * d ≤ n * (scale 1 1 e).2 ↔ (10 : ℚ) ^ e ≤ n / d := by
    have hscale := scaleBy_mul_le_iff (n := n) (by decide : 0 < 10) 1 d e
    rw [Nat.cast_one, one_mul, ← le_div_iff₀ hd'] at hscale
    exact hscale
  have hlast := (estimate_le hb).trans (BinaryFormat.binade_spec hn hd).1
  unfold decade
  dsimp only
  simp only [decide_eq_true_eq, hreaches]
  split_ifs with habove hat
  · exact habove
  · exact hat
  · exact hlast

/-! ## The digits -/

/-- A point of a grid lies in an interval exactly if it is rounded to its value. -/
theorem holds_iff {n g d : Nat} {step : ℚ} (hg : 0 < g) (hstep : 0 < step)
    (hratio : (n : ℚ) / g = quarter x / step) :
    (interval x).holds n g d = true ↔ Rounds (d * step) x := by
  have hg' : (0 : ℚ) < g := by exact_mod_cast hg
  rw [div_eq_iff hg'.ne'] at hratio
  have hle (a : Nat) : a * n ≤ d * g ↔ a * quarter x ≤ d * step := by
    rw [← Nat.cast_le (α := ℚ), Nat.cast_mul, Nat.cast_mul, hratio, ← mul_assoc,
      mul_le_mul_iff_of_pos_right hg', ← mul_div_assoc, div_le_iff₀ hstep]
  have hge (a : Nat) : d * g ≤ a * n ↔ d * step ≤ a * quarter x := by
    rw [← Nat.cast_le (α := ℚ), Nat.cast_mul, Nat.cast_mul, hratio, ← mul_assoc,
      mul_le_mul_iff_of_pos_right hg', ← mul_div_assoc, le_div_iff₀ hstep]
  unfold Interval.holds Rounds
  split
  · rw [Bool.and_eq_true, decide_eq_true_eq, decide_eq_true_eq, hle, hge]
  · rw [Bool.and_eq_true, decide_eq_true_eq, decide_eq_true_eq, ← not_le, ← not_le, hle, hge,
      not_le, not_le]

variable {n g d : Nat}

/-- What is found on a grid lies in the interval. -/
theorem holds_of_nearest? (h : (interval x).nearest? n g = some d) :
    (interval x).holds n g d = true ∧ 0 < d := by
  unfold Interval.nearest? at h
  dsimp only at h
  split at h
  · next hbelow habove =>
    rw [Bool.and_eq_true, decide_eq_true_eq] at hbelow
    split at h
    · exact Option.some.inj h ▸ hbelow
    · exact Option.some.inj h ▸ ⟨habove, Nat.succ_pos _⟩
  · next hbelow _ =>
    rw [Bool.and_eq_true, decide_eq_true_eq] at hbelow
    exact Option.some.inj h ▸ hbelow
  · next _ habove => exact Option.some.inj h ▸ ⟨habove, Nat.succ_pos _⟩
  · cases h

/-- If the value has at least `10 ^ 16` steps of a grid, a step is smaller than the interval. -/
theorem step_lt_interval (hg : 0 < g) (hfine : 10 ^ 16 * g ≤ (interval x).value * n) :
    (interval x).low * n + g < (interval x).high * n := by
  have hmantissa := x.mantissa_lt
  have hscaled : x.mantissa * n ≤ 9007199254740991 * n :=
    Nat.mul_le_mul_right n (by unfold exponentUnit at hmantissa; omega)
  have hvalue : (interval x).value * n = 4 * (x.mantissa * n) := Nat.mul_assoc 4 _ _
  have hhigh : (interval x).high * n = 4 * (x.mantissa * n) + 2 * n := by
    rw [high_interval, Nat.add_mul, Nat.mul_assoc]
  rw [hvalue] at hfine
  by_cases hleast : x.fraction = 0 ∧ 1 < x.biasedExponent
  · -- Below a power of two the interval is smaller, but there the mantissa is the least one.
    have hpower : x.mantissa = 4503599627370496 := by
      have hcases := x.mantissa_cases
      unfold exponentUnit at hcases
      omega
    have hlow : (interval x).low = 18014398509481983 := by
      unfold interval
      dsimp only
      rw [if_pos hleast, hpower]
    rw [hhigh, hlow]
    rw [hpower] at hfine ⊢
    omega
  · have hlow : (interval x).low = 4 * x.mantissa - 2 := by
      unfold interval
      dsimp only
      rw [if_neg hleast]
    rw [hhigh, hlow, Nat.sub_mul, Nat.mul_assoc]
    have hpositive : n ≤ x.mantissa * n := by
      refine Nat.le_mul_of_pos_left n (Nat.pos_of_ne_zero fun hzero => ?_)
      rw [hzero, Nat.zero_mul] at hfine
      omega
    omega

/-- On such a grid a point is found. -/
theorem isSome_nearest? (hg : 0 < g) (hfine : 10 ^ 16 * g ≤ (interval x).value * n) :
    ((interval x).nearest? n g).isSome = true := by
  have hwidth := step_lt_interval hg hfine
  have hfloor : (interval x).value * n / g * g ≤ (interval x).value * n := Nat.div_mul_le_self _ g
  have hceil : (interval x).value * n < ((interval x).value * n / g + 1) * g := by
    rw [Nat.mul_comm (_ + 1)]
    exact Nat.lt_mul_div_succ _ hg
  have hpositive : 0 < (interval x).value * n / g := Nat.div_pos (by omega) hg
  have hlow : (interval x).low * n ≤ (interval x).value * n := by
    refine Nat.mul_le_mul_right n ?_
    unfold interval
    exact Nat.sub_le _ _
  have hhigh : (interval x).value * n < (interval x).high * n := by
    refine Nat.mul_lt_mul_of_pos_right (Nat.lt_add_of_pos_right (by decide)) ?_
    refine Nat.pos_of_ne_zero fun hzero => ?_
    rw [hzero] at hwidth
    omega
  have hfound : (interval x).holds n g ((interval x).value * n / g) = true ∨
      (interval x).holds n g ((interval x).value * n / g + 1) = true := by
    rw [Nat.succ_mul] at hceil
    unfold Interval.holds
    rw [Nat.succ_mul]
    split
    · simp only [Bool.and_eq_true, decide_eq_true_eq]
      omega
    · simp only [Bool.and_eq_true, decide_eq_true_eq]
      omega
  unfold Interval.nearest?
  dsimp only
  rw [decide_eq_true hpositive, Bool.and_true]
  split
  · split <;> rfl
  · rfl
  · rfl
  · next hbelow habove =>
    rw [hbelow, habove] at hfound
    simp at hfound

theorem normalize_eq (steps coefficient : Nat) (power : Int) :
    ((normalize steps coefficient power).1 : ℚ) * 10 ^ (normalize steps coefficient power).2 =
      coefficient * 10 ^ power := by
  fun_induction normalize steps coefficient power with
  | case1 => rfl
  | case2 steps coefficient power h ih =>
    have hdivides : ((coefficient / 10 : Nat) : ℚ) * 10 = coefficient := by
      exact_mod_cast Nat.div_mul_cancel (Nat.dvd_of_mod_eq_zero h.1)
    rw [ih, zpow_add_one₀ (by norm_num), ← hdivides]
    ring
  | case3 => rfl

/-- The exponent of a finite value that is not zero, as a fraction, is that of the format. -/
theorem binade_bounds {n d : Nat} (hd : 0 < d)
    (hvalue : (n / d : ℚ) = (interval x).value * quarter x) (hfinite : x.isFinite = true)
    (hx : x.mantissa ≠ 0) :
    0 < n ∧ -1100 < BinaryFormat.binade n d ∧ BinaryFormat.binade n d < 1100 := by
  have hd' : (0 : ℚ) < d := by exact_mod_cast hd
  have hquarter := quarter_pos x
  have hmantissa := x.mantissa_lt
  have hlow := x.le_exponent
  have hhigh := exponent_le hfinite
  have hvaluepos : (1 : ℚ) ≤ (interval x).value := by
    have hone : 1 ≤ (interval x).value := by
      change 1 ≤ 4 * x.mantissa
      omega
    exact_mod_cast hone
  have hvaluelt : ((interval x).value : ℚ) < 2 ^ (55 : Int) := by
    have hlt : (interval x).value < 2 ^ 55 := by
      change 4 * x.mantissa < 2 ^ 55
      unfold exponentUnit at hmantissa
      omega
    exact_mod_cast hlt
  have hn : 0 < n := by
    refine Nat.pos_of_ne_zero fun hzero => ?_
    rw [hzero, Nat.cast_zero, zero_div] at hvalue
    exact absurd hvalue (by positivity)
  obtain ⟨hbelow, habove⟩ := BinaryFormat.binade_spec hn hd
  rw [hvalue] at hbelow habove
  have hfirst : (2 : ℚ) ^ (x.exponent - 2) < 2 ^ (BinaryFormat.binade n d + 1) := by
    refine lt_of_le_of_lt ?_ habove
    exact le_mul_of_one_le_left hquarter.le hvaluepos
  have hsecond : (2 : ℚ) ^ BinaryFormat.binade n d < 2 ^ (55 + (x.exponent - 2)) := by
    refine hbelow.trans_lt ?_
    rw [zpow_add₀ two_ne_zero]
    exact mul_lt_mul_of_pos_right hvaluelt hquarter
  rw [zpow_lt_zpow_iff_right₀ one_lt_two] at hfirst hsecond
  exact ⟨hn, by omega, by omega⟩

/-- A quarter of the last place as a fraction. -/
def unit (x : Binary64) : Nat × Nat := BinaryFormat.scale 1 1 (x.exponent - 2)

theorem snd_unit_pos (x : Binary64) : 0 < (unit x).2 := BinaryFormat.snd_scale_pos Nat.one_pos

theorem unit_eq (x : Binary64) : ((unit x).1 : ℚ) / (unit x).2 = quarter x := by
  rw [unit, BinaryFormat.scale_eq, Nat.cast_one, div_one, one_mul, quarter]

/-- The digits up to a power of ten, if there are any that are rounded to the value. -/
def onGrid? (x : Binary64) (power : Int) : Option Nat :=
  let grid := scale (unit x).1 (unit x).2 (-power)
  (interval x).nearest? grid.1 grid.2

/-- The power of ten of the first digit. -/
def top (x : Binary64) : Int := decade ((interval x).value * (unit x).1) (unit x).2

theorem digits_eq (x : Binary64) :
    digits x =
      let found := (List.range 17).findSome? fun (extra : Nat) =>
        (onGrid? x (top x - extra)).map fun d => (d, top x - extra)
      normalize 17 (found.getD (0, 0)).1 (found.getD (0, 0)).2 := rfl

theorem grid_eq (x : Binary64) (power : Int) :
    ((scale (unit x).1 (unit x).2 (-power)).1 : ℚ) / (scale (unit x).1 (unit x).2 (-power)).2 =
      quarter x / 10 ^ power := by
  rw [scale_eq, unit_eq, zpow_neg, div_eq_mul_inv]

theorem rounds_onGrid? {power : Int} (h : onGrid? x power = some d) :
    Rounds (d * 10 ^ power) x :=
  (holds_iff (snd_scale_pos (snd_unit_pos x) _) (by positivity) (grid_eq x power)).1
    (holds_of_nearest? h).1

/-- With sixteen digits after the first one there are such digits. -/
theorem isSome_onGrid? {power : Int}
    (hpower : (10 : ℚ) ^ (power + 16) ≤ (interval x).value * quarter x) :
    (onGrid? x power).isSome = true := by
  refine isSome_nearest? (snd_scale_pos (snd_unit_pos x) _) ?_
  have hgrid := grid_eq x power
  have hpos : (0 : ℚ) < (scale (unit x).1 (unit x).2 (-power)).2 := by
    exact_mod_cast snd_scale_pos (snd_unit_pos x) _
  rw [div_eq_iff hpos.ne'] at hgrid
  rw [← Nat.cast_le (α := ℚ), Nat.cast_mul, Nat.cast_mul, hgrid, ← mul_assoc,
    mul_le_mul_iff_of_pos_right hpos, ← mul_div_assoc, le_div_iff₀ (by positivity)]
  refine le_of_eq_of_le ?_ hpower
  rw [Nat.cast_pow, Nat.cast_ofNat, ← zpow_natCast, ← zpow_add₀ (by norm_num), add_comm]
  rfl

/-- The first digit is not above the value. -/
theorem top_le (hfinite : x.isFinite = true) (hx : x.mantissa ≠ 0) :
    (10 : ℚ) ^ top x ≤ (interval x).value * quarter x := by
  have hvalue : (((interval x).value * (unit x).1 : Nat) / (unit x).2 : ℚ) =
      (interval x).value * quarter x := by
    rw [Nat.cast_mul, mul_div_assoc, unit_eq]
  obtain ⟨hn, hbounds⟩ := binade_bounds (snd_unit_pos x) hvalue hfinite hx
  rw [← hvalue]
  exact decade_le hn (snd_unit_pos x) hbounds

/-- The digits are those of a number that is rounded to the value. -/
theorem rounds_digits (hfinite : x.isFinite = true) (hx : x.mantissa ≠ 0) :
    Rounds ((digits x).1 * 10 ^ (digits x).2) x := by
  have hfound : ((List.range 17).findSome? fun (extra : Nat) =>
      (onGrid? x (top x - extra)).map fun d => (d, top x - extra)).isSome = true := by
    rw [List.findSome?_isSome_iff]
    refine ⟨16, by decide, ?_⟩
    rw [Option.isSome_map]
    refine isSome_onGrid? ?_
    rw [Nat.cast_ofNat, sub_add_cancel]
    exact top_le hfinite hx
  obtain ⟨⟨d, power⟩, h⟩ := Option.isSome_iff_exists.1 hfound
  rw [digits_eq]
  dsimp only
  rw [h, Option.getD_some, normalize_eq]
  obtain ⟨extra, _, hgrid⟩ := List.exists_of_findSome?_eq_some h
  obtain ⟨d', hnearest, heq⟩ := Option.map_eq_some_iff.1 hgrid
  cases heq
  exact rounds_onGrid? hnearest

/-- Zero is rounded to a zero. -/
theorem rounds_zero (hx : x.mantissa = 0) : Rounds 0 x := by
  have hquarter := quarter_pos x
  have hclosed : (interval x).closed = true := by simp [interval, hx]
  have hlow : (interval x).low = 0 := by simp [interval, hx]
  rw [Rounds, hclosed, if_pos rfl, hlow]
  exact ⟨by simp, by positivity⟩

/-- What is written is rounded to the value. -/
theorem rounds_written (hfinite : x.isFinite = true) : Rounds x.written x := by
  unfold Binary64.written
  split
  · next hx => exact rounds_zero hx
  · next hx => exact rounds_digits hfinite hx

end Shortest

end ParamQuery
