import ParamQuery.Number.Binary64
import Mathlib.Algebra.Order.Field.Power
import Mathlib.Data.Rat.Floor
import Mathlib.Tactic.Linarith
import Mathlib.Tactic.FieldSimp
import Mathlib.Tactic.Positivity

/-!
# Rounding to a binary format

What rounding a fraction to the nearest value of a binary format gives: a mantissa and an exponent
of the format, unless the fraction is too large for it.

## Main statements

* `BinaryFormat.binade_spec` — the power of two below a fraction.
* `BinaryFormat.round?_bounds` — mantissa and exponent are those of the format.
* `Binary64.isFinite_ofRatio` — a fraction below `2 ^ 1023` becomes a finite value.
-/

namespace ParamQuery

/-! ## Scaling -/

section Scaling

variable {base n d : Nat}

/-- The product with a power of a base, as a fraction. -/
def scaleBy (base n d : Nat) (k : Int) : Nat × Nat :=
  if 0 ≤ k then (n * Nat.pow base k.toNat, d) else (n, d * Nat.pow base (-k).toNat)

theorem snd_scaleBy_pos (hbase : 0 < base) (hd : 0 < d) (k : Int) :
    0 < (scaleBy base n d k).2 := by
  unfold scaleBy
  split
  · exact hd
  · exact Nat.mul_pos hd (Nat.pow_pos hbase)

theorem scaleBy_eq (hbase : 0 < base) (n d : Nat) (k : Int) :
    ((scaleBy base n d k).1 : ℚ) / (scaleBy base n d k).2 = n / d * base ^ k := by
  have hbase' : (base : ℚ) ≠ 0 := by exact_mod_cast hbase.ne'
  unfold scaleBy
  split
  · next hk =>
    obtain ⟨j, rfl⟩ := Int.eq_ofNat_of_zero_le hk
    simp
    ring
  · next hk =>
    obtain ⟨j, rfl⟩ : ∃ j : Nat, k = -j := ⟨(-k).toNat, by omega⟩
    simp
    field_simp

/-- A multiple of a power is compared without fractions. -/
theorem scaleBy_mul_le_iff (hbase : 0 < base) (m j : Nat) (k : Int) :
    (scaleBy base m 1 k).1 * j ≤ n * (scaleBy base m 1 k).2 ↔ (m * base ^ k * j : ℚ) ≤ n := by
  have hscale := scaleBy_eq hbase m 1 k
  have hpos : (0 : ℚ) < (scaleBy base m 1 k).2 := by
    exact_mod_cast snd_scaleBy_pos hbase Nat.one_pos k
  rw [div_eq_iff hpos.ne', Nat.cast_one, div_one] at hscale
  rw [← Nat.cast_le (α := ℚ), Nat.cast_mul, hscale, Nat.cast_mul, mul_right_comm,
    mul_le_mul_iff_of_pos_right hpos]

end Scaling

namespace BinaryFormat

variable {n d : Nat} {q : Int}

theorem snd_scale_pos (hd : 0 < d) : 0 < (scale n d q).2 :=
  snd_scaleBy_pos Nat.two_pos hd q

theorem scale_eq (n d : Nat) (q : Int) :
    ((scale n d q).1 : ℚ) / (scale n d q).2 = n / d * 2 ^ q :=
  scaleBy_eq Nat.two_pos n d q

/-! ## The power of two below a fraction -/

theorem two_pow_log2_le (hn : n ≠ 0) : (2 : ℚ) ^ (n.log2 : Int) ≤ n := by
  rw [zpow_natCast]
  exact_mod_cast Nat.log2_self_le hn

theorem lt_two_pow_log2 (n : Nat) : (n : ℚ) < 2 ^ (n.log2 + 1 : Int) := by
  have h : n < 2 ^ (n.log2 + 1) := Nat.lt_log2_self
  exact_mod_cast h

theorem div_lt_two_pow (hd : 0 < d) : (n / d : ℚ) < 2 ^ ((n.log2 : Int) - d.log2 + 1) := by
  have hd' : (0 : ℚ) < d := by exact_mod_cast hd
  have hpower : (2 : ℚ) ^ ((n.log2 : Int) - d.log2 + 1) * 2 ^ (d.log2 : Int) =
      2 ^ (n.log2 + 1 : Int) := by
    rw [← zpow_add₀ two_ne_zero]
    ring_nf
  rw [div_lt_iff₀ hd']
  calc (n : ℚ) < 2 ^ (n.log2 + 1 : Int) := lt_two_pow_log2 n
    _ = 2 ^ ((n.log2 : Int) - d.log2 + 1) * 2 ^ (d.log2 : Int) := hpower.symm
    _ ≤ 2 ^ ((n.log2 : Int) - d.log2 + 1) * d := by
      gcongr
      exact two_pow_log2_le hd.ne'

theorem two_pow_le_div (hn : 0 < n) (hd : 0 < d) :
    (2 : ℚ) ^ ((n.log2 : Int) - d.log2 - 1) ≤ n / d := by
  have hd' : (0 : ℚ) < d := by exact_mod_cast hd
  have hpower : (2 : ℚ) ^ ((n.log2 : Int) - d.log2 - 1) * 2 ^ (d.log2 + 1 : Int) =
      2 ^ (n.log2 : Int) := by
    rw [← zpow_add₀ two_ne_zero]
    ring_nf
  rw [le_div_iff₀ hd']
  calc (2 : ℚ) ^ ((n.log2 : Int) - d.log2 - 1) * d
      ≤ 2 ^ ((n.log2 : Int) - d.log2 - 1) * 2 ^ (d.log2 + 1 : Int) := by
        gcongr
        exact (lt_two_pow_log2 d).le
    _ = 2 ^ (n.log2 : Int) := hpower
    _ ≤ n := two_pow_log2_le hn.ne'

/-- The power of two below a fraction. -/
theorem binade_spec (hn : 0 < n) (hd : 0 < d) :
    (2 : ℚ) ^ binade n d ≤ n / d ∧ (n / d : ℚ) < 2 ^ (binade n d + 1) := by
  have hd' : (0 : ℚ) < d := by exact_mod_cast hd
  have hbound : (scale d 1 ((n.log2 : Int) - d.log2)).1 ≤
      n * (scale d 1 ((n.log2 : Int) - d.log2)).2 ↔
      (2 : ℚ) ^ ((n.log2 : Int) - d.log2) ≤ n / d := by
    have hscale := scaleBy_mul_le_iff (n := n) Nat.two_pos d 1 ((n.log2 : Int) - d.log2)
    rw [Nat.mul_one, Nat.cast_one, mul_one, mul_comm (d : ℚ), ← le_div_iff₀ hd'] at hscale
    exact hscale
  unfold binade
  dsimp only
  split
  · next h => exact ⟨hbound.1 h, div_lt_two_pow hd⟩
  · next h =>
    refine ⟨two_pow_le_div hn hd, ?_⟩
    rw [sub_add_cancel]
    exact lt_of_not_ge (mt hbound.2 h)

/-! ## Rounding -/

theorem roundHalfEven_le (n d : Nat) : roundHalfEven n d ≤ n / d + 1 := by
  unfold roundHalfEven
  dsimp only
  split <;> omega

/-- The mantissa before it is brought below `2 ^ precision`. -/
theorem roundHalfEven_scale_le {precision : Nat} (hn : 0 < n) (hd : 0 < d)
    (hq : binade n d - (precision - 1) ≤ q) :
    roundHalfEven (scale n d (-q)).1 (scale n d (-q)).2 ≤ Nat.pow 2 precision := by
  refine (roundHalfEven_le _ _).trans (Nat.div_lt_of_lt_mul ?_)
  have hpos : (0 : ℚ) < (scale n d (-q)).2 := by exact_mod_cast snd_scale_pos hd
  have hlt : ((scale n d (-q)).1 : ℚ) / (scale n d (-q)).2 < 2 ^ (precision : Int) := by
    rw [scale_eq]
    calc (n / d : ℚ) * 2 ^ (-q) < 2 ^ (binade n d + 1) * 2 ^ (-q) := by
          gcongr
          exact (binade_spec hn hd).2
      _ = 2 ^ (binade n d + 1 - q) := by rw [← zpow_add₀ two_ne_zero, sub_eq_add_neg]
      _ ≤ 2 ^ (precision : Int) := zpow_le_zpow_right₀ one_le_two (by omega)
  rw [div_lt_iff₀ hpos, zpow_natCast, mul_comm] at hlt
  exact_mod_cast hlt

/-- A fraction that is not too large has a nearest value, with mantissa and exponent of the
format. -/
theorem round?_bounds {format : BinaryFormat} (hn : 0 < n) (hd : 0 < d)
    (hsmall : binade n d < format.greatest + (format.precision - 1))
    (hformat : format.least < format.greatest) :
    ∃ m q, format.round? n d = some (m, q) ∧ m < Nat.pow 2 format.precision ∧
      format.least ≤ q ∧ q ≤ format.greatest := by
  have hle := roundHalfEven_scale_le hn hd
    (le_max_left (binade n d - (format.precision - 1)) format.least)
  unfold round?
  dsimp only
  generalize hq : max (binade n d - (format.precision - 1)) format.least = q at hle
  generalize roundHalfEven (scale n d (-q)).1 (scale n d (-q)).2 = m at hle
  by_cases hm : m = Nat.pow 2 format.precision
  · rw [if_pos hm]
    dsimp only
    rw [if_pos (by omega)]
    refine ⟨_, _, rfl, ?_, by omega, by omega⟩
    have hpos : 0 < Nat.pow 2 format.precision := Nat.two_pow_pos _
    omega
  · rw [if_neg hm]
    dsimp only
    rw [if_pos (by omega)]
    exact ⟨_, _, rfl, by omega, by omega, by omega⟩

end BinaryFormat

namespace Binary64

theorem toNat_ofParts {rest : Nat} (negative : Bool) (hrest : rest < signUnit) :
    (ofParts negative rest).bits.toNat = (if negative then signUnit else 0) + rest := by
  unfold signUnit at hrest
  rw [ofParts, UInt64.toNat_ofNat', Nat.mod_eq_of_lt]
  unfold signUnit
  split <;> omega

theorem isFinite_ofParts {rest : Nat} (negative : Bool) (hrest : rest < 2047 * exponentUnit) :
    (ofParts negative rest).isFinite = true := by
  have hsize : rest < signUnit := hrest.trans (by decide)
  rw [isFinite, biasedExponent, toNat_ofParts negative hsize, bne_iff_ne]
  unfold exponentUnit at hrest ⊢
  unfold signUnit
  split <;> omega

theorem isFinite_ofMantissa {m : Nat} {q : Int} (negative : Bool) (hm : m < 2 * exponentUnit)
    (hq : -1074 ≤ q ∧ q ≤ 971) : (ofMantissa negative m q).isFinite = true := by
  rw [ofMantissa]
  unfold exponentUnit at hm ⊢
  split
  · exact isFinite_ofParts negative (by unfold exponentUnit; omega)
  · exact isFinite_ofParts negative (by unfold exponentUnit; omega)

/-- A fraction below `2 ^ 1023` is not rounded to an infinity. -/
theorem isFinite_ofRatio {n d k : Nat} (negative : Bool) (hd : 0 < d) (hk : k ≤ 1023)
    (hsmall : n < Nat.pow 2 k * d) : (ofRatio negative n d).isFinite = true := by
  rw [ofRatio]
  split
  · exact isFinite_ofParts negative (by decide)
  · next hn =>
    have hn : 0 < n := Nat.pos_of_ne_zero hn
    have hbinade : BinaryFormat.binade n d < k := by
      have hd' : (0 : ℚ) < d := by exact_mod_cast hd
      have hlt : (2 : ℚ) ^ BinaryFormat.binade n d < 2 ^ (k : Int) := by
        refine (BinaryFormat.binade_spec hn hd).1.trans_lt ?_
        rw [div_lt_iff₀ hd']
        exact_mod_cast hsmall
      exact (zpow_lt_zpow_iff_right₀ one_lt_two).1 hlt
    have hdouble : BinaryFormat.binade n d <
        BinaryFormat.double.greatest + (BinaryFormat.double.precision - 1) := by
      have hbound : BinaryFormat.double.greatest + (BinaryFormat.double.precision - 1) = 1023 := rfl
      omega
    obtain ⟨m, q, hround, hm, hlow, hhigh⟩ :=
      BinaryFormat.round?_bounds hn hd hdouble (by decide)
    rw [hround]
    exact isFinite_ofMantissa negative hm ⟨hlow, hhigh⟩

end Binary64

end ParamQuery
