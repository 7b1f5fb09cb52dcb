import ParamQuery.Proofs.Number.Shortest
import ParamQuery.Proofs.Numerals

/-!
# Texts of binary numbers

The text of a finite value reads as a decimal number that is rounded to this value, however it is
laid out. So different values have different texts.

## Main definitions

* `Decimal.size` — the absolute value of a decimal number.

## Main statements

* `FloatLayout.read?_render` — the text of a value reads as its digits.
* `FloatLayout.render_inj` — texts tell values apart.
-/

namespace ParamQuery

open Text

namespace Decimal

/-- The absolute value of a decimal number. -/
def size (d : Decimal) : ℚ := d.coefficient * 10 ^ d.exponent

theorem takeWhile_digits {digits rest : List Char} {c : Char} (h : AllDigits digits)
    (hc : c.isDigit = false) : (digits ++ c :: rest).takeWhile Char.isDigit = digits := by
  rw [List.takeWhile_append_of_pos h, List.takeWhile_cons_of_neg (by simp [hc]), List.append_nil]

theorem dropWhile_digits {digits rest : List Char} {c : Char} (h : AllDigits digits)
    (hc : c.isDigit = false) : (digits ++ c :: rest).dropWhile Char.isDigit = c :: rest := by
  rw [List.dropWhile_append_of_pos h, List.dropWhile_cons_of_neg (by simp [hc])]

/-- Digits around a point. -/
theorem readUnsigned?_point {whole fraction : List Char} (negative : Bool) (hne : whole ≠ [])
    (hwhole : AllDigits whole) (hfraction : AllDigits fraction) :
    readUnsigned? negative (whole ++ '.' :: fraction) =
      some ⟨negative, digitsValue 0 (whole ++ fraction), -fraction.length⟩ := by
  have htake : fraction.takeWhile Char.isDigit = fraction := List.takeWhile_eq_self_iff.2 hfraction
  have hdrop : fraction.dropWhile Char.isDigit = [] := List.dropWhile_eq_nil_iff.2 hfraction
  unfold readUnsigned?
  rw [takeWhile_digits hwhole (by decide), dropWhile_digits hwhole (by decide)]
  simp [splitFraction, htake, hdrop, hne]

/-- Digits, perhaps others after a point, and a power of ten. -/
theorem readUnsigned?_power {whole fraction power : List Char} {e : Int} (negative : Bool)
    (hne : whole ≠ []) (hwhole : AllDigits whole) (hfraction : AllDigits fraction)
    (hpower : readExponent? power = some e) :
    readUnsigned? negative
        (whole ++ (if fraction.isEmpty then [] else '.' :: fraction) ++ 'e' :: power) =
      some ⟨negative, digitsValue 0 (whole ++ fraction), e - fraction.length⟩ := by
  unfold readUnsigned?
  cases fraction with
  | nil =>
    rw [List.isEmpty_nil, if_pos rfl, List.append_nil, takeWhile_digits hwhole (by decide),
      dropWhile_digits hwhole (by decide)]
    simp [splitFraction, hne, hpower]
  | cons c rest =>
    rw [List.isEmpty_cons, if_neg (by decide), List.append_assoc, List.cons_append,
      takeWhile_digits hwhole (by decide), dropWhile_digits hwhole (by decide)]
    have hsplit : splitFraction ('.' :: (c :: rest ++ 'e' :: power)) =
        (c :: rest, 'e' :: power) := by
      change (_, _) = _
      rw [takeWhile_digits hfraction (by decide), dropWhile_digits hfraction (by decide)]
    rw [hsplit]
    simp [hpower]

/-- A text that is read without a sign has none. -/
theorem read?_of_readUnsigned? {text : List Char} {d : Decimal}
    (h : readUnsigned? false text = some d) : read? text = some d := by
  unfold read?
  split
  · simp [readUnsigned?, splitFraction] at h
  · simp [readUnsigned?, splitFraction] at h
  · exact h

/-- A text without a sign is read as a number of this size. -/
def Reads (text : List Char) (size : ℚ) : Prop :=
  ∀ negative, ∃ d, readUnsigned? negative text = some d ∧ d.negative = negative ∧ d.size = size

end Decimal

/-! ## Layouts -/

section Layouts

open Decimal

variable {digits : List Char} {n : Nat}

theorem reads_zero : Reads ['0', '.', '0'] 0 := fun negative =>
  ⟨⟨negative, 0, -1⟩, by cases negative <;> decide, rfl, by simp [size]⟩

/-- A whole number written out. -/
theorem Text.Digits.reads_whole (h : Digits digits n) (zeros : Nat) :
    Reads (digits ++ List.replicate zeros '0' ++ ['.', '0']) (n * 10 ^ (zeros : Int)) := by
  intro negative
  have hall : AllDigits digits := h.isDigit
  refine ⟨_, readUnsigned?_point negative (by simp [h.ne_nil]) (hall.append (allDigits_zeros zeros))
    (allDigits_zeros 1), rfl, ?_⟩
  have hlast : digitsValue (n * Nat.pow 10 zeros) ['0'] = n * Nat.pow 10 zeros * 10 :=
    digitsValue_zeros _ 1
  rw [size, digitsValue_append, digitsValue_append, h.value, digitsValue_zeros, hlast, Nat.pow_eq]
  push_cast
  rw [List.length_singleton, Nat.cast_one, zpow_neg_one, mul_assoc, mul_inv_cancel₀ (by norm_num),
    mul_one, zpow_natCast]

/-- The point stands between two digits. -/
theorem Text.Digits.reads_inside (h : Digits digits n) {count : Nat} (hcount : 0 < count)
    (hle : count ≤ digits.length) :
    Reads (digits.take count ++ '.' :: digits.drop count)
      (n * 10 ^ ((count : Int) - digits.length)) := by
  intro negative
  have hall : AllDigits digits := h.isDigit
  have htake : digits.take count ≠ [] := by
    simp [h.ne_nil, hcount.ne']
  refine ⟨_, readUnsigned?_point negative htake (hall.take count) (hall.drop count), rfl, ?_⟩
  rw [size, List.take_append_drop, h.value, List.length_drop]
  dsimp only
  congr 2
  omega

/-- Zeros follow the point. -/
theorem Text.Digits.reads_below (h : Digits digits n) (zeros : Nat) :
    Reads (['0', '.'] ++ List.replicate zeros '0' ++ digits)
      (n * 10 ^ (-(zeros + digits.length : Int))) := by
  intro negative
  have hall : AllDigits digits := h.isDigit
  have hread := readUnsigned?_point negative (List.cons_ne_nil '0' []) (allDigits_zeros 1)
    ((allDigits_zeros zeros).append hall)
  have hvalue : digitsValue 0 (['0'] ++ (List.replicate zeros '0' ++ digits)) = n :=
    (h.zeros_append (zeros + 1)).value
  rw [hvalue, List.length_append, List.length_replicate, Nat.cast_add] at hread
  have htext : ['0', '.'] ++ List.replicate zeros '0' ++ digits =
      ['0'] ++ '.' :: (List.replicate zeros '0' ++ digits) := by simp
  exact ⟨_, htext ▸ hread, rfl, rfl⟩

/-- A marked power of ten. -/
theorem Text.Digits.reads_marked (h : Digits digits n) (width : Nat) (first : Int) :
    Reads (digits.take 1 ++ (if (digits.drop 1).isEmpty then [] else '.' :: digits.drop 1) ++
        ['e', if first < 0 then '-' else '+'] ++ padded width first.natAbs)
      (n * 10 ^ (first - (digits.length - 1))) := by
  intro negative
  have hall : AllDigits digits := h.isDigit
  have htake : digits.take 1 ≠ [] := by
    simp [h.ne_nil]
  have hpower : readExponent? ((if first < 0 then '-' else '+') :: padded width first.natAbs) =
      some first := by
    have hnatural := natural?_eq_some_iff.2 (digits_padded width first.natAbs)
    by_cases hfirst : first < 0
    · rw [if_pos hfirst, readExponent?, hnatural]
      change some (-(first.natAbs : Int)) = _
      rw [Int.ofNat_natAbs_of_nonpos hfirst.le, neg_neg]
    · rw [if_neg hfirst, readExponent?, hnatural]
      change some (first.natAbs : Int) = _
      rw [Int.natAbs_of_nonneg (not_lt.1 hfirst)]
  have hread := readUnsigned?_power negative htake (hall.take 1) (hall.drop 1) hpower
  rw [List.take_append_drop, h.value, List.length_drop] at hread
  rw [List.append_assoc _ ['e', _]]
  refine ⟨_, hread, rfl, ?_⟩
  have hlength := List.length_pos_iff.2 h.ne_nil
  rw [size]
  congr 2
  dsimp only
  omega

end Layouts

namespace FloatLayout

variable {x y : Binary64}

/-- Digits and a power of ten are read as the number they stand for. -/
theorem reads_layDigits (layout : FloatLayout) (coefficient : Nat) (power : Int) :
    Decimal.Reads (layout.layDigits coefficient power) (coefficient * 10 ^ power) := by
  have hdigits := digits_toString coefficient
  have hlength := List.length_pos_iff.2 hdigits.ne_nil
  unfold layDigits
  dsimp only
  generalize (toString coefficient).toList = digits at hdigits hlength
  generalize hfirst : power + (digits.length : Int) - 1 = first
  split
  · split
    · next hpower =>
      obtain ⟨zeros, rfl⟩ := Int.eq_ofNat_of_zero_le hpower
      exact hdigits.reads_whole zeros
    · next hpower =>
      split
      · next hinside =>
        have hread := hdigits.reads_inside (Nat.succ_pos first.toNat) (by omega)
        have hexponent : ((first.toNat + 1 : Nat) : Int) - digits.length = power := by omega
        rwa [hexponent] at hread
      · next hbelow =>
        have hread := hdigits.reads_below (-first - 1).toNat
        have hexponent : -(((-first - 1).toNat : Int) + digits.length) = power := by omega
        rwa [hexponent] at hread
  · have hread := hdigits.reads_marked layout.powerDigits first
    have hexponent : first - ((digits.length : Int) - 1) = power := by omega
    rwa [hexponent] at hread

/-- The text of an absolute value. -/
def renderSize (layout : FloatLayout) (x : Binary64) : List Char :=
  if x.mantissa = 0 then ['0', '.', '0']
  else layout.layDigits (Shortest.digits x).1 (Shortest.digits x).2

theorem render_eq (layout : FloatLayout) (x : Binary64) :
    layout.render x = (if x.negative then ['-'] else []) ++ layout.renderSize x := by
  unfold render renderSize
  dsimp only
  split <;> rfl

theorem reads_renderSize (layout : FloatLayout) (x : Binary64) :
    Decimal.Reads (layout.renderSize x) x.written := by
  unfold renderSize Binary64.written
  split
  · exact reads_zero
  · exact layout.reads_layDigits _ _

/-- The text of a value is read as its digits, with its sign. -/
theorem read?_render (layout : FloatLayout) (x : Binary64) :
    ∃ d, Decimal.read? (layout.render x) = some d ∧ d.negative = x.negative ∧
      d.size = x.written := by
  obtain ⟨d, hread, hsign, hsize⟩ := layout.reads_renderSize x x.negative
  refine ⟨d, ?_, hsign, hsize⟩
  rw [render_eq]
  cases hnegative : x.negative with
  | true =>
    rw [hnegative] at hread
    exact hread
  | false =>
    rw [hnegative] at hread
    exact Decimal.read?_of_readUnsigned? hread

/-- Texts tell finite values apart: the number that is read is rounded to one value only. -/
theorem render_inj {layout : FloatLayout} (hx : x.isFinite = true) (hy : y.isFinite = true)
    (h : layout.render x = layout.render y) : x = y := by
  obtain ⟨d, hread, hsign, hsize⟩ := layout.read?_render x
  obtain ⟨d', hread', hsign', hsize'⟩ := layout.read?_render y
  rw [h, hread', Option.some.injEq] at hread
  subst hread
  exact (Shortest.rounds_written hx).unique (hsize ▸ hsize' ▸ Shortest.rounds_written hy)
    (hsign.symm.trans hsign')

/-! ## Characters -/

/-- A digit, a point, a sign or the mark of a power of ten. -/
def IsMark (c : Char) : Prop := c.isDigit = true ∨ c ∈ ['.', 'e', '+', '-']

instance (c : Char) : Decidable (IsMark c) := inferInstanceAs (Decidable (_ ∨ _))

theorem isMark_of_allDigits {text : List Char} (h : AllDigits text) : ∀ c ∈ text, IsMark c :=
  fun c hc => .inl (h c hc)

/-- Texts of digits and powers of ten are made of marks. -/
theorem isMark_layDigits (layout : FloatLayout) (coefficient : Nat) (power : Int) :
    ∀ c ∈ layout.layDigits coefficient power, IsMark c := by
  have hdigits : AllDigits (toString coefficient).toList := (digits_toString coefficient).isDigit
  have hzeros (count : Nat) := isMark_of_allDigits (allDigits_zeros count)
  unfold layDigits
  dsimp only
  generalize (toString coefficient).toList = digits at hdigits
  generalize power + (digits.length : Int) - 1 = first
  split
  · split
    · simp only [List.forall_mem_append]
      exact ⟨⟨isMark_of_allDigits hdigits, hzeros _⟩, forall_mem_of_all (by decide)⟩
    · split
      · rw [List.forall_mem_append, List.forall_mem_cons]
        exact ⟨isMark_of_allDigits (hdigits.take _), by decide,
          isMark_of_allDigits (hdigits.drop _)⟩
      · simp only [List.forall_mem_append]
        exact ⟨⟨forall_mem_of_all (by decide), hzeros _⟩, isMark_of_allDigits hdigits⟩
  · have hpower := isMark_of_allDigits (digits_padded layout.powerDigits first.natAbs).isDigit
    simp only [List.forall_mem_append]
    refine ⟨⟨⟨isMark_of_allDigits (hdigits.take 1), ?_⟩, ?_⟩, hpower⟩
    · split
      · simp
      · rw [List.forall_mem_cons]
        exact ⟨by decide, isMark_of_allDigits (hdigits.drop 1)⟩
    · split <;> exact forall_mem_of_all (by decide)

/-- A text of digits and a power of ten is marked as such, even if it is a whole number. -/
theorem mark_mem_layDigits (layout : FloatLayout) (coefficient : Nat) (power : Int) :
    '.' ∈ layout.layDigits coefficient power ∨ 'e' ∈ layout.layDigits coefficient power := by
  unfold layDigits
  dsimp only
  split
  · left
    split
    · simp
    · split <;> simp
  · right
    simp

theorem isMark_render (layout : FloatLayout) (x : Binary64) :
    ∀ c ∈ layout.render x, IsMark c := by
  rw [render_eq, List.forall_mem_append]
  refine ⟨by split <;> exact forall_mem_of_all (by decide), ?_⟩
  unfold renderSize
  split
  · exact forall_mem_of_all (by decide)
  · exact isMark_layDigits _ _ _

theorem mark_mem_render (layout : FloatLayout) (x : Binary64) :
    '.' ∈ layout.render x ∨ 'e' ∈ layout.render x := by
  rw [render_eq, List.mem_append, List.mem_append]
  have hmark : '.' ∈ layout.renderSize x ∨ 'e' ∈ layout.renderSize x := by
    unfold renderSize
    split
    · exact .inl (by decide)
    · exact mark_mem_layDigits _ _ _
  exact hmark.imp .inr .inr

end FloatLayout

end ParamQuery
