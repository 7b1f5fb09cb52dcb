import ParamQuery.Proofs.Pieces
import ParamQuery.Proofs.Request.Values
import ParamQuery.Store.Cell

/-!
# Whole numbers read twice

The rules of requests and the columns of tables both read whole numbers, each in its own way. A text
that a rule reads as a number is read as the same number by a column, unless the number is beyond
the range of the column or the text holds white space other than that of ASCII, which the rule
passes over and the column does not.

## Main definitions

* `Cast.AsciiSpaced` — all white space of a text is that of ASCII.
* `ColumnType.wholeNumbers?` — the whole numbers that a column holds.

## Main statements

* `Decimal.not_isBlank_of_read?` — a decimal number holds no white space.
* `Text.writesInteger_toString` — the text of a whole number is a number in decimal.
* `Cast.integer?_iff_of_writesInteger` — when a column reads a number that a rule has read.
* `ColumnType.read?_iff_of_writesInteger` — the same for the types of columns.
-/

namespace ParamQuery

open Text

/-! ## White space -/

theorem dropWhile_congr {α : Type} {p q : α → Bool} {xs : List α} (h : ∀ x ∈ xs, p x = q x) :
    xs.dropWhile p = xs.dropWhile q := by
  induction xs with
  | nil => rfl
  | cons x rest ih =>
    rw [List.forall_mem_cons] at h
    rw [List.dropWhile_cons, List.dropWhile_cons, h.1, ih h.2]

theorem Text.not_isBlank_of_isDigit {c : Char} (h : c.isDigit = true) : isBlank c = false := by
  have hdigit : 48 ≤ c.toNat ∧ c.toNat ≤ 57 := by
    simpa [Char.isDigit, UInt32.le_iff_toNat_le] using h
  simp only [isBlank, Bool.or_eq_false_iff, Bool.and_eq_false_iff, decide_eq_false_iff_not,
    beq_eq_false_iff_ne]
  omega

namespace Cast

/-- All white space of a text is that of ASCII. -/
def AsciiSpaced (text : List Char) : Prop := ∀ c ∈ text, isBlank c = true → isSpace c = true

instance (text : List Char) : Decidable (AsciiSpaced text) :=
  inferInstanceAs (Decidable (∀ c ∈ text, isBlank c = true → isSpace c = true))

theorem isBlank_of_isSpace {c : Char} (h : isSpace c = true) : isBlank c = true := by
  simp only [isSpace, Bool.or_eq_true, beq_iff_eq, Bool.and_eq_true, decide_eq_true_eq] at h
  rcases h with rfl | ⟨hlow, hhigh⟩
  · decide
  · simp [isBlank, hlow, hhigh]

/-- Where all white space is that of ASCII, columns take the same from the ends of a text as
rules. -/
theorem strip_eq_trim {text : List Char} (h : AsciiSpaced text) : strip text = trim text := by
  have hspace (c : Char) (hc : c ∈ text) : isSpace c = isBlank c := by
    rw [Bool.eq_iff_iff]
    exact ⟨isBlank_of_isSpace, h c hc⟩
  have hleft : skipSpace text = trimLeft text := dropWhile_congr hspace
  rw [strip, trim, trimRight, hleft]
  congr 1
  refine dropWhile_congr fun c hc => hspace c ?_
  exact (List.dropWhile_sublist isBlank).subset (List.mem_reverse.1 hc)

theorem mem_strip_of_not_isSpace {c : Char} {text : List Char} (hc : c ∈ text)
    (hspace : isSpace c = false) : c ∈ strip text := by
  rw [strip, List.mem_reverse]
  refine mem_dropWhile_of_false (List.mem_reverse.2 ?_) hspace
  exact mem_dropWhile_of_false hc hspace

theorem strip_skipSpace (text : List Char) : strip (skipSpace text) = strip text := by
  rw [strip, strip]
  congr 3
  exact List.dropWhile_idempotent isSpace text

end Cast

/-! ## Decimal numbers -/

namespace Decimal

theorem readUnsigned?_of_digits {digits : List Char} {n : Nat} (negative : Bool)
    (h : Digits digits n) : readUnsigned? negative digits = some ⟨negative, n, 0⟩ := by
  have htake : digits.takeWhile Char.isDigit = digits := List.takeWhile_eq_self_iff.2 h.isDigit
  have hdrop : digits.dropWhile Char.isDigit = [] := List.dropWhile_eq_nil_iff.2 h.isDigit
  simp [readUnsigned?, htake, hdrop, splitFraction, h.value, h.ne_nil]

/-- Digits after an optional sign are a whole number, and a zero keeps its sign. -/
theorem read?_of_writesInteger {text : List Char} {n : Int} (h : WritesInteger text n) :
    ∃ negative, read? text = some ⟨negative, n.natAbs, 0⟩ ∧
      (if negative then -(n.natAbs : Int) else n.natAbs) = n := by
  obtain ⟨count, hdigits | ⟨digits, rfl, hdigits⟩, rfl⟩ | ⟨digits, rfl, count, hdigits, rfl⟩ := h
  · refine ⟨false, ?_, by simp⟩
    have hread := readUnsigned?_of_digits false hdigits
    unfold read?
    split
    · exact absurd rfl hdigits.head_ne.2
    · exact absurd rfl hdigits.head_ne.1
    · simpa using hread
  · exact ⟨false, by simpa [read?] using readUnsigned?_of_digits false hdigits, by simp⟩
  · exact ⟨true, by simpa [read?] using readUnsigned?_of_digits true hdigits, by simp⟩

/-- A whole number that is not too long is its own nearest whole number. -/
theorem toUnits?_whole {digits n : Nat} (negative : Bool) (hn : n < Nat.pow 10 digits)
    (hdigits : 0 < digits) :
    toUnits? digits 0 ⟨negative, n, 0⟩ = some (if negative then -(n : Int) else n) := by
  have hlength : (toString n).length ≤ digits :=
    (Nat.length_repr_le_iff hdigits).2 hn
  have hmagnitude : ¬ (magnitude ⟨negative, n, 0⟩ + ((0 : Nat) : Int) > digits) := by
    simp only [magnitude]
    omega
  have hpositive : ¬ (magnitude ⟨negative, n, 0⟩ + ((0 : Nat) : Int) < 0) := by
    simp only [magnitude]
    omega
  have hsize : (if n = 0 then some 0 else some n : Option Nat) = some n := by
    split <;> simp_all
  have hfits : (some n).filter (fun k => decide (k < 10 ^ digits)) = some n :=
    Option.filter_some_pos (by simpa using hn)
  simp only [toUnits?, if_neg hmagnitude, if_neg hpositive]
  simp [hsize, hfits]

theorem not_isBlank_of_readExponent? {power : List Char} {e : Int}
    (h : readExponent? power = some e) {c : Char} (hc : c ∈ power) : isBlank c = false := by
  have hnatural {digits : List Char} (hmem : c ∈ digits) (hsome : natural? digits ≠ none) :
      isBlank c = false := by
    obtain ⟨count, hcount⟩ := Option.ne_none_iff_exists'.1 hsome
    exact not_isBlank_of_isDigit ((natural?_eq_some_iff.1 hcount).isDigit c hmem)
  unfold readExponent? at h
  split at h
  · rcases List.mem_cons.1 hc with rfl | hc
    · decide
    · exact hnatural hc fun hnone => by simp [hnone] at h
  · rcases List.mem_cons.1 hc with rfl | hc
    · decide
    · exact hnatural hc fun hnone => by simp [hnone] at h
  · exact hnatural hc fun hnone => by simp [hnone] at h

/-- A fraction is a point and digits, and then the rest follows. -/
theorem not_isBlank_of_splitFraction {text : List Char} {c : Char} (hc : c ∈ text)
    (hrest : c ∈ (splitFraction text).2 → isBlank c = false) : isBlank c = false := by
  unfold splitFraction at hrest
  split at hrest
  · next rest =>
    rcases List.mem_cons.1 hc with rfl | hc
    · decide
    · by_cases hdigit : c.isDigit = true
      · exact not_isBlank_of_isDigit hdigit
      · exact hrest (mem_dropWhile_of_false hc (by simpa using hdigit))
  · exact hrest hc

theorem not_isBlank_of_readUnsigned? {negative : Bool} {text : List Char} {d : Decimal}
    (h : readUnsigned? negative text = some d) {c : Char} (hc : c ∈ text) : isBlank c = false := by
  by_cases hdigit : c.isDigit = true
  · exact not_isBlank_of_isDigit hdigit
  refine not_isBlank_of_splitFraction (mem_dropWhile_of_false hc (by simpa using hdigit)) ?_
  intro hrest
  unfold readUnsigned? at h
  dsimp only at h
  split at h
  · cases h
  · split at h
    · next hnil => simp [hnil] at hrest
    · next mark power hpower =>
      split at h
      · next hmark =>
        obtain ⟨e, he, _⟩ := Option.map_eq_some_iff.1 h
        rw [hpower] at hrest
        rcases List.mem_cons.1 hrest with rfl | hrest
        · rcases hmark with rfl | rfl <;> decide
        · exact not_isBlank_of_readExponent? he hrest
      · cases h

/-- A decimal number holds no white space. -/
theorem not_isBlank_of_read? {text : List Char} {d : Decimal} (h : read? text = some d) {c : Char}
    (hc : c ∈ text) : isBlank c = false := by
  unfold read? at h
  split at h
  · rcases List.mem_cons.1 hc with rfl | hc
    · decide
    · exact not_isBlank_of_readUnsigned? h hc
  · rcases List.mem_cons.1 hc with rfl | hc
    · decide
    · exact not_isBlank_of_readUnsigned? h hc
  · exact not_isBlank_of_readUnsigned? h hc

end Decimal

/-! ## Whole numbers -/

/-- A whole number is written with digits and signs. -/
theorem Text.WritesInteger.isDigit_or {text : List Char} {n : Int} (h : WritesInteger text n)
    {c : Char} (hc : c ∈ text) : c.isDigit = true ∨ c = '+' ∨ c = '-' := by
  obtain ⟨_, hdigits | ⟨digits, rfl, hdigits⟩, _⟩ | ⟨digits, rfl, _, hdigits, _⟩ := h
  · exact .inl (hdigits.isDigit c hc)
  · rcases List.mem_cons.1 hc with rfl | hc
    · exact .inr (.inl rfl)
    · exact .inl (hdigits.isDigit c hc)
  · rcases List.mem_cons.1 hc with rfl | hc
    · exact .inr (.inr rfl)
    · exact .inl (hdigits.isDigit c hc)

theorem Text.WritesInteger.not_isBlank {text : List Char} {n : Int} (h : WritesInteger text n)
    {c : Char} (hc : c ∈ text) : isBlank c = false := by
  obtain hdigit | rfl | rfl := h.isDigit_or hc
  · exact not_isBlank_of_isDigit hdigit
  · decide
  · decide

/-- The text of a whole number: its digits, after a minus sign if it is negative. -/
theorem toList_toString (n : Int) :
    (toString n).toList =
      if n < 0 then '-' :: Nat.toDigits 10 n.natAbs else Nat.toDigits 10 n.natAbs := by
  rw [Int.toString_eq_repr, Int.repr_eq_if]
  by_cases hn : n < 0
  · have habs : (-n).toNat = n.natAbs := by omega
    rw [if_neg (by omega), if_pos hn, habs]
    simp
  · have habs : n.toNat = n.natAbs := by omega
    rw [if_pos (by omega), if_neg hn, habs, Nat.toList_repr]

theorem Text.digits_toDigits (n : Nat) : Digits (Nat.toDigits 10 n) n :=
  ⟨Nat.toDigits_ne_nil, fun _ => Nat.isDigit_of_mem_toDigits (by decide) (by decide),
    Nat.ofDigitChars_ten_toDigits⟩

theorem Text.writesInteger_toString (n : Int) : WritesInteger (toString n).toList n := by
  have hdigits := digits_toDigits n.natAbs
  rw [toList_toString]
  split
  · exact .inr ⟨_, rfl, _, hdigits, by omega⟩
  · exact .inl ⟨_, .inl hdigits, by omega⟩

namespace Cast

theorem ungroup_of_notMem {text : List Char} (inside : Bool) (h : '_' ∉ text) :
    ungroup inside text = text := by
  fun_induction ungroup inside text with
  | case1 => rfl
  | case2 => exact absurd List.mem_cons_self h
  | case3 => exact absurd List.mem_cons_self h
  | case4 inside c rest _ ih => rw [ih (mt (List.mem_cons_of_mem c) h)]

/-- A column reads a number that a rule has read, if it is in range and has no other white space
around it than that of ASCII. -/
theorem integer?_iff_of_writesInteger {type : IntegerType} {text : List Char} {n k : Int}
    (h : WritesInteger (trim text) n) (hn : n.natAbs < Nat.pow 10 40) :
    integer? type text = some k ↔ k = n ∧ AsciiSpaced text ∧ type.holds n = true := by
  -- the text is white space, digits and signs, so it is neither grouped nor of another base
  have hchar (c : Char) (hblank : isBlank c = false)
      (hc : ¬ (c.isDigit = true ∨ c = '+' ∨ c = '-')) : c ∉ text :=
    fun hmem => hc (h.isDigit_or (mem_trim_of_not_isBlank hmem hblank))
  have hunder : '_' ∉ strip text := by
    intro hmem
    have hsub : '_' ∈ text := by
      rw [strip, List.mem_reverse] at hmem
      have hmem := (List.dropWhile_sublist isSpace).subset hmem
      exact (List.dropWhile_sublist isSpace).subset (List.mem_reverse.1 hmem)
    exact hchar '_' (by decide) (by decide) hsub
  have hbase (c d : Char) (digits : List Char) (heq : skipSpace text = c :: d :: digits) :
      d ∈ text :=
    (List.dropWhile_sublist isSpace).subset
      (show d ∈ skipSpace text from heq ▸ List.mem_cons_of_mem c List.mem_cons_self)
  have hinteger : integer? type text =
      ((Decimal.read? (strip text)).bind (Decimal.toUnits? 40 0)).filter type.holds := by
    unfold integer?
    split
    · next digits heq => exact absurd (hbase _ _ _ heq) (hchar 'x' (by decide) (by decide))
    · next digits heq => exact absurd (hbase _ _ _ heq) (hchar 'X' (by decide) (by decide))
    · next digits heq => exact absurd (hbase _ _ _ heq) (hchar 'b' (by decide) (by decide))
    · next digits heq => exact absurd (hbase _ _ _ heq) (hchar 'B' (by decide) (by decide))
    · rw [strip_skipSpace, ungroup_of_notMem false hunder]
  by_cases hspaced : AsciiSpaced text
  · obtain ⟨negative, hread, hvalue⟩ := Decimal.read?_of_writesInteger h
    rw [hinteger, strip_eq_trim hspaced, hread, Option.bind_some,
      Decimal.toUnits?_whole negative hn (by decide), hvalue, Option.filter_eq_some_iff,
      Option.some.injEq]
    constructor
    · rintro ⟨rfl, hholds⟩
      exact ⟨rfl, hspaced, hholds⟩
    · rintro ⟨rfl, _, hholds⟩
      exact ⟨rfl, hholds⟩
  · have hnone : Decimal.read? (strip text) = none := by
      refine Option.eq_none_iff_forall_ne_some.2 fun d hd => hspaced fun c hc hblank => ?_
      by_contra hspace
      rw [Bool.not_eq_true] at hspace
      rw [Decimal.not_isBlank_of_read? hd (mem_strip_of_not_isSpace hc hspace)] at hblank
      cases hblank
    simp [hinteger, hnone, hspaced]

end Cast

/-! ## Columns of whole numbers -/

namespace ColumnType

theorem natAbs_lt_of_holds {n : Int} (h : IntegerType.int64.holds n = true) :
    n.natAbs < Nat.pow 10 40 := by
  rw [IntegerType.holds_iff, show IntegerType.int64.least = -9223372036854775808 from rfl,
    show IntegerType.int64.greatest = 9223372036854775807 from rfl] at h
  have hpow : 9223372036854775809 ≤ Nat.pow 10 40 := by decide
  omega

/-- The whole numbers that a column of this type holds, if it holds any. -/
def wholeNumbers? : ColumnType → Option IntegerType
  | .integer => some .int32
  | .bigint => some .int64
  | _ => none

/-- A column of whole numbers reads a number that a rule has read, if it is in range and has no
other white space around it than that of ASCII. -/
theorem read?_iff_of_writesInteger {type : ColumnType} {range : IntegerType} {text : String}
    {n : Int} {cell : Cell} (htype : type.wholeNumbers? = some range)
    (h : WritesInteger (trim text.toList) n) (hn : IntegerType.int64.holds n = true) :
    type.read? text = some cell ↔
      cell = .integer n ∧ Cast.AsciiSpaced text.toList ∧ range.holds n = true := by
  have hread : type.read? text = (Cast.integer? range text.toList).map .integer := by
    cases type <;> cases htype <;> rfl
  simp only [hread, Option.map_eq_some_iff,
    Cast.integer?_iff_of_writesInteger h (natAbs_lt_of_holds hn)]
  constructor
  · rintro ⟨_, ⟨rfl, hspaced, hholds⟩, rfl⟩
    exact ⟨rfl, hspaced, hholds⟩
  · rintro ⟨rfl, hspaced, hholds⟩
    exact ⟨n, ⟨rfl, hspaced, hholds⟩, rfl⟩

end ColumnType

end ParamQuery
