import ParamQuery.Proofs.RowOrder
import ParamQuery.Proofs.WholeNumber

/-!
# The text of a key

The key of a row is turned into text to look for rows with the same key, and read again as a value
of the key column. For whole numbers, texts and truth values this gives the value back, so different
keys have different texts.

## Main definitions

* `ColumnType.isKey` — the values of a column of keys.

## Main statements

* `Cast.integer?_toString` — a whole number is read back from its text.
* `ColumnType.read?_of_keyText?` — a key is read back from its text.
* `ColumnType.eq_of_satisfies` — what equals a key is the key.
-/

namespace ParamQuery

open Text

/-! ## Whole numbers -/

/-- A whole number is read back from its text. -/
theorem Cast.integer?_toString {type : IntegerType} {n : Int} (hn : type.holds n = true)
    (hbits : n.natAbs < Nat.pow 10 40) : integer? type (toString n).toList = some n := by
  have hwrites := writesInteger_toString n
  have hblank (c : Char) (hc : c ∈ (toString n).toList) : isBlank c = false :=
    hwrites.not_isBlank hc
  have htrim : WritesInteger (trim (toString n).toList) n := by rwa [trim_eq_self hblank]
  refine (integer?_iff_of_writesInteger htrim hbits).2 ⟨rfl, fun c hc hspace => ?_, hn⟩
  rw [hblank c hc] at hspace
  cases hspace

/-! ## Keys -/

/-- The values other than null of a column of keys of this type: whole numbers, texts and truth
values. -/
def ColumnType.isKey : ColumnType → Cell → Bool
  | .integer, .integer n => IntegerType.int32.holds n
  | .bigint, .integer n => IntegerType.int64.holds n
  | .varchar, .text _ => true
  | .boolean, .boolean _ => true
  | _, _ => false

/-- The text of the key in a cell; null is no key. -/
def Cell.keyText? (cell : Cell) : Option String := cell.datum.toJson.keyText?

theorem Cell.keyText?_integer (n : Int) : (Cell.integer n).keyText? = some (toString n) :=
  congrArg some String.ofList_toList

namespace ColumnType

theorem int64_holds_of_int32_holds {n : Int} (h : IntegerType.int32.holds n = true) :
    IntegerType.int64.holds n = true := by
  rw [IntegerType.holds_iff, show IntegerType.int32.least = -2147483648 from rfl,
    show IntegerType.int32.greatest = 2147483647 from rfl] at h
  rw [IntegerType.holds_iff, show IntegerType.int64.least = -9223372036854775808 from rfl,
    show IntegerType.int64.greatest = 9223372036854775807 from rfl]
  omega

/-- A key is read back from its text. -/
theorem read?_of_keyText? {type : ColumnType} {cell : Cell} (h : type.isKey cell = true) :
    ∃ text, cell.keyText? = some text ∧ type.read? text = some cell := by
  cases type <;> cases cell <;> simp only [isKey, Bool.false_eq_true] at h
  case integer.integer n =>
    refine ⟨toString n, Cell.keyText?_integer n, ?_⟩
    rw [read?, Cast.integer?_toString h (natAbs_lt_of_holds (int64_holds_of_int32_holds h))]
    rfl
  case bigint.integer n =>
    refine ⟨toString n, Cell.keyText?_integer n, ?_⟩
    rw [read?, Cast.integer?_toString h (natAbs_lt_of_holds h)]
    rfl
  case varchar.text s => exact ⟨s, rfl, rfl⟩
  case boolean.boolean b =>
    cases b with
    | true => exact ⟨"true", rfl, rfl⟩
    | false => exact ⟨"false", rfl, rfl⟩

/-- Different keys have different texts. -/
theorem eq_of_keyText?_eq {type : ColumnType} {a b : Cell} (ha : type.isKey a = true)
    (hb : type.isKey b = true) (h : a.keyText? = b.keyText?) : a = b := by
  obtain ⟨text, htext, hread⟩ := read?_of_keyText? ha
  obtain ⟨text', htext', hread'⟩ := read?_of_keyText? hb
  rw [htext, htext', Option.some.injEq] at h
  subst h
  exact Option.some.inj (hread.symm.trans hread')

theorem codes_injective {as bs : List Char} (h : codes as = codes bs) : as = bs := by
  refine List.map_injective_iff.2 (fun a b hab => ?_) h
  exact Char.toNat_inj.1 (Int.ofNat.inj hab)

theorem isNull_of_isKey {type : ColumnType} {key : Cell} (h : type.isKey key = true) :
    key.isNull = false := by
  cases type <;> cases key <;> simp_all [isKey, Cell.isNull]

theorem satisfies_self {type : ColumnType} {key : Cell} (hkey : type.isKey key = true) :
    key.satisfies .eq key = true := by
  have hnull := isNull_of_isKey hkey
  exact Cell.satisfies_eq_iff.2 ⟨hnull, hnull, rfl⟩

/-- What equals a key is the key. -/
theorem eq_of_satisfies {type : ColumnType} {cell key : Cell} (hkey : type.isKey key = true)
    (h : cell.satisfies .eq key = true) : cell = key := by
  have heq : cell.key = key.key := (Cell.satisfies_eq_iff.1 h).2.2
  cases type <;> cases key <;> simp only [isKey, Bool.false_eq_true] at hkey <;>
    cases cell <;> simp [Cell.key, Cell.typeRank] at heq
  case integer.integer.integer => rw [heq]
  case bigint.integer.integer => rw [heq]
  case varchar.text.text => rw [String.toList_inj.1 (codes_injective heq)]
  case boolean.boolean.boolean a b =>
    cases a <;> cases b <;> simp_all

end ColumnType

end ParamQuery
