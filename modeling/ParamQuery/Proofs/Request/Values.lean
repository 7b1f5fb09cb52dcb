import ParamQuery.Proofs.Result
import ParamQuery.Validation

/-!
# Texts of values

What the text of a parameter must look like, said without the functions that read it: counts and
whole numbers in decimal, orders, and texts that satisfy a value rule.

## Main definitions

* `Text.WritesCount`, `Text.WritesInteger` — a text is a number in decimal.
* `ParamValue.IsCount`, `ParamValue.IsOrder` — a value is a count, or an order by a column.
* `ParamValue.CountFault`, `ParamValue.LimitFault` — what is wrong with a value that is no count, or
  not the size of a page.
* `ValueRule.Admits` — a text satisfies a rule.

## Main statements

* `readCount_eq_ok_iff`, `readLimit_eq_ok_iff` — which values are read as counts.
* `readCount_eq_error_iff`, `readLimit_eq_error_iff` — what is reported of the others.
* `Order.parse?_eq_some_iff` — which texts are orders.
* `ValueRule.fault?_eq_none_iff` — which texts a rule finds no fault with.
-/

namespace ParamQuery

open Text

/-! ## Numbers -/

namespace Text

/-- A text is decimal digits of a number, at least one of them. -/
structure Digits (text : List Char) (n : Nat) : Prop where
  ne_nil : text ≠ []
  isDigit : ∀ c ∈ text, c.isDigit = true
  value : digitsValue 0 text = n

/-- A text is the digits of a number, after a plus sign that may be left out. -/
def WritesCount (text : List Char) (n : Nat) : Prop :=
  Digits text n ∨ ∃ digits, text = '+' :: digits ∧ Digits digits n

/-- A text is the digits of a number, after a sign that may be left out if it is a plus. -/
def WritesInteger (text : List Char) (n : Int) : Prop :=
  (∃ count : Nat, WritesCount text count ∧ n = count) ∨
    ∃ digits, text = '-' :: digits ∧ ∃ count : Nat, Digits digits count ∧ n = -count

theorem natural?_eq_some_iff {text : List Char} {n : Nat} :
    natural? text = some n ↔ Digits text n := by
  unfold natural?
  constructor
  · intro h
    split at h
    · next htext =>
      simp only [Bool.and_eq_true, Bool.not_eq_true', List.isEmpty_eq_false_iff,
        List.all_eq_true] at htext
      exact ⟨htext.1, htext.2, Option.some.inj h⟩
    · cases h
  · rintro ⟨hne, hdigits, rfl⟩
    have htext : (!text.isEmpty && text.all Char.isDigit) = true := by
      simp only [Bool.and_eq_true, Bool.not_eq_true', List.isEmpty_eq_false_iff, List.all_eq_true]
      exact ⟨hne, hdigits⟩
    rw [if_pos htext]

/-- A sign is no digit. -/
theorem Digits.head_ne {sign : Char} {rest : List Char} {n : Nat} (h : Digits (sign :: rest) n) :
    sign ≠ '+' ∧ sign ≠ '-' := by
  have hdigit := h.isDigit sign List.mem_cons_self
  constructor <;> rintro rfl <;> exact absurd hdigit (by decide)

theorem writesCount_plus_iff {rest : List Char} {n : Nat} :
    WritesCount ('+' :: rest) n ↔ Digits rest n := by
  constructor
  · rintro (h | ⟨digits, heq, h⟩)
    · exact absurd rfl h.head_ne.1
    · cases heq
      exact h
  · intro h
    exact .inr ⟨rest, rfl, h⟩

theorem writesCount_iff_of_ne_plus {text : List Char} {n : Nat}
    (htext : ∀ rest, text ≠ '+' :: rest) : WritesCount text n ↔ Digits text n := by
  constructor
  · rintro (h | ⟨digits, heq, _⟩)
    · exact h
    · exact absurd heq (htext digits)
  · exact .inl

theorem count?_eq_some_iff {text : List Char} {n : Nat} :
    count? text = some n ↔ WritesCount text n ∧ n < 18446744073709551616 := by
  unfold count?
  rw [Option.filter_eq_some_iff, IntegerType.uint64_holds_ofNat_iff, natural?_eq_some_iff]
  refine and_congr_left fun _ => ?_
  split
  · exact writesCount_plus_iff.symm
  · next htext => exact (writesCount_iff_of_ne_plus htext).symm

theorem map_natural?_eq_some_iff {text : List Char} {n : Int} :
    (natural? text).map Int.ofNat = some n ↔ ∃ count : Nat, Digits text count ∧ n = count := by
  rw [Option.map_eq_some_iff]
  exact exists_congr fun count => and_congr natural?_eq_some_iff eq_comm

theorem integer?_eq_some_iff {text : List Char} {n : Int} :
    integer? text = some n ↔
      WritesInteger text n ∧ IntegerType.int64.least ≤ n ∧ n ≤ IntegerType.int64.greatest := by
  unfold integer?
  rw [Option.filter_eq_some_iff, IntegerType.holds_iff]
  refine and_congr_left fun _ => ?_
  unfold WritesInteger
  split
  · next rest =>
    have hplus : ¬ ∃ count : Nat, WritesCount ('-' :: rest) count ∧ n = count := by
      rintro ⟨count, h, _⟩
      have hdigits := (writesCount_iff_of_ne_plus (by simp)).1 h
      exact hdigits.head_ne.2 rfl
    have hminus : (∃ digits, '-' :: rest = '-' :: digits ∧
        ∃ count : Nat, Digits digits count ∧ n = -count) ↔
          ∃ count : Nat, Digits rest count ∧ n = -count := by
      simp
    rw [or_iff_right hplus, hminus]
    simp only [Option.map_eq_some_iff, Option.bind_eq_bind, Option.bind_eq_some_iff, Option.pure_def,
      Option.some.injEq, natural?_eq_some_iff]
    constructor
    · rintro ⟨_, ⟨count, hcount, rfl⟩, rfl⟩
      exact ⟨count, hcount, rfl⟩
    · rintro ⟨count, hcount, rfl⟩
      exact ⟨_, ⟨count, hcount, rfl⟩, rfl⟩
  · next rest =>
    rw [map_natural?_eq_some_iff]
    simp [writesCount_plus_iff]
  · next hminus hplus =>
    rw [map_natural?_eq_some_iff]
    have hnone : ¬ ∃ digits, text = '-' :: digits ∧ ∃ count : Nat, Digits digits count ∧
        n = -count := by
      rintro ⟨digits, heq, _⟩
      exact hminus digits heq
    simp [writesCount_iff_of_ne_plus hplus, hnone]

end Text

/-! ## Counts -/

/-- A value is a count that the tables take, as one text with white space around it. -/
def ParamValue.IsCount (value : ParamValue) (n : Nat) : Prop :=
  ∃ text, value = .single text ∧ WritesCount (trim text.toList) n ∧ n ≤ largestCount

theorem singleText_eq_ok_iff {param text : String} {value : ParamValue} :
    singleText param value = .ok text ↔ value = .single text := by
  cases value <;> simp [singleText, ParamValue.single?]

theorem readCount_eq_ok_iff {param : String} {value : ParamValue} {n : Nat} :
    readCount param value = .ok n ↔ value.IsCount n := by
  simp only [readCount, bind_eq_ok_iff, singleText_eq_ok_iff, ParamValue.IsCount]
  refine exists_congr fun text => and_congr_right fun _ => ?_
  cases hcount : count? (trim text.toList) with
  | none =>
    constructor
    · rintro ⟨⟩
    · rintro ⟨hwrites, hle⟩
      have hlarge : n < 18446744073709551616 := by
        unfold largestCount at hle
        omega
      rw [count?_eq_some_iff.2 ⟨hwrites, hlarge⟩] at hcount
      cases hcount
  | some count =>
    obtain ⟨hwrites, _⟩ := count?_eq_some_iff.1 hcount
    dsimp only
    constructor
    · intro h
      split at h
      · cases h
      · next hle =>
        obtain rfl : count = n := Except.ok.inj h
        exact ⟨hwrites, by omega⟩
    · rintro ⟨hn, hle⟩
      have hlarge : n < 18446744073709551616 := by
        unfold largestCount at hle
        omega
      have heq : some count = some n := hcount.symm.trans (count?_eq_some_iff.2 ⟨hn, hlarge⟩)
      obtain rfl : count = n := Option.some.inj heq
      rw [if_neg (by omega)]
      rfl

/-- A page has at least one row and at most as many as the configuration allows. -/
theorem readLimit_eq_ok_iff {config : Config} {value : ParamValue} {n : Nat} :
    readLimit config value = .ok n ↔
      value.IsCount n ∧ 1 ≤ n ∧ ∀ max, config.maxLimit = some max → n ≤ max := by
  simp only [readLimit, bind_eq_ok_iff, readCount_eq_ok_iff]
  constructor
  · rintro ⟨count, hcount, h⟩
    split at h
    · cases h
    · next hone =>
      split at h
      · next max hmax =>
        split at h
        · cases h
        · next hle =>
          obtain rfl : count = n := Except.ok.inj h
          refine ⟨hcount, by omega, fun max' hmax' => ?_⟩
          obtain rfl : max = max' := Option.some.inj (hmax.symm.trans hmax')
          omega
      · next hmax =>
        obtain rfl : count = n := Except.ok.inj h
        exact ⟨hcount, by omega, fun max hmax' => absurd (hmax.symm.trans hmax') nofun⟩
  · rintro ⟨hcount, hone, hmax⟩
    refine ⟨n, hcount, ?_⟩
    rw [if_neg (by omega)]
    split
    · next max heq =>
      have hle := hmax max heq
      rw [if_neg (by omega)]
      rfl
    · rfl

/-! ## What is wrong with a count -/

/-- What is wrong with a value as a count. -/
inductive ParamValue.CountFault : ParamValue → ValueFault → Prop where
  | list {texts : List String} : CountFault (.many texts) .notSingle
  | notCount {text : String} :
    (∀ n, WritesCount (trim text.toList) n → 18446744073709551616 ≤ n) →
    CountFault (.single text) .notCount
  | above {text : String} {n : Nat} : WritesCount (trim text.toList) n →
    n < 18446744073709551616 → largestCount < n → CountFault (.single text) (.above largestCount)

/-- What is wrong with a value as the size of a page. -/
inductive ParamValue.LimitFault (config : Config) (value : ParamValue) : ValueFault → Prop where
  | count {fault : ValueFault} : value.CountFault fault → LimitFault config value fault
  | zero : value.IsCount 0 → LimitFault config value .zero
  | above {n max : Nat} : value.IsCount n → 1 ≤ n → config.maxLimit = some max → max < n →
    LimitFault config value (.above max)

theorem readCount_eq_error_iff {param : String} {value : ParamValue} {e : Error} :
    readCount param value = .error e ↔
      ∃ fault, value.CountFault fault ∧ e = .invalidValue param fault := by
  cases value with
  | many texts =>
    constructor
    · rintro ⟨⟩
      exact ⟨_, .list, rfl⟩
    · rintro ⟨_, ⟨⟩, rfl⟩
      rfl
  | single text =>
    rw [readCount, bind_eq_error_iff, or_iff_right (by simp [singleText, ParamValue.single?])]
    simp only [singleText_eq_ok_iff, ParamValue.single.injEq, exists_eq_left']
    cases hcount : count? (trim text.toList) with
    | none =>
      have hlarge (n : Nat) (hn : WritesCount (trim text.toList) n) :
          18446744073709551616 ≤ n := by
        by_contra hlt
        rw [count?_eq_some_iff.2 ⟨hn, by omega⟩] at hcount
        cases hcount
      constructor
      · rintro ⟨⟩
        exact ⟨_, .notCount hlarge, rfl⟩
      · rintro ⟨_, hfault, rfl⟩
        cases hfault with
        | notCount _ => rfl
        | above hn hlt _ => exact absurd (hlarge _ hn) (by omega)
    | some n =>
      obtain ⟨hn, hlt⟩ := count?_eq_some_iff.1 hcount
      dsimp only
      split
      · next habove =>
        constructor
        · rintro ⟨⟩
          exact ⟨_, .above hn hlt habove, rfl⟩
        · rintro ⟨_, hfault, rfl⟩
          cases hfault with
          | notCount hlarge => exact absurd (hlarge n hn) (by omega)
          | above _ _ _ => rfl
      · next hle =>
        constructor
        · rintro ⟨⟩
        · rintro ⟨_, hfault, rfl⟩
          cases hfault with
          | notCount hlarge => exact absurd (hlarge n hn) (by omega)
          | @above _ n' hn' hlt' habove =>
            have heq : some n = some n' := hcount.symm.trans (count?_eq_some_iff.2 ⟨hn', hlt'⟩)
            obtain rfl : n = n' := Option.some.inj heq
            exact absurd habove hle

theorem readLimit_eq_error_iff {config : Config} {value : ParamValue} {e : Error} :
    readLimit config value = .error e ↔
      ∃ fault, value.LimitFault config fault ∧ e = .invalidValue "limit" fault := by
  rw [readLimit, bind_eq_error_iff, readCount_eq_error_iff]
  constructor
  · rintro (⟨fault, hfault, rfl⟩ | ⟨n, hn, h⟩)
    · exact ⟨fault, .count hfault, rfl⟩
    · rw [readCount_eq_ok_iff] at hn
      by_cases hzero : n < 1
      · obtain rfl : n = 0 := by omega
        cases h
        exact ⟨_, .zero hn, rfl⟩
      · rw [if_neg hzero] at h
        dsimp only at h
        split at h
        · next max hmax =>
          split at h
          · next habove =>
            cases h
            exact ⟨_, .above hn (by omega) hmax habove, rfl⟩
          · cases h
        · cases h
  · rintro ⟨_, hfault, rfl⟩
    cases hfault with
    | count hfault => exact .inl ⟨_, hfault, rfl⟩
    | zero hzero => exact .inr ⟨0, readCount_eq_ok_iff.2 hzero, rfl⟩
    | @above n max hn hone hmax hlt =>
      refine .inr ⟨n, readCount_eq_ok_iff.2 hn, ?_⟩
      rw [if_neg (by omega), hmax]
      dsimp only
      rw [if_pos hlt]
      rfl

/-! ## Orders -/

theorem Direction.parse?_isSome_iff {text : String} :
    (∃ d, parse? text = some d) ↔ asciiLower text = "asc" ∨ asciiLower text = "desc" := by
  unfold parse?
  dsimp only
  split
  · next h => simp [h]
  · next h =>
    split
    · next h' => simp [h']
    · next h' => simp [h, h']

/-- An order is a field that is not empty and a direction, with one point between them and none
elsewhere. -/
theorem Order.parse?_eq_some_iff {text : String} {o : Order} :
    parse? text = some o ↔
      ∃ direction, text = o.field ++ "." ++ direction ∧ o.field ≠ "" ∧ '.' ∉ o.field.toList ∧
        '.' ∉ direction.toList ∧ Direction.parse? direction = some o.direction := by
  unfold parse?
  constructor
  · intro h
    split at h
    · next field direction hsplit =>
      obtain ⟨htext, hfield⟩ := splitFirst_eq_some_iff.1 hsplit
      split at h
      · cases h
      · next hvalid =>
        simp only [Bool.or_eq_true, not_or, List.isEmpty_iff, List.contains_iff_mem] at hvalid
        obtain ⟨d, hd, rfl⟩ := Option.map_eq_some_iff.1 h
        refine ⟨String.ofList direction, ?_, ?_, ?_, ?_, hd⟩
        · rw [← String.toList_inj]
          simpa using htext
        · intro hempty
          exact hvalid.1 (by simpa using congrArg String.toList hempty)
        · simpa using hfield
        · simpa using hvalid.2
    · cases h
  · rintro ⟨direction, rfl, hne, hfield, hdirection, hd⟩
    have hsplit : splitFirst '.' (o.field ++ "." ++ direction).toList =
        some (o.field.toList, direction.toList) := by
      rw [splitFirst_eq_some_iff]
      exact ⟨by simp, hfield⟩
    rw [hsplit]
    simp [hne, hdirection, hd]

/-- A value is an order by one of some columns: one text, a field that is not empty and a direction
in any ASCII case with one point between them and none elsewhere, where the canonical name of the
field is that of a column. -/
def ParamValue.IsOrder (value : ParamValue) (columns : List String) : Prop :=
  ∃ field direction, value = .single (field ++ "." ++ direction) ∧ field ≠ "" ∧
    '.' ∉ field.toList ∧ '.' ∉ direction.toList ∧
    (asciiLower direction = "asc" ∨ asciiLower direction = "desc") ∧ canonical field ∈ columns

theorem applicableOrder?_eq_some_iff {columns : List String} {value : ParamValue} {o : Order} :
    applicableOrder? columns value = some o ↔
      ∃ text sent, value = .single text ∧ Order.parse? text = some sent ∧
        o = { sent with field := canonical sent.field } ∧ o.field ∈ columns := by
  cases value with
  | many texts => simp [applicableOrder?, ParamValue.single?]
  | single text =>
    simp only [applicableOrder?, ParamValue.single?, Option.bind_eq_bind, Option.bind_some,
      Option.bind_eq_some_iff, ParamValue.single.injEq, exists_and_left, exists_eq_left']
    refine exists_congr fun sent => and_congr_right fun _ => ?_
    split
    · next h =>
      rw [List.contains_iff_mem] at h
      constructor
      · intro heq
        obtain rfl := Option.some.inj heq
        exact ⟨rfl, h⟩
      · rintro ⟨rfl, _⟩
        rfl
    · next h =>
      rw [List.contains_iff_mem] at h
      constructor
      · rintro ⟨⟩
      · rintro ⟨rfl, hmem⟩
        exact absurd hmem h

theorem exists_applicableOrder?_iff {columns : List String} {value : ParamValue} :
    (∃ o, applicableOrder? columns value = some o) ↔ value.IsOrder columns := by
  simp only [applicableOrder?_eq_some_iff]
  constructor
  · rintro ⟨_, text, sent, rfl, hsent, rfl, hmem⟩
    obtain ⟨direction, rfl, hne, hfield, hdirection, hd⟩ := Order.parse?_eq_some_iff.1 hsent
    exact ⟨sent.field, direction, rfl, hne, hfield, hdirection,
      Direction.parse?_isSome_iff.1 ⟨_, hd⟩, hmem⟩
  · rintro ⟨field, direction, rfl, hne, hfield, hdirection, hcase, hmem⟩
    obtain ⟨d, hd⟩ := Direction.parse?_isSome_iff.2 hcase
    exact ⟨_, _, ⟨field, d⟩, rfl,
      Order.parse?_eq_some_iff.2 ⟨direction, rfl, hne, hfield, hdirection, hd⟩, rfl, hmem⟩

/-! ## Rules -/

/-- A text satisfies a rule: it is not blank if a value is required, and, white space around it
aside, it is a whole number of 64 bits or a finite number if the rule asks for one. -/
structure ValueRule.Admits (rule : ValueRule) (text : String) : Prop where
  required : rule.required = true → trim text.toList ≠ []
  integer : rule.kind = .integer → ∃ n, WritesInteger (trim text.toList) n ∧
    IntegerType.int64.least ≤ n ∧ n ≤ IntegerType.int64.greatest
  numeric : rule.kind = .numeric →
    ∃ x, Binary64.read? .double (trim text.toList) = some x ∧ x.isFinite = true

theorem ValueRule.isInteger_iff {text : String} :
    isInteger text = true ↔ ∃ n, WritesInteger (trim text.toList) n ∧
      IntegerType.int64.least ≤ n ∧ n ≤ IntegerType.int64.greatest := by
  rw [isInteger, Option.isSome_iff_exists]
  simp only [integer?_eq_some_iff]

theorem ValueRule.isNumeric_iff {text : String} :
    isNumeric text = true ↔
      ∃ x, Binary64.read? .double (trim text.toList) = some x ∧ x.isFinite = true := by
  rw [isNumeric, Option.any_eq_true]

theorem ValueRule.fault?_eq_none_iff {rule : ValueRule} {text : String} :
    rule.fault? text = none ↔ rule.Admits text := by
  have hadmits : rule.Admits text ↔
      (rule.required = true → trim text.toList ≠ []) ∧
        (rule.kind = .integer → isInteger text = true) ∧
        (rule.kind = .numeric → isNumeric text = true) := by
    rw [isInteger_iff, isNumeric_iff]
    exact ⟨fun h => ⟨h.required, h.integer, h.numeric⟩, fun h => ⟨h.1, h.2.1, h.2.2⟩⟩
  rw [hadmits, fault?]
  by_cases hblank : (rule.required && (trim text.toList).isEmpty) = true
  · rw [if_pos hblank]
    rw [Bool.and_eq_true, List.isEmpty_iff] at hblank
    simp [hblank]
  · rw [if_neg hblank]
    have hrequired : rule.required = true → trim text.toList ≠ [] := by
      intro h hnil
      exact hblank (by simp [h, hnil])
    cases rule.kind with
    | string => simpa using hrequired
    | integer => simpa using fun _ => hrequired
    | numeric => simpa using fun _ => hrequired

end ParamQuery
