import ParamQuery.Proofs.JsonText
import ParamQuery.Proofs.Value.Nulls
import Mathlib.Data.List.Forall2

/-!
# Values of one form

Which values of one kind have the same JSON form. Truth values, whole numbers, texts, bytes and
intervals of a length that fits have forms of their own. Other forms stand for several values: those
of numbers with the same nearest binary number, of time stamps in the same microsecond, and of all
that has none of its own.

## Main definitions

* `Text.readBase64` — the bytes of a text in base64.
* `Datum.Alike` — two values have the same form, said of the values.

## Main statements

* `Datum.toJson_eq_iff` — two values have the same JSON form exactly if they are alike.
* `Datum.proper_toJson` — a JSON form can be told from its text.
-/

namespace ParamQuery

open Text

namespace Text

/-- The place of a character in the standard alphabet. -/
def base64Value (c : Char) : Nat := ((List.range 64).findIdx? fun n => base64Digit n = c).getD 0

theorem base64Value_digit : ∀ n < 64, base64Value (base64Digit n) = n ∧ base64Digit n ≠ '=' := by
  decide +kernel

/-- Reads the bytes of a text in base64. -/
def readBase64 : List Char → List UInt8
  | a :: b :: c :: d :: rest =>
    let n := ((base64Value a * 64 + base64Value b) * 64 + base64Value c) * 64 + base64Value d
    if c = '=' then [UInt8.ofNat (n / 65536)]
    else if d = '=' then [UInt8.ofNat (n / 65536), UInt8.ofNat (n / 256)]
    else UInt8.ofNat (n / 65536) :: UInt8.ofNat (n / 256) :: UInt8.ofNat n :: readBase64 rest
  | _ => []

/-- Bytes are read back from their text. -/
theorem readBase64_base64 (bytes : List UInt8) : readBase64 (base64 bytes) = bytes := by
  have hvalue {n : Nat} (hn : n < 64) := (base64Value_digit n hn).1
  have hdigit {n : Nat} (hn : n < 64) := (base64Value_digit n hn).2
  have hpad : base64Value '=' = 0 := by decide +kernel
  have hbyte {n : Nat} {b : UInt8} (h : n % 256 = b.toNat) : UInt8.ofNat n = b :=
    UInt8.toNat_inj.1 (UInt8.toNat_ofNat'.trans h)
  induction bytes using base64.induct with
  | case1 => rfl
  | case2 a =>
    have ha := a.toNat_lt
    simp only [base64, readBase64, if_true]
    rw [hvalue (by omega), hvalue (by omega), hpad, hbyte]
    omega
  | case3 a b =>
    have ha := a.toNat_lt
    have hb := b.toNat_lt
    simp only [base64, readBase64, if_true]
    rw [if_neg (hdigit (by omega)), hvalue (by omega), hvalue (by omega), hvalue (by omega), hpad,
      hbyte (b := a) (by omega), hbyte (b := b) (by omega)]
  | case4 a b c rest ih =>
    have ha := a.toNat_lt
    have hb := b.toNat_lt
    have hc := c.toNat_lt
    simp only [base64, readBase64]
    rw [if_neg (hdigit (by omega)), if_neg (hdigit (by omega)), hvalue (by omega),
      hvalue (by omega), hvalue (by omega), hvalue (by omega), ih, hbyte (b := a) (by omega),
      hbyte (b := b) (by omega), hbyte (b := c) (by omega)]

theorem base64_inj {bytes bytes' : List UInt8} (h : base64 bytes = base64 bytes') :
    bytes = bytes' := by
  rw [← readBase64_base64 bytes, h, readBase64_base64]

end Text

namespace Datum

/-! ## Single values -/

/-- Forms that tell values apart, but for those of values that have none. -/
theorem form_eq_iff {α : Type} (form : α → Json)
    (hinj : ∀ a b, form a ≠ .null → form a = form b → a = b) {a b : α} :
    form a = form b ↔ a = b ∨ form a = .null ∧ form b = .null := by
  constructor
  · intro h
    by_cases hnull : form a = .null
    · exact .inr ⟨hnull, h ▸ hnull⟩
    · exact .inl (hinj a b hnull h)
  · rintro (rfl | ⟨ha, hb⟩)
    · rfl
    · rw [ha, hb]

theorem textForm_eq_iff {α : Type} {text? : α → Option (List Char)}
    (hinj : ∀ a b text, text? a = some text → text? b = some text → a = b) {a b : α} :
    Json.ofOption .text (text? a) = Json.ofOption .text (text? b) ↔
      a = b ∨ text? a = none ∧ text? b = none := by
  rw [← Json.ofOption_text_eq_null_iff, ← Json.ofOption_text_eq_null_iff]
  refine form_eq_iff (fun a => Json.ofOption .text (text? a)) fun a b hnull h => ?_
  cases ha : text? a with
  | none => exact absurd (Json.ofOption_text_eq_null_iff.2 ha) hnull
  | some text =>
    cases hb : text? b with
    | none => simp [ha, hb, Json.ofOption, Json.text] at h
    | some text' =>
      simp only [ha, hb, Json.ofOption, text_inj] at h
      exact hinj a b text ha (h ▸ hb)

theorem ofBinary64_eq_iff {x y : Binary64} :
    Json.ofBinary64 x = Json.ofBinary64 y ↔ x = y ∨ x.isFinite = false ∧ y.isFinite = false := by
  rw [← Json.ofBinary64_eq_null_iff, ← Json.ofBinary64_eq_null_iff]
  refine form_eq_iff Json.ofBinary64 fun x y hnull h => ?_
  unfold Json.ofBinary64 at hnull h
  split at h
  · split at h
    · exact Json.float.inj h
    · cases h
  · next hx => exact absurd (if_neg hx) hnull

theorem dayJson_eq_iff {days days' : Int} :
    Json.ofOption .text (isoDay? days) = Json.ofOption .text (isoDay? days') ↔ days = days' ∨
      ¬ (Date.firstDay ≤ days ∧ days ≤ Date.finalDay) ∧
        ¬ (Date.firstDay ≤ days' ∧ days' ≤ Date.finalDay) := by
  rw [textForm_eq_iff fun _ _ _ h h' => eq_of_isoDay?_eq h h', isoDay?_eq_none_iff,
    isoDay?_eq_none_iff]

theorem timestampJson_eq_iff {unit unit' : TimeUnit} {count count' : Int64} :
    timestampJson unit count = timestampJson unit' count' ↔
      unit.toMicros count = unit'.toMicros count' ∨
      ¬ (firstInstant ≤ (unit.toMicros count).toInt ∧ (unit.toMicros count).toInt ≤ finalInstant) ∧
        ¬ (firstInstant ≤ (unit'.toMicros count').toInt ∧
          (unit'.toMicros count').toInt ≤ finalInstant) := by
  rw [timestampJson, timestampJson, textForm_eq_iff fun _ _ _ h h' =>
    (isoInstant?_eq_some_iff.1 h).2.unique (isoInstant?_eq_some_iff.1 h').2,
    isoInstant?_eq_none_iff, isoInstant?_eq_none_iff, Int64.toInt_inj]

theorem timeJson_eq_iff {micros micros' : Int} :
    timeJson micros = timeJson micros' ↔ micros = micros' ∨
      ¬ (0 ≤ micros ∧ micros < microsPerDay) ∧ ¬ (0 ≤ micros' ∧ micros' < microsPerDay) := by
  rw [← timeJson_eq_null_iff, ← timeJson_eq_null_iff]
  refine form_eq_iff timeJson fun micros micros' hnull h => ?_
  unfold timeJson at hnull h
  split at h
  · next hmicros =>
    split at h
    · next hmicros' =>
      have hclock := isoClock_inj (by omega) (by omega) (text_inj.1 h)
      omega
    · cases h
  · next hmicros => exact absurd (if_neg hmicros) hnull

theorem hugeJson_eq_iff {m n : Int} : hugeJson m = hugeJson n ↔ m = n := by
  refine ⟨fun h => ?_, fun h => h ▸ rfl⟩
  unfold hugeJson at h
  split at h
  · split at h
    · exact Json.int.inj h
    · cases h
  · split at h
    · cases h
    · exact Text.toString_inj (Json.string.inj h)

theorem space_notMem_toString (n : Int) : ' ' ∉ (toString n).toList := fun h =>
  absurd (Json.isDigit_or_of_mem_toString h) (by decide)

theorem intervalJson_eq_iff {months months' days days' : Int} {micros micros' : Int64} :
    intervalJson months days micros = intervalJson months' days' micros' ↔
      months = months' ∧ days = days' ∧ micros * 1000 = micros' * 1000 := by
  constructor
  · intro h
    have hmonths : " months ".toList = ' ' :: "months ".toList := rfl
    have hdays : " days ".toList = ' ' :: "days ".toList := rfl
    have htext := congrArg String.toList (Json.string.inj h)
    simp only [String.toList_append, List.append_assoc, hmonths, hdays, List.cons_append] at htext
    -- Each number ends at the space behind it.
    obtain ⟨hfirst, hrest⟩ := (append_cons_inj (space_notMem_toString _)
      (space_notMem_toString _)).1 htext
    obtain ⟨hsecond, hrest⟩ := (append_cons_inj (space_notMem_toString _)
      (space_notMem_toString _)).1 (List.append_cancel_left hrest)
    have hthird := List.append_cancel_right (List.append_cancel_left hrest)
    exact ⟨Text.toString_inj (String.toList_inj.1 hfirst),
      Text.toString_inj (String.toList_inj.1 hsecond),
      Int64.toInt_inj.1 (Text.toString_inj (String.toList_inj.1 hthird))⟩
  · rintro ⟨rfl, rfl, hmicros⟩
    rw [intervalJson, hmicros]
    rfl

theorem uhugeJson_eq_iff {m n : Nat} :
    "UHugeInt(" ++ toString m ++ ")" = "UHugeInt(" ++ toString n ++ ")" ↔ m = n := by
  refine ⟨fun h => ?_, fun h => h ▸ rfl⟩
  have htext := congrArg String.toList h
  simp only [String.toList_append, List.append_assoc, List.append_cancel_left_eq,
    List.append_cancel_right_eq] at htext
  rw [← (Text.digits_toString m).value, htext, (Text.digits_toString n).value]

/-! ## Parts -/

/-- Named values with the same form: the same names come first in the same order, and the last
values of each name have the same form. -/
def SameNamed (fields fields' : List (String × Datum)) : Prop :=
  (fields.map Prod.fst).eraseDups = (fields'.map Prod.fst).eraseDups ∧
    ∀ name, (Assoc.get? name fields.reverse).map toJson =
      (Assoc.get? name fields'.reverse).map toJson

theorem get?_collect_fieldsToJson (fields : List (String × Datum)) (name : String) :
    Assoc.get? name (Assoc.collect (fieldsToJson fields)) =
      (Assoc.get? name fields.reverse).map toJson := by
  rw [Assoc.get?_collect_eq, fieldsToJson_eq_map, ← List.map_reverse, Assoc.get?_map]

theorem ofMembers_eq_iff {fields fields' : List (String × Datum)} :
    Json.ofMembers (fieldsToJson fields) = Json.ofMembers (fieldsToJson fields') ↔
      SameNamed fields fields' := by
  have hkeys (fields : List (String × Datum)) :
      Assoc.keys (Assoc.collect (fieldsToJson fields)) = (fields.map Prod.fst).eraseDups := by
    rw [Assoc.keys_collect, Record.keys_fieldsToJson]
  unfold SameNamed Json.ofMembers
  rw [Json.object.injEq]
  constructor
  · intro h
    refine ⟨by rw [← hkeys, h, hkeys], fun name => ?_⟩
    rw [← get?_collect_fieldsToJson, h, get?_collect_fieldsToJson]
  · rintro ⟨hnames, hvalues⟩
    refine Assoc.ext_of_nodup (Assoc.nodup_keys_collect _) ?_ fun name => ?_
    · rw [hkeys, hkeys, hnames]
    · rw [get?_collect_fieldsToJson, get?_collect_fieldsToJson, hvalues]

theorem array_eq_iff {items items' : List Datum} :
    Json.array (itemsToJson items) = Json.array (itemsToJson items') ↔
      List.Forall₂ (fun item item' => item.toJson = item'.toJson) items items' := by
  rw [Json.array.injEq, itemsToJson_eq_map, itemsToJson_eq_map, ← List.forall₂_eq_eq_eq,
    List.forall₂_map_left_iff, List.forall₂_map_right_iff]

/-! ## All values -/

/-- Two values have the same JSON form, said of the values where they are of one kind. -/
def Alike : Datum → Datum → Prop
  | .boolean b, .boolean b' => b = b'
  | .integer n, .integer n' => n = n'
  | .hugeint n, .hugeint n' => n = n'
  | .uhugeint n, .uhugeint n' => n = n'
  | .float x, .float y => x = y ∨ (float x).Unwritable ∧ (float y).Unwritable
  | .decimal n s h, .decimal n' s' h' =>
    nearest n s = nearest n' s' ∨ (decimal n s h).Unwritable ∧ (decimal n' s' h').Unwritable
  | .text s, .text s' => s = s'
  | .blob bytes, .blob bytes' => bytes = bytes'
  | .date days, .date days' => days = days' ∨ (date days).Unwritable ∧ (date days').Unwritable
  | .timestamp unit count, .timestamp unit' count' =>
    unit.toMicros count = unit'.toMicros count' ∨
      (timestamp unit count).Unwritable ∧ (timestamp unit' count').Unwritable
  | .time micros, .time micros' =>
    micros = micros' ∨ (time micros).Unwritable ∧ (time micros').Unwritable
  | .interval months days micros, .interval months' days' micros' =>
    months = months' ∧ days = days' ∧ micros * 1000 = micros' * 1000
  | .label name, .label name' => name = name'
  | .list items, .list items' =>
    List.Forall₂ (fun item item' => item.toJson = item'.toJson) items items'
  | .array items, .array items' =>
    List.Forall₂ (fun item item' => item.toJson = item'.toJson) items items'
  | .struct fields, .struct fields' => SameNamed fields fields'
  | .map entries, .map entries' => SameNamed (namedEntries entries) (namedEntries entries')
  | d, d' => d.toJson = d'.toJson

/-- Two values have the same JSON form exactly if they are alike. -/
theorem toJson_eq_iff (d d' : Datum) : d.toJson = d'.toJson ↔ d.Alike d' := by
  fun_cases Alike d d' with
  | case1 b b' => rw [toJson, toJson, Json.bool.injEq]
  | case2 n n' => rw [toJson, toJson, Json.int.injEq]
  | case3 n n' => exact hugeJson_eq_iff
  | case4 n n' => rw [toJson, toJson, Json.string.injEq, uhugeJson_eq_iff]
  | case5 x y => exact ofBinary64_eq_iff
  | case6 n s h n' s' h' => exact ofBinary64_eq_iff
  | case7 s s' => rw [toJson, toJson, Json.string.injEq]
  | case8 bytes bytes' =>
    rw [toJson, toJson, text_inj]
    exact ⟨Text.base64_inj, congrArg _⟩
  | case9 days days' => exact dayJson_eq_iff
  | case10 unit count unit' count' => exact timestampJson_eq_iff
  | case11 micros micros' => exact timeJson_eq_iff
  | case12 months days micros months' days' micros' => exact intervalJson_eq_iff
  | case13 name name' => rw [toJson, toJson, Json.string.injEq]
  | case14 items items' => exact array_eq_iff
  | case15 items items' => exact array_eq_iff
  | case16 fields fields' => exact ofMembers_eq_iff
  | case17 entries entries' =>
    rw [toJson, toJson, entriesToJson_eq, entriesToJson_eq, ofMembers_eq_iff]
  | case18 d d' => exact Iff.rfl

/-! ## Texts of forms -/

theorem proper_ofBinary64 (x : Binary64) : (Json.ofBinary64 x).Proper := by
  unfold Json.ofBinary64
  split
  · next hx => exact hx
  · trivial

theorem proper_ofOption_text (text? : Option (List Char)) :
    (Json.ofOption Json.text text?).Proper := by
  cases text? <;> trivial

theorem properMembers_iff {members : List (String × Json)} :
    Json.ProperMembers members ↔ ∀ entry ∈ members, entry.2.Proper := by
  induction members with
  | nil => exact ⟨fun _ _ h => (List.not_mem_nil h).elim, fun _ => trivial⟩
  | cons entry rest ih => rw [Json.ProperMembers, ih, List.forall_mem_cons]

theorem proper_ofMembers {members : List (String × Json)} (h : Json.ProperMembers members) :
    (Json.ofMembers members).Proper := by
  rw [properMembers_iff] at h
  exact properMembers_iff.2 fun entry hentry => h entry (OrderedMap.mem_of_mem_ofList hentry)

mutual
/-- The numbers in a JSON form are finite. -/
theorem proper_toJson : ∀ d : Datum, d.toJson.Proper
  | .null | .boolean _ | .integer _ | .uhugeint _ | .text _ | .blob _ | .interval .. | .label _ =>
    trivial
  | .hugeint n => by
    rw [toJson, hugeJson]
    split <;> trivial
  | .float x => proper_ofBinary64 x
  | .decimal unscaled scale _ => proper_ofBinary64 (nearest unscaled scale)
  | .date days => proper_ofOption_text (isoDay? days)
  | .timestamp unit count => proper_ofOption_text (isoInstant? (unit.toMicros count).toInt)
  | .time micros => by
    rw [toJson, timeJson]
    split <;> trivial
  | .list items | .array items => proper_itemsToJson items
  | .struct fields => proper_ofMembers (proper_fieldsToJson fields)
  | .map entries => proper_ofMembers (proper_entriesToJson entries)
  | .union member => proper_toJson member

theorem proper_itemsToJson : ∀ items : List Datum, Json.ProperItems (itemsToJson items)
  | [] => trivial
  | item :: rest => ⟨proper_toJson item, proper_itemsToJson rest⟩

theorem proper_fieldsToJson : ∀ fields : List (String × Datum),
    Json.ProperMembers (fieldsToJson fields)
  | [] => trivial
  | (_, value) :: rest => ⟨proper_toJson value, proper_fieldsToJson rest⟩

theorem proper_entriesToJson : ∀ entries : List (Datum × Datum),
    Json.ProperMembers (entriesToJson entries)
  | [] => trivial
  | (_, value) :: rest => ⟨proper_toJson value, proper_entriesToJson rest⟩
end

end Datum

end ParamQuery
