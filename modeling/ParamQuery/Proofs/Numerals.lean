import ParamQuery.Proofs.WholeNumber

/-!
# Numbers as digits

Digits one after the other, and numbers with zeros in front.

## Main definitions

* `Text.AllDigits` — all characters of a text are decimal digits.

## Main statements

* `Text.digitsValue_append`, `Text.digitsValue_zeros` — the number of digits one after the other.
* `Text.digits_padded`, `Text.padded_inj` — zeros in front do not change a number.
* `Text.toString_inj` — different whole numbers have different texts.
-/

namespace ParamQuery.Text

/-- A property of each character of a text, decided one by one. -/
theorem forall_mem_of_all {p : Char → Prop} [DecidablePred p] {text : List Char}
    (h : (text.all fun c => decide (p c)) = true) : ∀ c ∈ text, p c := by
  simpa using h

theorem digitsValue_append (start : Nat) (digits digits' : List Char) :
    digitsValue start (digits ++ digits') = digitsValue (digitsValue start digits) digits' :=
  List.foldl_append

theorem digitsValue_zeros (start count : Nat) :
    digitsValue start (List.replicate count '0') = start * Nat.pow 10 count := by
  induction count generalizing start with
  | zero =>
    rw [List.replicate_zero, digitsValue, List.foldl_nil]
    exact (Nat.mul_one start).symm
  | succ count ih =>
    rw [List.replicate_succ, digitsValue, List.foldl_cons, ← digitsValue, ih]
    change (10 * start + 0) * Nat.pow 10 count = start * (Nat.pow 10 count * 10)
    rw [Nat.add_zero, Nat.mul_comm 10, Nat.mul_assoc, Nat.mul_comm 10]

/-- All characters are decimal digits. -/
def AllDigits (text : List Char) : Prop := ∀ c ∈ text, c.isDigit = true

theorem AllDigits.append {text text' : List Char} (h : AllDigits text) (h' : AllDigits text') :
    AllDigits (text ++ text') := fun c hc => (List.mem_append.1 hc).elim (h c) (h' c)

theorem AllDigits.take {text : List Char} (h : AllDigits text) (count : Nat) :
    AllDigits (text.take count) := fun c hc => h c (List.mem_of_mem_take hc)

theorem AllDigits.drop {text : List Char} (h : AllDigits text) (count : Nat) :
    AllDigits (text.drop count) := fun c hc => h c (List.mem_of_mem_drop hc)

theorem allDigits_zeros (count : Nat) : AllDigits (List.replicate count '0') := by
  intro c hc
  rw [List.eq_of_mem_replicate hc]
  rfl

/-- Zeros in front do not change a number. -/
theorem Digits.zeros_append {digits : List Char} {n : Nat} (h : Digits digits n) (count : Nat) :
    Digits (List.replicate count '0' ++ digits) n where
  ne_nil := by simp [h.ne_nil]
  isDigit := (allDigits_zeros count).append h.isDigit
  value := by rw [digitsValue_append, digitsValue_zeros, Nat.zero_mul, h.value]

theorem digits_toString (n : Nat) : Digits (toString n).toList n := by
  have hrepr : (toString n).toList = Nat.toDigits 10 n := Nat.toList_repr
  exact hrepr ▸ digits_toDigits n

theorem digits_padded (width n : Nat) : Digits (padded width n) n :=
  (digits_toString n).zeros_append _

theorem padded_inj {width m n : Nat} (h : padded width m = padded width n) : m = n := by
  rw [← (digits_padded width m).value, h, (digits_padded width n).value]

theorem length_padded {width n : Nat} (hwidth : 0 < width) (hn : n < Nat.pow 10 width) :
    (padded width n).length = width := by
  have hlength : (toString n).length ≤ width := (Nat.length_repr_le_iff hwidth).2 hn
  rw [padded, List.length_append, List.length_replicate, String.length_toList]
  omega

/-- A character that is no digit stands in no number. -/
theorem notMem_padded {c : Char} (hc : c.isDigit = false) (width n : Nat) : c ∉ padded width n := by
  intro hmem
  rw [(digits_padded width n).isDigit c hmem] at hc
  cases hc

/-- Different whole numbers have different texts. -/
theorem toString_inj {m n : Int} (h : toString m = toString n) : m = n := by
  obtain ⟨negative, hread, hm⟩ := Decimal.read?_of_writesInteger (writesInteger_toString m)
  obtain ⟨negative', hread', hn⟩ := Decimal.read?_of_writesInteger (writesInteger_toString n)
  rw [h, hread', Option.some.injEq, Decimal.mk.injEq] at hread
  rw [← hm, ← hn, hread.1, hread.2.1]

end ParamQuery.Text
