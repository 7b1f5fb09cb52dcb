import ParamQuery.Config.File
import ParamQuery.Proofs.Pieces
import ParamQuery.Proofs.Toml.Strings
import ParamQuery.Proofs.WholeNumber

/-!
# Documents read back

A document of lines that each define a key is read line by line, and every key gets the value that
its text stands for.

## Main definitions

* `Toml.ReadsAs` — what a text stands for as a value at the end of a line.
* `Toml.Setting` — a line that defines a key.

## Main statements

* `Toml.readsAs_natural`, `Toml.readsAs_string` — written whole numbers and texts.
* `Toml.readLines?_lines` — the lines of a document.
* `Toml.read?_lines` — the entries of a document.
-/

namespace ParamQuery

open Text

/-! ## Pieces -/

theorem takeWhile_append_cons {α : Type} {p : α → Bool} {xs : List α} {x : α}
    (hxs : ∀ y ∈ xs, p y = true) (hx : p x = false) (rest : List α) :
    (xs ++ x :: rest).takeWhile p = xs := by
  rw [List.takeWhile_append_of_pos hxs, List.takeWhile_cons_of_neg (by simp [hx]), List.append_nil]

theorem dropWhile_append_cons {α : Type} {p : α → Bool} {xs : List α} {x : α}
    (hxs : ∀ y ∈ xs, p y = true) (hx : p x = false) (rest : List α) :
    (xs ++ x :: rest).dropWhile p = x :: rest := by
  rw [List.dropWhile_append_of_pos hxs, List.dropWhile_cons_of_neg (by simp [hx])]

namespace Toml

theorem isSpace_eq_false {c : Char} (hspace : c ≠ ' ') (htab : c ≠ '\t') : isSpace c = false := by
  simp [isSpace, hspace, htab]

theorem skipSpace_cons {c : Char} (h : isSpace c = false) (rest : List Char) :
    skipSpace (c :: rest) = c :: rest :=
  List.dropWhile_cons_of_neg (by simp [h])

/-- What a text stands for as a value at the end of a line. -/
structure ReadsAs (value : List Char) (node : Node) : Prop where
  start : ∃ c tail, value = c :: tail ∧ isSpace c = false
  reads : ∀ rest, readValue? depthLimit (value ++ '\n' :: rest) = some (node, '\n' :: rest)

/-! ## Whole numbers -/

theorem digitChar_ne_zero {n : Nat} (hn : 0 < n) (hlt : n < 10) : Nat.digitChar n ≠ '0' := by
  have hall : ∀ n < 10, 0 < n → Nat.digitChar n ≠ '0' := by decide
  exact hall n hlt hn

theorem exists_cons_toDigits {n : Nat} (hn : 0 < n) :
    ∃ c rest, Nat.toDigits 10 n = c :: rest ∧ c ≠ '0' := by
  induction n using Nat.strongRecOn with
  | ind n ih =>
    rw [Nat.toDigits_eq_if (by decide)]
    split
    · next hlt => exact ⟨_, [], rfl, digitChar_ne_zero hn hlt⟩
    · obtain ⟨c, rest, hdigits, hc⟩ := ih (n / 10) (by omega) (by omega)
      exact ⟨c, rest ++ [Nat.digitChar (n % 10)], by rw [hdigits]; rfl, hc⟩

/-- A number is written without a needless zero in front. -/
theorem isTight_toDigits (n : Nat) : isTight (Nat.toDigits 10 n) = true := by
  by_cases hn : n = 0
  · subst hn
    rfl
  · obtain ⟨c, rest, hdigits, hc⟩ := exists_cons_toDigits (Nat.pos_of_ne_zero hn)
    rw [hdigits, isTight]
    intro _ _ heq
    exact absurd (List.cons.inj heq).1 hc

theorem digitValue_lt {c : Char} (h : c.isDigit = true) : digitValue c < 10 := by
  simp only [Char.isDigit, Bool.and_eq_true, decide_eq_true_eq] at h
  have hle : c.toNat ≤ 57 := h.2
  have hzero : '0'.toNat = 48 := rfl
  rw [digitValue]
  omega

/-- Decimal digits stand for their number. -/
theorem digitsOf?_of_isDigit {digits : List Char} (h : ∀ c ∈ digits, c.isDigit = true) :
    digitsOf? 10 digits = some (digitsValue 0 digits) := by
  have hstart (start : Nat) : (digits.foldlM (fun n c => do
      let d ← hexValue? c
      if d < 10 then some (10 * n + d) else none) start) = some (digitsValue start digits) := by
    induction digits generalizing start with
    | nil => rfl
    | cons c rest ih =>
      obtain ⟨hc, hrest⟩ := List.forall_mem_cons.1 h
      have hvalue : hexValue? c = some (digitValue c) := by
        rw [hexValue?, if_pos hc]
        rfl
      rw [List.foldlM_cons, hvalue]
      simp only [Option.bind_eq_bind, Option.bind_some, if_pos (digitValue_lt hc)]
      exact ih hrest _
  exact hstart 0

section

variable {digits : List Char} {n : Nat}

theorem notMem_of_digits (h : Digits digits n) {c : Char} (hc : c.isDigit = false) :
    c ∉ digits := by
  intro hmem
  rw [h.isDigit c hmem] at hc
  cases hc

theorem isDateTime_of_digits (h : Digits digits n) : isDateTime digits = false := by
  have hdate (text : List Char) (htext : '-' ∉ text) : isDate text = false := by
    rw [isDate, splitOn_of_notMem htext]
  have htime : isTime digits = false := by
    have hpoint : splitFirst '.' digits = none :=
      splitFirst_eq_none_iff.2 (notMem_of_digits h (by decide))
    rw [isTime, hpoint]
    simp only [Option.getD_none]
    rw [splitOn_of_notMem (notMem_of_digits h (by decide))]
  have hminus : '-' ∉ digits := notMem_of_digits h (by decide)
  have hshort : '-' ∉ digits.take 10 := fun hmem => hminus (List.mem_of_mem_take hmem)
  rw [isDateTime, hdate digits hminus, htime, hdate _ hshort]
  rfl

theorem integerOf?_of_digits (h : Digits digits n) (htight : isTight digits = true)
    (hn : IntegerType.int64.holds n = true) : integerOf? digits = some n := by
  have hgrouped : grouped? 10 digits = some n := by
    rw [grouped?, splitOn_of_notMem (notMem_of_digits h (by decide))]
    simp [h.ne_nil, digitsOf?_of_isDigit h.isDigit, h.value]
  have hsign : splitSign digits = (false, digits) := by
    unfold splitSign
    split
    · exact absurd rfl h.head_ne.2
    · exact absurd rfl h.head_ne.1
    · rfl
  have hletter {c : Char} {rest : List Char} (hc : c.isDigit = false) :
      digits ≠ '0' :: c :: rest := by
    rintro rfl
    exact notMem_of_digits h hc (List.mem_cons_of_mem _ List.mem_cons_self)
  unfold integerOf?
  split
  · exact absurd rfl (hletter (by decide))
  · exact absurd rfl (hletter (by decide))
  · exact absurd rfl (hletter (by decide))
  · rw [hsign]
    simp [htight, hgrouped, hn]

/-- Digits at the end of a line are one word. -/
theorem splitWord_of_digits (h : Digits digits n) (rest : List Char) :
    splitWord (digits ++ '\n' :: rest) = (digits, '\n' :: rest) := by
  have hword : ∀ c ∈ digits, isWordChar c = true := by
    intro c hc
    have hdigit := h.isDigit c hc
    simp [isWordChar, Char.isAlphanum, hdigit]
  unfold splitWord
  rw [takeWhile_append_cons hword rfl, dropWhile_append_cons hword rfl]
  rfl

theorem readScalar?_of_digits (h : Digits digits n) (htight : isTight digits = true)
    (hn : IntegerType.int64.holds n = true) (rest : List Char) :
    readScalar? (digits ++ '\n' :: rest) = some (.integer n, '\n' :: rest) := by
  have hword {c : Char} {word : List Char} (hc : c.isDigit = false) : digits ≠ c :: word := by
    rintro rfl
    exact notMem_of_digits h hc List.mem_cons_self
  rw [readScalar?, splitWord_of_digits h]
  simp only
  rw [if_neg (hword (by decide)), if_neg (hword (by decide)), isDateTime_of_digits h,
    integerOf?_of_digits h htight hn]
  rfl

end

/-- A value that starts with a digit is not made of other values. -/
theorem readValue?_of_isDigit {c : Char} (hc : c.isDigit = true) (depth : Nat) (text : List Char) :
    readValue? depth (c :: text) = readScalar? (c :: text) := by
  have hne : c ≠ '"' ∧ c ≠ '\'' ∧ c ≠ '[' ∧ c ≠ '\x7b' := by
    refine ⟨?_, ?_, ?_, ?_⟩
    all_goals
      rintro rfl
      cases hc
  rw [readValue?]
  all_goals simp [hne]

/-- A whole number of 64 bits is read back. -/
theorem readsAs_natural {n : Nat} (hn : IntegerType.int64.holds n = true) :
    ReadsAs (toString n).toList (.integer n) := by
  have hdigits := digits_toDigits n
  have htext : (toString n).toList = Nat.toDigits 10 n := Nat.toList_repr
  rw [htext]
  obtain ⟨c, tail, hcons⟩ := List.exists_cons_of_ne_nil hdigits.ne_nil
  have hc : c.isDigit = true := hdigits.isDigit c (hcons ▸ List.mem_cons_self)
  constructor
  · refine ⟨c, tail, hcons, isSpace_eq_false ?_ ?_⟩
    all_goals
      rintro rfl
      cases hc
  · intro rest
    rw [← readScalar?_of_digits hdigits (isTight_toDigits n) hn rest, hcons]
    exact readValue?_of_isDigit hc depthLimit _

/-! ## Texts -/

theorem exists_cons_writeString (text : List Char) :
    ∃ c tail, writeString text = c :: tail ∧ (c = '"' ∨ c = '\'') := by
  unfold writeString
  dsimp only
  split
  · exact ⟨_, _, rfl, .inl rfl⟩
  split
  · exact ⟨_, _, rfl, .inr rfl⟩
  split
  · exact ⟨_, _, rfl, .inl rfl⟩
  split
  · exact ⟨_, _, rfl, .inr rfl⟩
  split
  · exact ⟨_, _, rfl, .inl rfl⟩
  · exact ⟨_, _, rfl, .inl rfl⟩

/-- A text is read back. -/
theorem readsAs_string (text : String) : ReadsAs (writeString text.toList) (.string text) := by
  obtain ⟨c, tail, hcons, hc⟩ := exists_cons_writeString text.toList
  constructor
  · refine ⟨c, tail, hcons, ?_⟩
    rcases hc with rfl | rfl <;> rfl
  · intro rest
    have hend : Unquoted ('\n' :: rest) := by
      rintro _ _ ⟨⟩
      decide
    have hread := readString?_writeString text.toList hend
    have hvalue : readValue? depthLimit (writeString text.toList ++ '\n' :: rest) =
        (readString? (writeString text.toList ++ '\n' :: rest)).map fun found =>
          (.string (String.ofList found.1), found.2) := by
      rw [hcons]
      rcases hc with rfl | rfl <;> rfl
    rw [hvalue, hread, Option.map_some, String.ofList_toList]

/-! ## Keys -/

/-- A key of letters, digits, underscores and hyphens is written without quotes. -/
def IsBare (key : String) : Prop := key.toList ≠ [] ∧ key.toList.all isBareKey = true

instance (key : String) : Decidable (IsBare key) :=
  inferInstanceAs (Decidable (_ ∧ _))

theorem IsBare.isBareKey_of_mem {key : String} (h : IsBare key) :
    ∀ c ∈ key.toList, isBareKey c = true := List.all_eq_true.1 h.2

theorem IsBare.exists_cons {key : String} (h : IsBare key) :
    ∃ c tail, key.toList = c :: tail ∧ isBareKey c = true := by
  obtain ⟨c, tail, hcons⟩ := List.exists_cons_of_ne_nil h.1
  exact ⟨c, tail, hcons, h.isBareKey_of_mem c (hcons ▸ List.mem_cons_self)⟩

theorem isSpace_of_isBareKey {c : Char} (h : isBareKey c = true) : isSpace c = false := by
  apply isSpace_eq_false
  all_goals
    rintro rfl
    cases h

theorem readKeyPart?_of_isBare {key : String} (h : IsBare key) (rest : List Char) :
    readKeyPart? (key.toList ++ ' ' :: rest) = some (key, ' ' :: rest) := by
  have hbare := h.isBareKey_of_mem
  have hspace : isBareKey ' ' = false := by decide
  obtain ⟨c, tail, hcons, hc⟩ := h.exists_cons
  rw [readKeyPart?]
  · simp only [takeWhile_append_cons hbare hspace, dropWhile_append_cons hbare hspace,
      String.ofList_toList]
    rw [if_neg (by simp [hcons])]
  all_goals
    intro _ heq
    rw [hcons] at heq
    cases heq
    cases hc

theorem readKey?_of_isBare {key : String} (h : IsBare key) (rest : List Char) :
    readKey? (key.toList ++ ' ' :: '=' :: rest) = some ([], key, '=' :: rest) := by
  have hspace : skipSpace (key.toList ++ ' ' :: '=' :: rest) =
      key.toList ++ ' ' :: '=' :: rest := by
    obtain ⟨c, tail, hcons, hc⟩ := h.exists_cons
    rw [hcons]
    exact skipSpace_cons (isSpace_of_isBareKey hc) _
  have hparts : readKeyParts? depthLimit (key.toList ++ ' ' :: '=' :: rest) =
      some ([key], '=' :: rest) := by
    rw [depthLimit, readKeyParts?, hspace, readKeyPart?_of_isBare h]
    rfl
  rw [readKey?, hparts]
  rfl

/-! ## Lines -/

/-- A line that defines a key: the key, the text of its value, and the value. -/
structure Setting where
  key : String
  text : List Char
  value : Node

namespace Setting

def line (setting : Setting) : List Char := Config.line setting.key setting.text

def pair (setting : Setting) : Pair := ⟨[], setting.key, setting.value⟩

/-- The line can be read. -/
structure Readable (setting : Setting) : Prop where
  key : IsBare setting.key
  value : ReadsAs setting.text setting.value

theorem line_append (setting : Setting) (rest : List Char) :
    setting.line ++ rest =
      setting.key.toList ++ ' ' :: '=' :: ' ' :: (setting.text ++ '\n' :: rest) := by
  simp [line, Config.line]

variable {setting : Setting}

theorem Readable.exists_cons (h : setting.Readable) (rest : List Char) :
    ∃ c tail, setting.line ++ rest = c :: tail ∧ isBareKey c = true := by
  obtain ⟨c, tail, hcons, hc⟩ := h.key.exists_cons
  rw [line_append, hcons]
  exact ⟨c, _, rfl, hc⟩

theorem Readable.readPair? (h : setting.Readable) (rest : List Char) :
    readPair? (readValue? depthLimit) (setting.line ++ rest) =
      some (setting.pair, '\n' :: rest) := by
  have hspace : skipSpace (' ' :: (setting.text ++ '\n' :: rest)) =
      setting.text ++ '\n' :: rest := by
    obtain ⟨c, tail, hcons, hc⟩ := h.value.start
    rw [hcons]
    exact skipSpace_cons hc _
  rw [line_append, Toml.readPair?, readKey?_of_isBare h.key]
  simp only [Option.bind_eq_bind, Option.bind_some]
  rw [hspace, h.value.reads]
  rfl

theorem Readable.readLine? (h : setting.Readable) (rest : List Char) :
    readLine? (setting.line ++ rest) = some (.pair setting.pair, '\n' :: rest) := by
  have hpair := h.readPair? rest
  obtain ⟨c, tail, hcons, hc⟩ := h.exists_cons rest
  rw [hcons] at hpair ⊢
  unfold Toml.readLine?
  split
  · next heq =>
    cases heq
    cases hc
  · rw [hpair]
    rfl

end Setting

theorem skipBlank_of_isBareKey {c : Char} (h : isBareKey c = true) (fuel : Nat) (rest : List Char) :
    skipBlank fuel (c :: rest) = c :: rest := by
  cases fuel with
  | zero => rfl
  | succ fuel =>
    have hcomment : skipComment (c :: rest) = c :: rest := by
      rw [skipComment]
      rintro _ ⟨⟩
      cases h
    have hnewline : newline? (c :: rest) = none := by
      rw [newline?]
      · rintro _ ⟨⟩
        cases h
      · rintro _ ⟨⟩
        cases h
    rw [skipBlank, skipSpace_cons (isSpace_of_isBareKey h)]
    simp only [hcomment, hnewline]

/-- The lines of a document are read one after the other. -/
theorem readLines?_lines {settings : List Setting} (h : ∀ setting ∈ settings, setting.Readable)
    {fuel : Nat} (hfuel : settings.length < fuel) :
    readLines? fuel (settings.flatMap Setting.line) =
      some (settings.map fun setting => .pair setting.pair) := by
  induction settings generalizing fuel with
  | nil =>
    cases fuel with
    | zero => cases hfuel
    | succ fuel => rfl
  | cons setting rest ih =>
    obtain ⟨hsetting, hrest⟩ := List.forall_mem_cons.1 h
    cases fuel with
    | zero => cases hfuel
    | succ fuel =>
      have hline := hsetting.readLine? (rest.flatMap Setting.line)
      have hnext := ih hrest (Nat.lt_of_succ_lt_succ hfuel)
      have hend (text : List Char) : skipComment (skipSpace ('\n' :: text)) = '\n' :: text := rfl
      obtain ⟨c, tail, hcons, hc⟩ := hsetting.exists_cons (rest.flatMap Setting.line)
      rw [List.flatMap_cons, hcons, readLines?, skipBlank_of_isBareKey hc]
      rw [hcons] at hline
      simp only [hline, Option.bind_eq_bind, Option.bind_some, hend, newline?, hnext]
      rfl

/-! ## Documents -/

/-- Keys that are not there yet are defined one after the other. -/
theorem insertPairs_settings {settings : List Setting} {entries : Entries}
    (hkeys : (Assoc.keys entries ++ settings.map Setting.key).Nodup) :
    insertPairs (settings.map Setting.pair) entries =
      some (entries ++ settings.map fun setting => (setting.key, setting.value)) := by
  induction settings generalizing entries with
  | nil => simp [insertPairs]
  | cons setting rest ih =>
    have hnew : setting.key ∉ Assoc.keys entries := by
      intro hmem
      exact (List.nodup_append.1 hkeys).2.2 _ hmem _ List.mem_cons_self rfl
    have hinsert : insertPair entries [] setting.key setting.value =
        some (entries ++ [(setting.key, setting.value)]) := by
      have habsent : ¬ (Assoc.get? setting.key entries).isSome = true :=
        mt Assoc.isSome_get?_iff.1 hnew
      rw [← Assoc.put_of_notMem _ hnew]
      exact if_neg habsent
    rw [List.map_cons, insertPairs, Setting.pair, hinsert, Option.bind_some, ih]
    · simp
    · simpa [Assoc.keys] using hkeys

theorem addLines_settings (settings : List Setting) (pairs : List Pair) :
    addLines (settings.map fun setting => .pair setting.pair) none pairs [] =
      insertPairs (pairs ++ settings.map Setting.pair) [] := by
  induction settings generalizing pairs with
  | nil =>
    rw [List.map_nil, List.map_nil, List.append_nil]
    rfl
  | cons setting rest ih =>
    rw [List.map_cons, addLines, ih, List.append_assoc]
    rfl

theorem length_le_lines (settings : List Setting) :
    settings.length ≤ (settings.flatMap Setting.line).length := by
  induction settings with
  | nil => exact Nat.le_refl 0
  | cons setting rest ih =>
    have hline : 1 ≤ setting.line.length := by
      simp only [Setting.line, Config.line, List.length_append, List.length_singleton]
      omega
    rw [List.flatMap_cons, List.length_append, List.length_cons]
    omega

/-- A document of lines that each define a key of their own defines these keys. -/
theorem read?_lines {settings : List Setting} (h : ∀ setting ∈ settings, setting.Readable)
    (hkeys : (settings.map Setting.key).Nodup) :
    read? (String.ofList (settings.flatMap Setting.line)) =
      some (settings.map fun setting => (setting.key, setting.value)) := by
  have hfuel : settings.length < (settings.flatMap Setting.line).length + 1 :=
    Nat.lt_succ_of_le (length_le_lines settings)
  have hlines := readLines?_lines h hfuel
  have hassemble : assemble (settings.map fun setting => .pair setting.pair) =
      some (settings.map fun setting => (setting.key, setting.value)) :=
    (addLines_settings settings []).trans (insertPairs_settings hkeys)
  -- a document of such lines does not start with a byte order mark
  have hmark (rest : List Char) : settings.flatMap Setting.line ≠ '\ufeff' :: rest := by
    cases settings with
    | nil => exact (List.cons_ne_nil _ _).symm
    | cons setting others =>
      obtain ⟨c, tail, hcons, hc⟩ :=
        (h setting List.mem_cons_self).exists_cons (others.flatMap Setting.line)
      rw [List.flatMap_cons, hcons]
      rintro ⟨⟩
      cases hc
  unfold read?
  rw [String.toList_ofList]
  split
  · next rest heq => exact absurd heq (hmark rest)
  · dsimp only
    rw [hlines]
    exact hassemble

end Toml

end ParamQuery
