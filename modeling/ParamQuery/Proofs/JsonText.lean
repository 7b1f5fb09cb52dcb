import ParamQuery.Json
import ParamQuery.Proofs.Number.FloatText

/-!
# Compact texts of JSON values

The compact text of a JSON value determines the value, if the numbers in it are finite: whatever
follows, it can be told where the text of the value ends.

## Main definitions

* `Json.Proper` — all numbers inside a value are finite.
* `Json.unescape?` — reads one escaped character.

## Main statements

* `Json.chars_append_inj` — a value ends where it stops, whatever follows.
* `Json.render_inj` — compact texts tell values apart.
-/

namespace ParamQuery

namespace Json

mutual
/-- All numbers inside a value are finite. -/
def Proper : Json → Prop
  | .float x => x.isFinite = true
  | .array items => ProperItems items
  | .object members => ProperMembers members
  | _ => True

def ProperItems : List Json → Prop
  | [] => True
  | item :: rest => item.Proper ∧ ProperItems rest

def ProperMembers : List (String × Json) → Prop
  | [] => True
  | (_, value) :: rest => value.Proper ∧ ProperMembers rest
end

/-! ## Quoted texts -/

/-- The number of a digit of base sixteen, in lower case. -/
def hexValue (c : Char) : Nat := if c.isDigit then c.toNat - 48 else c.toNat - 87

theorem hexValue_hexDigit : ∀ n < 16, hexValue (hexDigit n) = n := by decide

/-- The character that is escaped at the start of a text, and the rest of the text. -/
def unescape? : List Char → Option (Char × List Char)
  | '\\' :: 'u' :: '0' :: '0' :: a :: b :: rest =>
    some (Char.ofNat (16 * hexValue a + hexValue b), rest)
  | '\\' :: 'n' :: rest => some ('\n', rest)
  | '\\' :: 'r' :: rest => some ('\r', rest)
  | '\\' :: 't' :: rest => some ('\t', rest)
  | '\\' :: 'b' :: rest => some ('\x08', rest)
  | '\\' :: 'f' :: rest => some ('\x0c', rest)
  | '\\' :: c :: rest => some (c, rest)
  | c :: rest => some (c, rest)
  | [] => none

theorem unescape?_escapeChar (c : Char) (rest : List Char) :
    unescape? (escapeChar c ++ rest) = some (c, rest) := by
  unfold escapeChar
  split_ifs with hquote hslash hn hr ht hb hf hcontrol
  · rw [hquote]; rfl
  · rw [hslash]; rfl
  · rw [hn]; rfl
  · rw [hr]; rfl
  · rw [ht]; rfl
  · rw [hb]; rfl
  · rw [hf]; rfl
  · have hhigh := hexValue_hexDigit (c.toNat / 16) (by omega)
    have hlow := hexValue_hexDigit (c.toNat % 16) (by omega)
    change some (Char.ofNat (16 * hexValue (hexDigit (c.toNat / 16)) +
      hexValue (hexDigit (c.toNat % 16))), rest) = _
    rw [hhigh, hlow, Nat.div_add_mod, Char.ofNat_toNat]
  · rw [List.singleton_append, unescape?]
    all_goals simp [hslash]

/-- No escaped character starts with a quotation mark. -/
theorem escapeChar_append_ne (c : Char) (rest rest' : List Char) :
    escapeChar c ++ rest ≠ '"' :: rest' := by
  intro h
  have hread := unescape?_escapeChar c rest
  rw [h] at hread
  have hquote : c = '"' := (congrArg Prod.fst (Option.some.inj hread)).symm
  rw [hquote] at h
  cases h

/-- A quoted text ends at its own quotation mark. -/
theorem escape_inj {text text' rest rest' : List Char}
    (h : text.flatMap escapeChar ++ '"' :: rest = text'.flatMap escapeChar ++ '"' :: rest') :
    text = text' ∧ rest = rest' := by
  induction text generalizing text' with
  | nil =>
    cases text' with
    | nil => exact ⟨rfl, (List.cons.inj h).2⟩
    | cons c text' =>
      rw [List.flatMap_cons, List.append_assoc] at h
      exact absurd h.symm (escapeChar_append_ne c _ _)
  | cons c text ih =>
    cases text' with
    | nil =>
      rw [List.flatMap_cons, List.append_assoc] at h
      exact absurd h (escapeChar_append_ne c _ _)
    | cons c' text' =>
      rw [List.flatMap_cons, List.append_assoc, List.flatMap_cons, List.append_assoc] at h
      have hread := unescape?_escapeChar c (text.flatMap escapeChar ++ '"' :: rest)
      rw [h, unescape?_escapeChar, Option.some.injEq, Prod.mk.injEq] at hread
      obtain ⟨rfl, rfl⟩ := ih hread.2.symm
      exact ⟨by rw [hread.1], rfl⟩

theorem quote_inj {s t : String} {rest rest' : List Char} (h : quote s ++ rest = quote t ++ rest') :
    s = t ∧ rest = rest' := by
  unfold quote at h
  rw [List.cons_append, List.cons_append, List.cons_append, List.cons_append, List.append_assoc,
    List.append_assoc] at h
  have htext := escape_inj (List.cons.inj h).2
  exact ⟨String.toList_inj.1 htext.1, htext.2⟩

/-! ## Values -/

/-- The character that a text, an array or an object starts with. -/
def opening? : Json → Option Char
  | .string _ => some '"'
  | .array _ => some '['
  | .object _ => some '{'
  | _ => none

/-- A character of the text of a value that is neither a text nor an array or an object. -/
def IsPlain (c : Char) : Prop := c ∉ ['"', '[', ']', '{', '}', ',']

instance (c : Char) : Decidable (IsPlain c) := inferInstanceAs (Decidable (¬ _))

/-- What follows a value: nothing, a comma or the end of an array or an object. -/
def Stops (rest : List Char) : Prop := ∀ c ∈ rest.head?, c ∈ [']', '}', ',']

theorem isPlain_of_isMark {c : Char} (h : FloatLayout.IsMark c) : IsPlain c := by
  obtain hdigit | hmark := h
  · have hnot : ∀ c ∈ ['"', '[', ']', '\x7b', '\x7d', ','], c.isDigit = false :=
      Text.forall_mem_of_all (by decide)
    intro hmem
    rw [hnot c hmem] at hdigit
    cases hdigit
  · have hplain : ∀ c ∈ ['.', 'e', '+', '-'], IsPlain c := Text.forall_mem_of_all (by decide)
    exact hplain c hmark

theorem isDigit_or_of_mem_toString {n : Int} {c : Char} (h : c ∈ (toString n).toList) :
    c.isDigit = true ∨ c = '-' := by
  rw [toList_toString] at h
  split at h
  · rcases List.mem_cons.1 h with rfl | h
    · exact .inr rfl
    · exact .inl ((Text.digits_toDigits _).isDigit c h)
  · exact .inl ((Text.digits_toDigits _).isDigit c h)

theorem isMark_toString (n : Int) : ∀ c ∈ (toString n).toList, FloatLayout.IsMark c := by
  intro c hc
  obtain hdigit | rfl := isDigit_or_of_mem_toString hc
  · exact .inl hdigit
  · decide

theorem toList_toString_ne_nil (n : Int) : (toString n).toList ≠ [] := by
  rw [toList_toString]
  split
  · exact List.cons_ne_nil _ _
  · exact Nat.toDigits_ne_nil

/-- A whole number is not the text of a binary one, which has a point or a power of ten. -/
theorem toString_ne_render (n : Int) (x : Binary64) :
    (toString n).toList ≠ numberLayout.render x := by
  intro h
  have hmark := numberLayout.mark_mem_render x
  rw [← h] at hmark
  obtain hpoint | hpower := hmark
  · exact absurd (isDigit_or_of_mem_toString hpoint) (by decide)
  · exact absurd (isDigit_or_of_mem_toString hpower) (by decide)

/-- The values that are written as words. -/
def words : List Json := [.null, .bool true, .bool false]

theorem word_or_number {value : Json} (h : value.opening? = none) :
    value ∈ words ∨ (∃ n, value = .int n) ∨ ∃ x, value = .float x := by
  cases value with
  | null => exact .inl (by decide)
  | bool b => exact .inl (by cases b <;> decide)
  | int n => exact .inr (.inl ⟨n, rfl⟩)
  | float x => exact .inr (.inr ⟨x, rfl⟩)
  | string s => cases h
  | array items => cases h
  | object members => cases h

theorem isPlain_chars {value : Json} (h : value.opening? = none) :
    ∀ c ∈ value.chars, IsPlain c := by
  obtain hword | ⟨n, rfl⟩ | ⟨x, rfl⟩ := word_or_number h
  · have hwords : ∀ value ∈ words, (value.chars.all fun c => decide (IsPlain c)) = true := by decide
    exact Text.forall_mem_of_all (hwords value hword)
  · exact fun c hc => isPlain_of_isMark (isMark_toString n c hc)
  · exact fun c hc => isPlain_of_isMark (numberLayout.isMark_render x c hc)

theorem not_isMark_word {value : Json} (h : value ∈ words) :
    ¬ ∀ c ∈ value.chars, FloatLayout.IsMark c := by
  have hwords : ∀ value ∈ words,
      (value.chars.all fun c => decide (FloatLayout.IsMark c)) = false := by
    decide
  intro hall
  have hmarks := hwords value h
  rw [List.all_eq_true.2 fun c hc => decide_eq_true (hall c hc)] at hmarks
  cases hmarks

theorem words_inj : ∀ a ∈ words, ∀ b ∈ words, a.chars = b.chars → a = b := by decide

/-- Texts without brackets and quotation marks tell values apart. -/
theorem eq_of_chars_eq {a b : Json} (ha : a.opening? = none) (hb : b.opening? = none)
    (hproper : a.Proper) (hproper' : b.Proper) (h : a.chars = b.chars) : a = b := by
  obtain hword | ⟨n, rfl⟩ | ⟨x, rfl⟩ := word_or_number ha
  · have hnot := not_isMark_word hword
    obtain hword' | ⟨n', rfl⟩ | ⟨x', rfl⟩ := word_or_number hb
    · exact words_inj a hword b hword' h
    · rw [h] at hnot
      exact absurd (isMark_toString n') hnot
    · rw [h] at hnot
      exact absurd (numberLayout.isMark_render x') hnot
  · obtain hword' | ⟨n', rfl⟩ | ⟨x', rfl⟩ := word_or_number hb
    · have hnot := not_isMark_word hword'
      rw [← h] at hnot
      exact absurd (isMark_toString n) hnot
    · rw [Text.toString_inj (String.toList_inj.1 h)]
    · exact absurd h (toString_ne_render n x')
  · obtain hword' | ⟨n', rfl⟩ | ⟨x', rfl⟩ := word_or_number hb
    · have hnot := not_isMark_word hword'
      rw [← h] at hnot
      exact absurd (numberLayout.isMark_render x) hnot
    · exact absurd h.symm (toString_ne_render n' x)
    · rw [FloatLayout.render_inj hproper hproper' h]

/-- Plain texts end where a value stops. -/
theorem plain_append_inj {text text' rest rest' : List Char} (ht : ∀ c ∈ text, IsPlain c)
    (ht' : ∀ c ∈ text', IsPlain c) (hrest : Stops rest) (hrest' : Stops rest')
    (h : text ++ rest = text' ++ rest') : text = text' ∧ rest = rest' := by
  have hstops : ∀ c ∈ [']', '\x7d', ','], ¬ IsPlain c := Text.forall_mem_of_all (by decide)
  have hempty {middle rest : List Char} (hmiddle : ∀ c ∈ middle, IsPlain c)
      (hrest : Stops (middle ++ rest)) : middle = [] := by
    cases middle with
    | nil => rfl
    | cons c middle => exact absurd (hmiddle c List.mem_cons_self) (hstops c (hrest c rfl))
  obtain ⟨middle, rfl, rfl⟩ | ⟨middle, rfl, rfl⟩ := List.append_eq_append_iff.1 h
  · rw [hempty (fun c hc => ht' c (List.mem_append_right _ hc)) hrest]
    exact ⟨(List.append_nil _).symm, rfl⟩
  · rw [hempty (fun c hc => ht c (List.mem_append_right _ hc)) hrest']
    exact ⟨List.append_nil _, rfl⟩

/-! ## Arrays and objects -/

/-- What follows the first item or member: the closing bracket, or a comma and the others. -/
def afterFirst (pieces : List (List Char)) (close : Char) (rest : List Char) : List Char :=
  match pieces with
  | [] => close :: rest
  | piece :: pieces => ',' :: (Text.join [','] (piece :: pieces) ++ close :: rest)

theorem join_cons_append (piece : List Char) (pieces : List (List Char)) (close : Char)
    (rest : List Char) :
    Text.join [','] (piece :: pieces) ++ close :: rest =
      piece ++ afterFirst pieces close rest := by
  cases pieces with
  | nil => rfl
  | cons next pieces => simp [Text.join, afterFirst]

theorem stops_afterFirst {pieces : List (List Char)} {close : Char} {rest : List Char}
    (hclose : close ∈ [']', '\x7d', ',']) : Stops (afterFirst pieces close rest) := by
  intro c hc
  cases pieces with
  | nil => exact Option.some.inj hc ▸ hclose
  | cons piece pieces => exact Option.some.inj hc ▸ (by decide)

theorem mem_of_opening? {value : Json} {c : Char} (h : value.opening? = some c) :
    c ∈ ['"', '[', '\x7b'] := by
  cases value with
  | string s => cases h; decide
  | array items => cases h; decide
  | object members => cases h; decide
  | _ => cases h

/-- The first character tells texts, arrays, objects and the others apart. -/
theorem exists_head (value : Json) : ∃ c rest, value.chars = c :: rest ∧
    (value.opening? = some c ∨ value.opening? = none ∧ IsPlain c) := by
  cases hopening : value.opening? with
  | none =>
    have hplain := isPlain_chars hopening
    have hne : value.chars ≠ [] := by
      obtain hword | ⟨n, rfl⟩ | ⟨x, rfl⟩ := word_or_number hopening
      · have hwords : ∀ value ∈ words, value.chars ≠ [] := by decide
        exact hwords value hword
      · exact toList_toString_ne_nil n
      · exact (numberLayout.mark_mem_render x).elim List.ne_nil_of_mem List.ne_nil_of_mem
    cases hchars : value.chars with
    | nil => exact absurd hchars hne
    | cons c rest => exact ⟨c, rest, rfl, .inr ⟨rfl, hplain c (hchars ▸ List.mem_cons_self)⟩⟩
  | some c =>
    cases value with
    | string s => exact ⟨c, _, by cases hopening; rfl, .inl rfl⟩
    | array items => exact ⟨c, _, by cases hopening; rfl, .inl rfl⟩
    | object members => exact ⟨c, _, by cases hopening; rfl, .inl rfl⟩
    | _ => cases hopening

theorem opening?_eq {a b : Json} {rest rest' : List Char}
    (h : a.chars ++ rest = b.chars ++ rest') : a.opening? = b.opening? := by
  have hopen : ∀ c ∈ ['"', '[', '\x7b'], ¬ IsPlain c := Text.forall_mem_of_all (by decide)
  obtain ⟨c, tail, hchars, hc⟩ := exists_head a
  obtain ⟨c', tail', hchars', hc'⟩ := exists_head b
  rw [hchars, hchars', List.cons_append, List.cons_append, List.cons.injEq] at h
  obtain ⟨rfl, -⟩ := h
  obtain hc | ⟨hc, hplain⟩ := hc
  · obtain hc' | ⟨_, hplain'⟩ := hc'
    · rw [hc, hc']
    · exact absurd hplain' (hopen c (mem_of_opening? hc))
  · obtain hc' | ⟨hc', _⟩ := hc'
    · exact absurd hplain (hopen c (mem_of_opening? hc'))
    · rw [hc, hc']

/-- A value does not start with the end of an array or an object. -/
theorem chars_append_ne {value : Json} {c : Char} {rest rest' : List Char}
    (hc : c ∈ [']', '\x7d', ',']) : value.chars ++ rest ≠ c :: rest' := by
  have hclose : ∀ c ∈ [']', '\x7d', ','], ¬ IsPlain c ∧ c ∉ ['"', '[', '\x7b'] :=
    Text.forall_mem_of_all (by decide)
  obtain ⟨hplain, hopen⟩ := hclose c hc
  obtain ⟨c', tail, hchars, hc'⟩ := exists_head value
  rw [hchars, List.cons_append]
  intro h
  rw [List.cons.injEq] at h
  obtain ⟨rfl, -⟩ := h
  obtain hopening | ⟨_, hplain'⟩ := hc'
  · exact hopen (mem_of_opening? hopening)
  · exact hplain hplain'

/-- What follows the first piece tells the pieces behind it. -/
theorem join_append_eq_of_afterFirst {pieces pieces' : List (List Char)} {close : Char}
    {rest rest' : List Char} (hclose : close ≠ ',')
    (h : afterFirst pieces close rest = afterFirst pieces' close rest') :
    Text.join [','] pieces ++ close :: rest = Text.join [','] pieces' ++ close :: rest' := by
  cases pieces with
  | nil =>
    cases pieces' with
    | nil => exact h
    | cons piece' pieces' => exact absurd (List.cons.inj h).1 hclose
  | cons piece pieces =>
    cases pieces' with
    | nil => exact absurd (List.cons.inj h).1.symm hclose
    | cons piece' pieces' => exact (List.cons.inj h).2

theorem plain_chars_append_inj {a b : Json} {rest rest' : List Char} (ha : a.opening? = none)
    (hproper : a.Proper) (hproper' : b.Proper) (hrest : Stops rest) (hrest' : Stops rest')
    (h : a.chars ++ rest = b.chars ++ rest') : a = b ∧ rest = rest' := by
  have hb := (opening?_eq h).symm.trans ha
  obtain ⟨hchars, hrests⟩ := plain_append_inj (isPlain_chars ha) (isPlain_chars hb) hrest hrest' h
  exact ⟨eq_of_chars_eq ha hb hproper hproper' hchars, hrests⟩

mutual
/-- A value ends where it stops. -/
theorem chars_append_inj : ∀ {a b : Json} {rest rest' : List Char}, a.Proper → b.Proper →
    Stops rest → Stops rest' → a.chars ++ rest = b.chars ++ rest' → a = b ∧ rest = rest'
  | .string s, b, _, _, _, _, _, _, h => by
    have hopening := opening?_eq h
    cases b with
    | string t =>
      obtain ⟨rfl, rfl⟩ := quote_inj h
      exact ⟨rfl, rfl⟩
    | _ => cases hopening
  | .array items, b, _, _, hproper, hproper', _, _, h => by
    have hopening := opening?_eq h
    cases b with
    | array items' =>
      simp only [chars, List.cons_append, List.append_assoc, List.nil_append] at h
      obtain ⟨rfl, rfl⟩ := itemChars_append_inj hproper hproper' (List.cons.inj h).2
      exact ⟨rfl, rfl⟩
    | _ => cases hopening
  | .object members, b, _, _, hproper, hproper', _, _, h => by
    have hopening := opening?_eq h
    cases b with
    | object members' =>
      simp only [chars, List.cons_append, List.append_assoc, List.nil_append] at h
      obtain ⟨rfl, rfl⟩ := memberChars_append_inj hproper hproper' (List.cons.inj h).2
      exact ⟨rfl, rfl⟩
    | _ => cases hopening
  | .null, _, _, _, hproper, hproper', hrest, hrest', h =>
    plain_chars_append_inj rfl hproper hproper' hrest hrest' h
  | .bool _, _, _, _, hproper, hproper', hrest, hrest', h =>
    plain_chars_append_inj rfl hproper hproper' hrest hrest' h
  | .int _, _, _, _, hproper, hproper', hrest, hrest', h =>
    plain_chars_append_inj rfl hproper hproper' hrest hrest' h
  | .float _, _, _, _, hproper, hproper', hrest, hrest', h =>
    plain_chars_append_inj rfl hproper hproper' hrest hrest' h

/-- Items end at the bracket. -/
theorem itemChars_append_inj : ∀ {items items' : List Json} {rest rest' : List Char},
    ProperItems items → ProperItems items' →
    Text.join [','] (itemChars items) ++ ']' :: rest =
      Text.join [','] (itemChars items') ++ ']' :: rest' → items = items' ∧ rest = rest'
  | [], [], _, _, _, _, h => ⟨rfl, (List.cons.inj h).2⟩
  | [], item' :: items', _, _, _, _, h => by
    rw [itemChars, itemChars, join_cons_append] at h
    exact absurd h.symm (chars_append_ne (by decide))
  | item :: items, [], _, _, _, _, h => by
    rw [itemChars, itemChars, join_cons_append] at h
    exact absurd h (chars_append_ne (by decide))
  | item :: items, item' :: items', _, _, hproper, hproper', h => by
    rw [itemChars, itemChars, join_cons_append, join_cons_append] at h
    obtain ⟨rfl, hafter⟩ := chars_append_inj hproper.1 hproper'.1 (stops_afterFirst (by decide))
      (stops_afterFirst (by decide)) h
    obtain ⟨rfl, rfl⟩ := itemChars_append_inj hproper.2 hproper'.2
      (join_append_eq_of_afterFirst (by decide) hafter)
    exact ⟨rfl, rfl⟩

/-- Members end at the brace. -/
theorem memberChars_append_inj : ∀ {members members' : List (String × Json)}
    {rest rest' : List Char}, ProperMembers members → ProperMembers members' →
    Text.join [','] (memberChars members) ++ '\x7d' :: rest =
      Text.join [','] (memberChars members') ++ '\x7d' :: rest' →
    members = members' ∧ rest = rest'
  | [], [], _, _, _, _, h => ⟨rfl, (List.cons.inj h).2⟩
  | [], (name', value') :: members', _, _, _, _, h => by
    rw [memberChars, memberChars, join_cons_append] at h
    cases h
  | (name, value) :: members, [], _, _, _, _, h => by
    rw [memberChars, memberChars, join_cons_append] at h
    cases h
  | (name, value) :: members, (name', value') :: members', _, _, hproper, hproper', h => by
    rw [memberChars, memberChars, join_cons_append, join_cons_append, List.append_assoc,
      List.append_assoc] at h
    obtain ⟨rfl, hvalue⟩ := quote_inj h
    obtain ⟨rfl, hafter⟩ := chars_append_inj hproper.1 hproper'.1 (stops_afterFirst (by decide))
      (stops_afterFirst (by decide)) (List.cons.inj hvalue).2
    obtain ⟨rfl, rfl⟩ := memberChars_append_inj hproper.2 hproper'.2
      (join_append_eq_of_afterFirst (by decide) hafter)
    exact ⟨rfl, rfl⟩
end

/-- Compact texts tell values apart. -/
theorem render_inj {a b : Json} (ha : a.Proper) (hb : b.Proper) (h : a.render = b.render) :
    a = b := by
  have hnil : Stops [] := fun _ hc => by cases hc
  refine (chars_append_inj ha hb hnil hnil ?_).1
  rw [List.append_nil, List.append_nil]
  exact String.ofList_inj.1 h

end Json

end ParamQuery
