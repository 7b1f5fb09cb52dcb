import Mathlib.Tactic.SplitIfs
import ParamQuery.Toml.Reader
import ParamQuery.Toml.Writer

/-!
# Strings read back

A text that was written as a string is read back as it was, in whichever quotes it was written. The
string ends at the quotes that were written last, whatever follows them, as long as that does not
start with another quote.

## Main definitions

* `Toml.Spells` — the ways in which a character that is no quote stands between double quotes.
* `Toml.EndsAtTriple` — how a reader treats quotes in a string between triple quotes.

## Main statements

* `Toml.readBasic?_escape`, `Toml.readBasicLines?_escape` — strings with escapes.
* `Toml.readLiteral?_append`, `Toml.readLiteralLines?_append` — strings without escapes.
* `Toml.readString?_writeString` — strings of all kinds.
-/

namespace ParamQuery.Toml

/-! ## Characters -/

/-- How a character that is no quote may stand between double quotes: as itself, as a backslash and
a letter, by its code, or, in a string of several lines, as a line end. -/
inductive Spells (multiline : Bool) (c : Char) : List Char → Prop where
  | plain (hplain : isPlain c = true) (hslash : c ≠ '\\') : Spells multiline c [c]
  | short (letter : Char) (hletter : shortEscape? letter = some c) :
    Spells multiline c ['\\', letter]
  | code (a b : Char) (hcode : escaped? ['0', '0', a, b] = some c) :
    Spells multiline c ['\\', 'u', '0', '0', a, b]
  | newline (hmultiline : multiline = true) (hc : c = '\n') : Spells multiline c [c]

/-- A code below 128 is read back from its digits. -/
theorem escaped?_hexDigits {n : Nat} (hn : n < 128) :
    escaped? ['0', '0', hexDigit (n / 16), hexDigit (n % 16)] = some (Char.ofNat n) := by
  have hall : ∀ n < 128,
      escaped? ['0', '0', hexDigit (n / 16), hexDigit (n % 16)] = some (Char.ofNat n) := by decide
  exact hall n hn

theorem spells_escapeChar (multiline : Bool) (c : Char) :
    Spells multiline c (escapeChar multiline c) := by
  unfold escapeChar
  split_ifs with hslash hb ht hn hmultiline hf hr hcontrol
  · subst hslash; exact .short _ rfl
  · subst hb; exact .short _ rfl
  · subst ht; exact .short _ rfl
  · subst hn; exact .newline hmultiline rfl
  · subst hn; exact .short _ rfl
  · subst hf; exact .short _ rfl
  · subst hr; exact .short _ rfl
  · refine .code _ _ ?_
    rw [escaped?_hexDigits (by omega), Char.ofNat_toNat]
  · refine .plain ?_ hslash
    simp only [isPlain, Bool.and_eq_true, Bool.or_eq_true, decide_eq_true_eq, bne_iff_ne]
    omega

theorem ne_of_isPlain {c : Char} (h : isPlain c = true) : c ≠ '\n' ∧ c ≠ '\r' := by
  constructor <;> rintro rfl <;> cases h

/-- A character that is no quote starts neither with a quote nor with a line end, unless it is
one. -/
theorem Spells.exists_cons {multiline : Bool} {c : Char} {text : List Char}
    (h : Spells multiline c text) (hc : c ≠ '"') :
    ∃ first tail, text = first :: tail ∧ first ≠ '"' ∧ first ≠ '\r' ∧
      (c ≠ '\n' → first ≠ '\n') := by
  cases h with
  | plain hplain =>
    obtain ⟨hnewline, hreturn⟩ := ne_of_isPlain hplain
    exact ⟨c, [], rfl, hc, hreturn, id⟩
  | short | code => exact ⟨_, _, rfl, by decide, by decide, fun _ => by decide⟩
  | newline _ hnewline => exact ⟨c, [], rfl, hc, by rw [hnewline]; decide, id⟩

/-- The letter of an escape is no white space. -/
theorem endsLine_of_shortEscape? {letter c : Char} (h : shortEscape? letter = some c)
    (rest : List Char) : endsLine (letter :: rest) = false := by
  unfold shortEscape? at h
  split_ifs at h <;> subst letter <;> rfl

/-! ## Double quotes on one line -/

theorem readBasic?_short {letter c : Char} (h : shortEscape? letter = some c) (rest : List Char) :
    readBasic? ('\\' :: letter :: rest) = push c (readBasic? rest) := by
  rw [readBasic?]
  · rw [h, Option.bind_some]
  · rintro _ _ _ _ _ rfl
    cases h
  · rintro _ _ _ _ _ _ _ _ _ rfl
    cases h

theorem readBasic?_spells {c : Char} {text : List Char} (h : Spells false c text) (hc : c ≠ '"')
    (rest : List Char) : readBasic? (text ++ rest) = push c (readBasic? rest) := by
  cases h with
  | plain hplain hslash =>
    rw [List.singleton_append, readBasic?]
    · simp [hplain, hslash]
    all_goals simp [hc, hslash]
  | short letter hletter => exact readBasic?_short hletter rest
  | code a b hcode =>
    rw [← Option.bind_some c fun x => push x (readBasic? rest), ← hcode]
    rfl
  | newline hmultiline => cases hmultiline

/-- What was written with escapes on one line is read back. -/
theorem readBasic?_escape (run : Nat) (text rest : List Char) :
    readBasic? (escape false run text ++ '"' :: rest) = some (text, rest) := by
  induction text generalizing run with
  | nil => rfl
  | cons c text ih =>
    by_cases hc : c = '"'
    · have hescape : escape false run (c :: text) = '\\' :: '"' :: escape false 0 text := by
        simp [escape, hc]
      rw [hescape, List.cons_append, List.cons_append, readBasic?_short rfl, ih, hc]
      rfl
    · have hspells := spells_escapeChar false c
      rw [escape, if_neg hc, List.append_assoc, readBasic?_spells hspells hc, ih]
      rfl

/-! ## Triple quotes -/

/-- How a reader treats quotes in a string between triple quotes: two or fewer before the triple
quotes belong to the string, and so does one that no two others follow. -/
structure EndsAtTriple (quote : Char) (read : List Char → Option (List Char × List Char)) :
    Prop where
  close : ∀ run ≤ 2, ∀ rest, (∀ tail, rest ≠ quote :: tail) →
    read (List.replicate run quote ++ quote :: quote :: quote :: rest) =
      some (List.replicate run quote, rest)
  single : ∀ text, (∀ tail, text ≠ quote :: quote :: tail) →
    read (quote :: text) = push quote (read text)

/-- Two or fewer quotes before another character belong to the string. -/
theorem EndsAtTriple.read_replicate {quote : Char}
    {read : List Char → Option (List Char × List Char)} (h : EndsAtTriple quote read) {run : Nat}
    (hrun : run ≤ 2) {c : Char} (hc : c ≠ quote) {text found rest : List Char}
    (hread : read (c :: text) = some (found, rest)) :
    read (List.replicate run quote ++ c :: text) =
      some (List.replicate run quote ++ found, rest) := by
  have hone : read (quote :: c :: text) = push quote (read (c :: text)) :=
    h.single _ fun tail htail => hc (List.cons.inj htail).1
  have htwo : read (quote :: quote :: c :: text) = push quote (read (quote :: c :: text)) :=
    h.single _ fun tail htail => hc (List.cons.inj (List.cons.inj htail).2).1
  rw [hread] at hone
  rw [hone] at htwo
  match run, hrun with
  | 0, _ => exact hread
  | 1, _ => exact hone
  | 2, _ => exact htwo

theorem endsAtTriple_readBasicLines? : EndsAtTriple '"' (readBasicLines? false) where
  close run hrun rest hrest := by
    match run, hrun with
    | 0, _ =>
      rw [List.replicate_zero, List.nil_append, readBasicLines?]
      · exact fun tail htail => hrest _ htail
      · exact fun tail htail => hrest _ htail
    | 1, _ =>
      rw [List.replicate_one, List.singleton_append, readBasicLines?]
      exact hrest
    | 2, _ => rfl
  single text htext := by
    rw [readBasicLines?]
    · rfl
    all_goals simp [htext]

theorem endsAtTriple_readLiteralLines? : EndsAtTriple '\'' readLiteralLines? where
  close run hrun rest hrest := by
    match run, hrun with
    | 0, _ =>
      rw [List.replicate_zero, List.nil_append, readLiteralLines?]
      · exact fun tail htail => hrest _ htail
      · exact fun tail htail => hrest _ htail
    | 1, _ =>
      rw [List.replicate_one, List.singleton_append, readLiteralLines?]
      exact hrest
    | 2, _ => rfl
  single text htext := by
    rw [readLiteralLines?]
    · rfl
    all_goals simp [htext]

theorem readBasicLines?_short {letter c : Char} (h : shortEscape? letter = some c)
    (rest : List Char) :
    readBasicLines? false ('\\' :: letter :: rest) = push c (readBasicLines? false rest) := by
  rw [readBasicLines?]
  · rw [endsLine_of_shortEscape? h, h]
    rfl
  · rintro _ _ _ _ _ rfl
    cases h
  · rintro _ _ _ _ _ _ _ _ _ rfl
    cases h

theorem readBasicLines?_spells {c : Char} {text : List Char} (h : Spells true c text) (hc : c ≠ '"')
    (rest : List Char) :
    readBasicLines? false (text ++ rest) = push c (readBasicLines? false rest) := by
  cases h with
  | plain hplain hslash =>
    rw [List.singleton_append, readBasicLines?]
    · simp [hplain, hslash]
    all_goals simp [hc, hslash, (ne_of_isPlain hplain).2]
  | short letter hletter => exact readBasicLines?_short hletter rest
  | code a b hcode =>
    rw [← Option.bind_some c fun x => push x (readBasicLines? false rest), ← hcode]
    rfl
  | newline _ hnewline =>
    subst hnewline
    rw [List.singleton_append, readBasicLines?]
    · rfl
    all_goals simp

theorem replicate_append_cons (run : Nat) (c : Char) (rest : List Char) :
    List.replicate run c ++ c :: rest = List.replicate (run + 1) c ++ rest := by
  rw [List.replicate_succ', List.append_assoc, List.singleton_append]

/-- What was written with escapes on several lines, after a run of quotes, is read back. -/
theorem readBasicLines?_escape {run : Nat} (hrun : run ≤ 2) (text : List Char) {rest : List Char}
    (hrest : ∀ tail, rest ≠ '"' :: tail) :
    readBasicLines? false
        (List.replicate run '"' ++ (escape true run text ++ '"' :: '"' :: '"' :: rest)) =
      some (List.replicate run '"' ++ text, rest) := by
  induction text generalizing run with
  | nil =>
    rw [List.append_nil]
    exact endsAtTriple_readBasicLines?.close run hrun rest hrest
  | cons c text ih =>
    have hnext : readBasicLines? false (escape true 0 text ++ '"' :: '"' :: '"' :: rest) =
        some (text, rest) := ih (Nat.zero_le 2)
    by_cases hc : c = '"'
    · subst hc
      by_cases hfull : 2 ≤ run
      · -- the third quote of a run has a backslash, and the next run starts after it
        have hread : readBasicLines? false
            ('\\' :: '"' :: (escape true 0 text ++ '"' :: '"' :: '"' :: rest)) =
              some ('"' :: text, rest) := by
          rw [readBasicLines?_short rfl, hnext]
          rfl
        have hescape : escape true run ('"' :: text) = '\\' :: '"' :: escape true 0 text := by
          simp [escape, hfull]
        rw [hescape]
        exact endsAtTriple_readBasicLines?.read_replicate hrun (by decide) hread
      · have hescape : escape true run ('"' :: text) = '"' :: escape true (run + 1) text := by
          simp [escape, hfull]
        rw [hescape, List.cons_append, replicate_append_cons, replicate_append_cons]
        exact ih (by omega)
    · obtain ⟨first, tail, hfirst, hne, _⟩ := (spells_escapeChar true c).exists_cons hc
      have hread : readBasicLines? false (escapeChar true c ++ (escape true 0 text ++
          '"' :: '"' :: '"' :: rest)) = some (c :: text, rest) := by
        rw [readBasicLines?_spells (spells_escapeChar true c) hc, hnext]
        rfl
      rw [escape, if_neg hc, List.append_assoc]
      rw [hfirst] at hread ⊢
      exact endsAtTriple_readBasicLines?.read_replicate hrun hne hread

/-! ## Single quotes -/

/-- A character that is not written as an escape is a line end or may stand in any string. -/
theorem isPlain_or_newline {c : Char} (h : isControl c = false) :
    (isPlain c || c == '\n') = true := by
  by_cases hlow : c.toNat < 32
  · obtain ⟨hspace, _⟩ : (c ≠ '\t' → c = '\n') ∧ c.toNat ≠ 127 := by simpa [isControl, hlow] using h
    by_cases htab : c = '\t'
    · rw [htab]
      rfl
    · rw [hspace htab]
      rfl
  · have hdelete : c.toNat ≠ 127 := by simpa [isControl, hlow] using h
    have hplain : isPlain c = true := by
      simp only [isPlain, Bool.and_eq_true, Bool.or_eq_true, decide_eq_true_eq, bne_iff_ne]
      omega
    rw [hplain]
    rfl

/-- A text without line ends and single quotes is read back. -/
theorem readLiteral?_append {text : List Char} (htext : ∀ c ∈ text, isPlain c = true)
    (hquote : '\'' ∉ text) (rest : List Char) :
    readLiteral? (text ++ '\'' :: rest) = some (text, rest) := by
  induction text with
  | nil => rfl
  | cons c text ih =>
    obtain ⟨hc, htext⟩ := List.forall_mem_cons.1 htext
    rw [List.mem_cons, not_or] at hquote
    rw [List.cons_append, readLiteral?, if_pos hc, ih htext hquote.2]
    · rfl
    · exact fun heq => hquote.1 heq.symm

/-- The length of the longest run of a character, after a run of it and the longest one so far. -/
def longestRunFrom (c : Char) : Nat → Nat → List Char → Nat
  | best, _, [] => best
  | best, run, x :: rest =>
    if x = c then longestRunFrom c (max best (run + 1)) (run + 1) rest
    else longestRunFrom c best 0 rest

theorem longestRun_eq (c : Char) (text : List Char) :
    longestRun c text = longestRunFrom c 0 0 text := by
  have hfrom (best run : Nat) : (text.foldl (fun (found : Nat × Nat) x =>
      let current := if x = c then found.2 + 1 else 0
      (max found.1 current, current)) (best, run)).1 = longestRunFrom c best run text := by
    induction text generalizing best run with
    | nil => rfl
    | cons x rest ih =>
      rw [List.foldl_cons, ih, longestRunFrom]
      split
      · rfl
      · rw [Nat.max_zero]
  exact hfrom 0 0

theorem le_longestRunFrom {c : Char} {best run : Nat} (text : List Char) :
    best ≤ longestRunFrom c best run text := by
  induction text generalizing best run with
  | nil => exact Nat.le_refl best
  | cons x rest ih =>
    unfold longestRunFrom
    split
    · exact Nat.le_trans (Nat.le_max_left best (run + 1)) ih
    · exact ih

theorem notMem_of_longestRun_eq_zero {c : Char} {text : List Char} (h : longestRun c text = 0) :
    c ∉ text := by
  rw [longestRun_eq] at h
  induction text with
  | nil => exact List.not_mem_nil
  | cons x rest ih =>
    unfold longestRunFrom at h
    split at h
    · have hone : 1 ≤ longestRunFrom c (max 0 (0 + 1)) (0 + 1) rest := le_longestRunFrom rest
      rw [h] at hone
      cases hone
    · next hx => exact List.not_mem_cons_of_ne_of_not_mem (Ne.symm hx) (ih h)

/-- A text with no more than two single quotes after each other is read back. -/
theorem readLiteralLines?_append {text : List Char} (htext : ∀ c ∈ text, isControl c = false)
    {best run : Nat} (hrun : run ≤ best) (hquotes : longestRunFrom '\'' best run text ≤ 2)
    {rest : List Char} (hrest : ∀ tail, rest ≠ '\'' :: tail) :
    readLiteralLines? (List.replicate run '\'' ++ (text ++ '\'' :: '\'' :: '\'' :: rest)) =
      some (List.replicate run '\'' ++ text, rest) := by
  have hshort : run ≤ 2 :=
    Nat.le_trans hrun (Nat.le_trans (le_longestRunFrom text) hquotes)
  induction text generalizing best run with
  | nil =>
    rw [List.append_nil]
    exact endsAtTriple_readLiteralLines?.close run hshort rest hrest
  | cons c text ih =>
    obtain ⟨hc, htail⟩ := List.forall_mem_cons.1 htext
    unfold longestRunFrom at hquotes
    split at hquotes
    · next hquote =>
      subst hquote
      have hlonger : run + 1 ≤ max best (run + 1) := Nat.le_max_right best (run + 1)
      rw [List.cons_append, replicate_append_cons, replicate_append_cons]
      refine ih htail hlonger hquotes ?_
      exact Nat.le_trans hlonger (Nat.le_trans (le_longestRunFrom text) hquotes)
    · next hquote =>
      have hnext : readLiteralLines? (text ++ '\'' :: '\'' :: '\'' :: rest) = some (text, rest) :=
        ih htail (Nat.zero_le best) hquotes (Nat.zero_le 2)
      refine endsAtTriple_readLiteralLines?.read_replicate hshort hquote ?_
      rw [readLiteralLines?]
      · rw [if_pos (isPlain_or_newline hc), List.append_eq, hnext]
        rfl
      · exact fun _ heq => absurd heq hquote
      · exact fun _ heq => absurd heq hquote
      · exact fun _ heq => absurd heq hquote
      · rintro _ rfl
        cases hc

/-! ## All kinds of quotes -/

/-- What follows a string does not start with a quote. -/
def Unquoted (rest : List Char) : Prop := ∀ c tail, rest = c :: tail → c ≠ '"' ∧ c ≠ '\''

theorem skipFirstNewline_cons {c : Char} (hnewline : c ≠ '\n') (hreturn : c ≠ '\r')
    (rest : List Char) : skipFirstNewline (c :: rest) = c :: rest := by
  rw [skipFirstNewline, newline?]
  · rfl
  · exact fun _ heq => hnewline (List.cons.inj heq).1
  · exact fun _ heq => hreturn (List.cons.inj heq).1

/-- What is written without a line end does not start with one. -/
theorem skipFirstNewline_escape {text : List Char} (hnewline : '\n' ∉ text) (rest : List Char) :
    skipFirstNewline (escape true 0 text ++ '"' :: rest) = escape true 0 text ++ '"' :: rest := by
  cases text with
  | nil => rfl
  | cons c text =>
    rw [List.mem_cons, not_or] at hnewline
    by_cases hc : c = '"'
    · subst hc
      rfl
    · obtain ⟨first, tail, hfirst, _, hreturn, hline⟩ := (spells_escapeChar true c).exists_cons hc
      rw [escape, if_neg hc, hfirst]
      exact skipFirstNewline_cons (hline (Ne.symm hnewline.1)) hreturn _

theorem skipFirstNewline_literal {text : List Char} (htext : ∀ c ∈ text, isControl c = false)
    (hnewline : '\n' ∉ text) (rest : List Char) :
    skipFirstNewline (text ++ '\'' :: rest) = text ++ '\'' :: rest := by
  cases text with
  | nil => rfl
  | cons c text =>
    rw [List.mem_cons, not_or] at hnewline
    refine skipFirstNewline_cons (Ne.symm hnewline.1) ?_ _
    rintro rfl
    exact absurd (htext _ List.mem_cons_self) (by decide)

theorem readString?_basic (text : List Char) {rest : List Char} (hrest : Unquoted rest) :
    readString? (['"'] ++ escape false 0 text ++ ['"'] ++ rest) = some (text, rest) := by
  have hread := readBasic?_escape 0 text rest
  have hclose : ∀ tail, escape false 0 text ++ '"' :: rest ≠ '"' :: '"' :: tail := by
    cases text with
    | nil => exact fun tail htail => (hrest _ _ (List.cons.inj htail).2).1 rfl
    | cons c text =>
      intro tail
      by_cases hc : c = '"'
      · simp [escape, hc]
      · obtain ⟨first, _, hfirst, hne, _⟩ := (spells_escapeChar false c).exists_cons hc
        simp [escape, hc, hfirst, hne]
  simp only [List.append_assoc, List.singleton_append]
  rw [readString?]
  · exact hread
  · simp [hclose]
  · simp

theorem readString?_basicLines (text : List Char) {rest : List Char} (hrest : Unquoted rest) :
    readString? (['"', '"', '"'] ++ (if text.contains '\n' then ['\n'] else []) ++
        escape true 0 text ++ ['"', '"', '"'] ++ rest) = some (text, rest) := by
  have hread : readBasicLines? false (escape true 0 text ++ '"' :: '"' :: '"' :: rest) =
      some (text, rest) :=
    readBasicLines?_escape (Nat.zero_le 2) text fun tail htail => (hrest _ _ htail).1 rfl
  simp only [List.append_assoc]
  split
  · exact hread
  · next hnewline =>
    rw [List.contains_iff_mem] at hnewline
    rw [← skipFirstNewline_escape hnewline] at hread
    exact hread

theorem readString?_literal {text : List Char} (htext : ∀ c ∈ text, isPlain c = true)
    (hquote : '\'' ∉ text) {rest : List Char} (hrest : Unquoted rest) :
    readString? (['\''] ++ text ++ ['\''] ++ rest) = some (text, rest) := by
  have hread := readLiteral?_append htext hquote rest
  have hclose : ∀ tail, text ++ '\'' :: rest ≠ '\'' :: '\'' :: tail := by
    cases text with
    | nil => exact fun tail htail => (hrest _ _ (List.cons.inj htail).2).2 rfl
    | cons c text =>
      intro tail htail
      exact hquote ((List.cons.inj htail).1 ▸ List.mem_cons_self)
  simp only [List.append_assoc, List.singleton_append]
  rw [readString?]
  · exact hread
  · simp
  · simp [hclose]

theorem readString?_literalLines {text : List Char} (htext : ∀ c ∈ text, isControl c = false)
    (hquotes : longestRun '\'' text ≤ 2) {rest : List Char} (hrest : Unquoted rest) :
    readString? (['\'', '\'', '\''] ++ (if text.contains '\n' then ['\n'] else []) ++ text ++
        ['\'', '\'', '\''] ++ rest) = some (text, rest) := by
  have hread : readLiteralLines? (text ++ '\'' :: '\'' :: '\'' :: rest) = some (text, rest) :=
    readLiteralLines?_append htext (Nat.le_refl 0) (longestRun_eq _ _ ▸ hquotes)
      fun tail htail => (hrest _ _ htail).2 rfl
  simp only [List.append_assoc]
  split
  · exact hread
  · next hnewline =>
    rw [List.contains_iff_mem] at hnewline
    rw [← skipFirstNewline_literal htext hnewline] at hread
    exact hread

/-- A text is read back from its written form. -/
theorem readString?_writeString (text : List Char) {rest : List Char} (hrest : Unquoted rest) :
    readString? (writeString text ++ rest) = some (text, rest) := by
  unfold writeString
  dsimp only
  split
  · exact readString?_basic text hrest
  split
  · next hliteral =>
    simp only [Bool.and_eq_true, Bool.not_eq_true', List.any_eq_false, decide_eq_true_eq,
      List.contains_eq_mem, decide_eq_false_iff_not] at hliteral
    obtain ⟨⟨hcontrol, hquotes⟩, hnewline⟩ := hliteral
    refine readString?_literal (fun c hc => ?_) (notMem_of_longestRun_eq_zero hquotes) hrest
    have hplain := isPlain_or_newline (Bool.eq_false_iff.2 (hcontrol c hc))
    rw [Bool.or_eq_true, beq_iff_eq] at hplain
    exact hplain.resolve_right fun heq => hnewline (heq ▸ hc)
  split
  · exact readString?_basicLines text hrest
  split
  · next hliteral =>
    simp only [Bool.and_eq_true, Bool.not_eq_true', List.any_eq_false,
      decide_eq_true_eq] at hliteral
    obtain ⟨hcontrol, hquotes⟩ := hliteral
    exact readString?_literalLines (fun c hc => Bool.eq_false_iff.2 (hcontrol c hc)) hquotes hrest
  split
  · next hnewline =>
    have hlines := readString?_basicLines text hrest
    rwa [if_pos hnewline] at hlines
  · exact readString?_basic text hrest

end ParamQuery.Toml
