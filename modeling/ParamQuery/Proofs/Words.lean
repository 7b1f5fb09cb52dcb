import ParamQuery.Proofs.CanonicalName
import ParamQuery.Text.Split

/-!
# Names made of words

A name of several words can be written in camel, Pascal, kebab or snake case, or with white space
between the words. All of these have the same canonical form, the words with single underscores
between them: the end of a word is a small letter or a digit, so that a capital behind it starts the
next one, and separators stand for one underscore, however many there are.

## Main definitions

* `Word`, `Gap` — a word, and separators between two words.
* `camelCase`, `pascalCase`, `snakeCase`, `gapCase` — words written as one name.
* `Joint`, `written` — the same for words that are joined in different ways.

## Main statements

* `canonicalFrom_joint` — a word behind another, however they are joined.
* `canonicalChars_written` — names whose words are joined in any ways.
* `canonical_of_words` — the canonical form of words in each case.
-/

namespace ParamQuery

open Text

/-! ## Words -/

/-- A small letter of ASCII and then at least one more small letter or digit. -/
structure Word where
  first : Char
  others : List Char
  isLower_first : first.isLower = true
  others_ne_nil : others ≠ []
  small_of_mem : ∀ c ∈ others, c.isLower = true ∨ c.isDigit = true

/-- At least one dash or white space. -/
structure Gap where
  chars : List Char
  ne_nil : chars ≠ []
  separates : ∀ c ∈ chars, c = '-' ∨ isBlank c = true

namespace Word

def chars (word : Word) : List Char := word.first :: word.others

/-- The word with a capital at its start. -/
def capitalized (word : Word) : List Char := word.first.toUpper :: word.others

/-- The last character. -/
def final (word : Word) : Char := word.others.getLast word.others_ne_nil

end Word

/-- The words one after the other, all but the first with a capital at the start. -/
def camelCase : List Word → List Char
  | [] => []
  | word :: words => word.chars ++ words.flatMap Word.capitalized

/-- The words one after the other, each with a capital at the start. -/
def pascalCase (words : List Word) : List Char := words.flatMap Word.capitalized

/-- The words with single underscores between them. -/
def snakeCase (words : List Word) : List Char := join ['_'] (words.map Word.chars)

/-- A word, and words behind gaps: in kebab case the gaps are dashes, between spaced words they are
white space. -/
def gapCase (word : Word) (rest : List (Gap × Word)) : List Char :=
  word.chars ++ rest.flatMap fun item => item.1.chars ++ item.2.chars

/-! ## Characters -/

variable {last previous : Option Char} {c z : Char} {letters separators : List Char}

/-- A small letter of ASCII or a digit is written as it is, and ends a word. -/
theorem canonical_small (h : c.isLower = true ∨ c.isDigit = true) :
    isSeparator c = false ∧ isUpper c = false ∧ endsWord c = true := by
  have hascii : c.toNat < 128 := h.elim ascii_of_isLower fun hdigit =>
    Nat.lt_of_le_of_lt (Char.isDigit_iff_toNat.1 hdigit).2 (by decide)
  exact of_ascii (p := fun c => c.isLower = true ∨ c.isDigit = true →
    isSeparator c = false ∧ isUpper c = false ∧ endsWord c = true) (by decide) hascii h

/-- The capital of a small letter of ASCII becomes that letter again. -/
theorem canonical_capital (h : c.isLower = true) :
    isUpper c.toUpper = true ∧ lowered c.toUpper = [c] :=
  of_ascii (p := fun c => c.isLower = true → isUpper c.toUpper = true ∧ lowered c.toUpper = [c])
    (by decide) (ascii_of_isLower h) h

/-- Small letters and digits are written as they are. -/
theorem canonicalFrom_letters (hne : letters ≠ [])
    (h : ∀ c ∈ letters, c.isLower = true ∨ c.isDigit = true) (text : List Char) :
    canonicalFrom last previous (letters ++ text) =
      letters ++
        canonicalFrom (some (letters.getLast hne)) (some (letters.getLast hne)) text := by
  induction letters generalizing last previous with
  | nil => exact absurd rfl hne
  | cons c rest ih =>
    obtain ⟨hsep, hupper, -⟩ := canonical_small (h c List.mem_cons_self)
    rw [List.cons_append, canonicalFrom_other hsep hupper]
    cases rest with
    | nil => rfl
    | cons d rest =>
      rw [ih (List.cons_ne_nil d rest) fun c hc => h c (List.mem_cons_of_mem _ hc)]
      rfl

/-- Separators are passed over at the start of a name and behind an underscore. -/
theorem canonicalFrom_separators (hlast : last = none ∨ last = some '_')
    (h : ∀ c ∈ separators, isSeparator c = true) (text : List Char) :
    canonicalFrom last (some '_') (separators ++ text) = canonicalFrom last (some '_') text := by
  induction separators with
  | nil => rfl
  | cons c rest ih =>
    have hwritten : (last.isSome && last != some '_') = false := by
      rcases hlast with rfl | rfl <;> decide
    rw [List.cons_append, canonicalFrom_separator (h c List.mem_cons_self), hwritten,
      if_neg (by decide)]
    exact ih fun c hc => h c (List.mem_cons_of_mem _ hc)

/-! ## One word behind another -/

namespace Word

theorem endsWord_final (word : Word) : endsWord word.final = true :=
  (canonical_small (word.small_of_mem _ (List.getLast_mem word.others_ne_nil))).2.2

theorem canonicalFrom_chars (word : Word) (text : List Char) :
    canonicalFrom last previous (word.chars ++ text) =
      word.chars ++ canonicalFrom (some word.final) (some word.final) text := by
  have hsmall : ∀ c ∈ word.chars, c.isLower = true ∨ c.isDigit = true := by
    intro c hc
    rcases List.mem_cons.1 hc with rfl | hc
    · exact .inl word.isLower_first
    · exact word.small_of_mem c hc
  have hne : word.chars ≠ [] := List.cons_ne_nil _ _
  have hfinal : word.chars.getLast hne = word.final := List.getLast_cons word.others_ne_nil
  rw [canonicalFrom_letters hne hsmall, hfinal]

/-- A capital at the start of a word becomes small, behind an underscore if a word ends before. -/
theorem canonicalFrom_capitalized (word : Word) (text : List Char) :
    canonicalFrom last previous (word.capitalized ++ text) =
      (if previous.any endsWord then ['_'] else []) ++
        (word.chars ++ canonicalFrom (some word.final) (some word.final) text) := by
  obtain ⟨hupper, hlowered⟩ := canonical_capital word.isLower_first
  rw [capitalized, List.cons_append, canonicalFrom_capital hupper, hlowered,
    canonicalFrom_letters word.others_ne_nil word.small_of_mem]
  rfl

end Word

/-- At the end of a word a gap is written as one underscore. -/
theorem canonicalFrom_gap (hz : endsWord z = true) (gap : Gap) (text : List Char) :
    canonicalFrom (some z) (some z) (gap.chars ++ text) =
      '_' :: canonicalFrom (some '_') (some '_') text := by
  have hsep : ∀ c ∈ gap.chars, isSeparator c = true := by
    intro c hc
    simpa [isSeparator] using gap.separates c hc
  obtain ⟨c, rest, heq⟩ := List.exists_cons_of_ne_nil gap.ne_nil
  rw [heq] at hsep ⊢
  have hne : z ≠ '_' := by
    rintro rfl
    exact absurd hz (by decide)
  have hrest : ∀ c ∈ rest, isSeparator c = true := fun c hc => hsep c (List.mem_cons_of_mem _ hc)
  rw [List.cons_append, canonicalFrom_separator (hsep c List.mem_cons_self),
    if_pos (by simp [hne]), canonicalFrom_separators (.inr rfl) hrest]

/-- How a word is joined to the one before it. -/
inductive Joint where
  | capital
  | underscore
  | between (gap : Gap)

/-- A word with what joins it to the one before it. -/
def Joint.write : Joint → Word → List Char
  | .capital, word => word.capitalized
  | .underscore, word => '_' :: word.chars
  | .between gap, word => gap.chars ++ word.chars

/-- A word behind another is written behind one underscore, however the two are joined. -/
theorem canonicalFrom_joint (hz : endsWord z = true) (joint : Joint) (word : Word)
    (text : List Char) :
    canonicalFrom (some z) (some z) (joint.write word ++ text) =
      '_' :: (word.chars ++ canonicalFrom (some word.final) (some word.final) text) := by
  cases joint with
  | capital =>
    rw [Joint.write, word.canonicalFrom_capitalized, Option.any_some, if_pos hz]
    rfl
  | underscore =>
    have hsep : isSeparator '_' = false := by decide
    have hupper : isUpper '_' = false := by decide
    rw [Joint.write, List.cons_append, canonicalFrom_other hsep hupper, word.canonicalFrom_chars]
  | between gap =>
    rw [Joint.write, List.append_assoc, canonicalFrom_gap hz, word.canonicalFrom_chars]

/-! ## Names -/

/-- Words behind another, each joined to the one before it as what it is listed with says. -/
def written {α : Type} (joint : α → Joint) (rest : List (α × Word)) : List Char :=
  rest.flatMap fun item => (joint item.1).write item.2

theorem snakeCase_cons (word : Word) (words : List Word) :
    snakeCase (word :: words) = word.chars ++ words.flatMap fun next => '_' :: next.chars := by
  induction words generalizing word with
  | nil => simp [snakeCase, join]
  | cons next words ih =>
    rw [List.flatMap_cons, List.cons_append, ← ih next]
    simp [snakeCase, join]

theorem canonicalFrom_written {α : Type} (joint : α → Joint) (hz : endsWord z = true)
    (rest : List (α × Word)) :
    canonicalFrom (some z) (some z) (written joint rest) =
      (rest.map Prod.snd).flatMap fun next => '_' :: next.chars := by
  induction rest generalizing z with
  | nil => rfl
  | cons item rest ih =>
    have hrest := ih item.2.endsWord_final
    rw [written] at hrest ⊢
    rw [List.flatMap_cons, canonicalFrom_joint hz, hrest, List.map_cons, List.flatMap_cons]
    rfl

/-- At the start of a name it does not matter whether a separator was read. -/
theorem canonicalFrom_start (text : List Char) :
    canonicalFrom none none text = canonicalFrom none (some '_') text := by
  have hends : (some '_').any endsWord = none.any endsWord := by decide
  cases text with
  | nil => rfl
  | cons c rest => rw [canonicalFrom, canonicalFrom, hends]

/-- A name with separators in front, a word with or without a capital at its start, and words that
are joined to it in any ways. -/
theorem canonicalChars_written {α : Type} (joint : α → Joint)
    (hsep : ∀ c ∈ separators, isSeparator c = true) (word : Word) (rest : List (α × Word))
    (hfirst : letters = word.chars ∨ letters = word.capitalized) :
    canonicalChars (separators ++ (letters ++ written joint rest)) =
      snakeCase (word :: rest.map Prod.snd) := by
  have hends : (some '_').any endsWord = false := by decide
  rw [canonicalChars, canonicalFrom_start, canonicalFrom_separators (.inl rfl) hsep, snakeCase_cons]
  rcases hfirst with rfl | rfl
  · rw [word.canonicalFrom_chars, canonicalFrom_written joint word.endsWord_final]
  · rw [word.canonicalFrom_capitalized, hends, if_neg (by decide), List.nil_append,
      canonicalFrom_written joint word.endsWord_final]

/-- Words in camel, Pascal, snake and kebab case, and words with white space between them, have the
same canonical form: the words with single underscores between them. A gap may hold any number of
dashes and of white space, and so may the front of a name with gaps. -/
theorem canonical_of_words (word : Word) (rest : List (Gap × Word)) (front : List Char)
    (hfront : ∀ c ∈ front, c = '-' ∨ isBlank c = true) :
    let words := word :: rest.map Prod.snd
    let name := String.ofList (snakeCase words)
    canonical (String.ofList (camelCase words)) = name ∧
      canonical (String.ofList (pascalCase words)) = name ∧
      canonical (String.ofList (front ++ gapCase word rest)) = name ∧
      canonical name = name := by
  have hcanonical (text : List Char) :
      canonical (String.ofList text) = String.ofList (canonicalChars text) := by
    rw [canonical, String.toList_ofList]
  have hnone : ∀ c ∈ [], isSeparator c = true := List.forall_mem_nil _
  have hsep : ∀ c ∈ front, isSeparator c = true := fun c hc => by
    simpa [isSeparator] using hfront c hc
  dsimp only
  simp only [hcanonical, String.ofList_inj]
  refine ⟨?camel, ?pascal, ?gaps, ?snake⟩
  case camel =>
    have hwritten := canonicalChars_written (fun _ => .capital) hnone word rest (.inl rfl)
    rwa [written, ← List.flatMap_map] at hwritten
  case pascal =>
    have hwritten := canonicalChars_written (fun _ => .capital) hnone word rest (.inr rfl)
    rwa [written, ← List.flatMap_map] at hwritten
  case gaps => exact canonicalChars_written .between hsep word rest (.inl rfl)
  case snake =>
    have hwritten := canonicalChars_written (fun _ => .underscore) hnone word rest (.inl rfl)
    rw [snakeCase_cons] at hwritten ⊢
    rwa [written, ← List.flatMap_map] at hwritten

/-- The word `user`. -/
def userWord : Word := ⟨'u', ['s', 'e', 'r'], by decide, by decide, by simp⟩

/-- The word `p2`, with a digit at its end. -/
def p2Word : Word := ⟨'p', ['2'], by decide, by decide, by simp⟩

/-- The word `id`. -/
def idWord : Word := ⟨'i', ['d'], by decide, by decide, by simp⟩

/-- Dashes and two kinds of white space. -/
def wideGap : Gap := ⟨['-', '-', '\u3000', '\t'], by decide, by simp [isBlank]⟩

/-- Two dashes. -/
def dashes : Gap := ⟨['-', '-'], by decide, by simp⟩

theorem canonical_of_userP2Id :
    camelCase [userWord, p2Word, idWord] = "userP2Id".toList ∧
      pascalCase [userWord, p2Word, idWord] = "UserP2Id".toList ∧
      gapCase userWord [(dashes, p2Word), (wideGap, idWord)] = "user--p2--\u3000\tid".toList ∧
      canonical "userP2Id" = "user_p2_id" ∧ canonical "UserP2Id" = "user_p2_id" ∧
      canonical " -user--p2--\u3000\tid" = "user_p2_id" ∧
      canonical "user_p2_id" = "user_p2_id" :=
  ⟨rfl, rfl, rfl,
    canonical_of_words userWord [(dashes, p2Word), (wideGap, idWord)] [' ', '-']
      (by simp [isBlank])⟩

end ParamQuery
