import ParamQuery.Text.Letter

/-!
# Search patterns

Patterns in which `%` stands for any text and `_` for any character, with a backslash before a
character that stands for itself.

## Main definitions

* `Pattern.parse?` — the parts of a pattern.
* `Pattern.accepts` — whether a text fits.
* `Pattern.escape` — a text as a pattern for itself.
-/

namespace ParamQuery

/-- A part of a pattern. -/
inductive PatternPart where
  | anything
  | anyChar
  | char (c : Char)
  deriving DecidableEq, Repr

namespace Pattern

/-- The parts of a pattern; none if it ends in a single backslash. -/
def parse? : List Char → Option (List PatternPart)
  | [] => some []
  | '%' :: rest => (parse? rest).map (.anything :: ·)
  | '_' :: rest => (parse? rest).map (.anyChar :: ·)
  | ['\\'] => none
  | '\\' :: c :: rest => (parse? rest).map (.char c :: ·)
  | c :: rest => (parse? rest).map (.char c :: ·)

/-- A text and all that is left of it after taking characters from its start. -/
def suffixes : List Char → List (List Char)
  | [] => [[]]
  | c :: rest => (c :: rest) :: suffixes rest

/-- Whether a text fits the parts of a pattern. -/
def accepts : List PatternPart → List Char → Bool
  | [], text => text.isEmpty
  | .anything :: parts, text => (suffixes text).any (accepts parts)
  | .anyChar :: parts, text =>
    match text with
    | [] => false
    | _ :: rest => accepts parts rest
  | .char c :: parts, text =>
    match text with
    | [] => false
    | d :: rest => c == d && accepts parts rest

/-- Whether a text fits a pattern when both are in lower case; a pattern without parts fits none. -/
def acceptsFolded (pattern text : List Char) : Bool :=
  match parse? (Text.foldCase pattern) with
  | some parts => accepts parts (Text.foldCase text)
  | none => false

/-- A text with a backslash before the characters that patterns give a meaning to. -/
def escape : List Char → List Char
  | [] => []
  | c :: rest =>
    if c = '%' ∨ c = '_' ∨ c = '\\' then '\\' :: c :: escape rest else c :: escape rest

/-- The pattern for texts that contain a text. -/
def containing (text : String) : String :=
  String.ofList ('%' :: escape text.toList ++ ['%'])

theorem parse?_escape_append (text rest : List Char) :
    parse? (escape text ++ rest) = (parse? rest).map (text.map PatternPart.char ++ ·) := by
  induction text with
  | nil => simp [escape]
  | cons c text ih =>
    unfold escape
    split
    · simp [parse?, ih, Function.comp_def]
    · next h =>
      simp only [not_or] at h
      have hc : parse? (c :: (escape text ++ rest)) =
          (parse? (escape text ++ rest)).map (.char c :: ·) := by
        rw [parse?]
        · simp [h.1]
        · simp [h.2.1]
        · exact fun e => absurd e h.2.2
        · exact fun _ _ e => absurd e h.2.2
      simp [hc, ih, Function.comp_def]

end Pattern

end ParamQuery
