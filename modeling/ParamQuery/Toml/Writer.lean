import ParamQuery.Text.Numeral

/-!
# Writing TOML strings

The written form of a text: the first of several kinds of quotes in which it needs no escapes, and
quotes with escapes if there is none.
-/

namespace ParamQuery.Toml

open Text

/-- The length of the longest run of a character. -/
def longestRun (c : Char) (text : List Char) : Nat :=
  (text.foldl (fun (best, current) x =>
    let current := if x = c then current + 1 else 0
    (max best current, current)) (0, 0)).1

/-- Whether a character can only stand in a string as an escape; a tab and a line end can stand in
some strings. -/
def isControl (c : Char) : Bool :=
  (c.toNat < 32 && c != '\t' && c != '\n') || c.toNat == 127

/-- A digit of base sixteen, in upper case. -/
def hexDigit (n : Nat) : Char :=
  if n < 10 then Char.ofNat (48 + n) else Char.ofNat (55 + n)

/-- How a character that is no quote stands between double quotes. -/
def escapeChar (multiline : Bool) (c : Char) : List Char :=
  if c = '\\' then ['\\', '\\']
  else if c = '\x08' then ['\\', 'b']
  else if c = '\t' then ['\\', 't']
  else if c = '\n' then (if multiline then ['\n'] else ['\\', 'n'])
  else if c = '\x0c' then ['\\', 'f']
  else if c = '\r' then ['\\', 'r']
  else if c.toNat < 32 ∨ c.toNat = 127 then
    ['\\', 'u', '0', '0', hexDigit (c.toNat / 16), hexDigit (c.toNat % 16)]
  else [c]

/-- A text between double quotes. On one line every quote is escaped, on several lines every third
of a run, after `run` quotes. -/
def escape (multiline : Bool) : Nat → List Char → List Char
  | _, [] => []
  | run, c :: rest =>
    if c = '"' then
      if (if multiline then 2 else 0) ≤ run then '\\' :: '"' :: escape multiline 0 rest
      else '"' :: escape multiline (run + 1) rest
    else escapeChar multiline c ++ escape multiline 0 rest

/-- The written form of a text. -/
def writeString (text : List Char) : List Char :=
  let control := text.any isControl
  let backslash := text.contains '\\'
  let newline := text.contains '\n'
  let doubles := longestRun '"' text
  let singles := longestRun '\'' text
  let start := if newline then ['\n'] else []
  if !control && !backslash && doubles = 0 && !newline then
    ['"'] ++ escape false 0 text ++ ['"']
  else if !control && singles = 0 && !newline then
    ['\''] ++ text ++ ['\'']
  else if !control && !backslash && doubles ≤ 2 then
    ['"', '"', '"'] ++ start ++ escape true 0 text ++ ['"', '"', '"']
  else if !control && singles ≤ 2 then
    ['\'', '\'', '\''] ++ start ++ text ++ ['\'', '\'', '\'']
  else if newline then
    ['"', '"', '"'] ++ start ++ escape true 0 text ++ ['"', '"', '"']
  else
    ['"'] ++ escape false 0 text ++ ['"']

example : writeString "id.asc".toList = "\"id.asc\"".toList := by decide
example : writeString "a\\b".toList = "'a\\b'".toList := by decide

end ParamQuery.Toml
