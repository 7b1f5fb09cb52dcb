import ParamQuery.Calendar
import ParamQuery.Text.Split
import ParamQuery.Toml.Node

/-!
# Reading TOML

The grammar of TOML 1.0: keys, values, headers and comments. Each reader takes the characters that
are left and gives what it read with the characters after it, or nothing if they do not fit.

## Main definitions

* `Toml.readString?` — the four kinds of strings.
* `Toml.readScalar?` — numbers, truth values, dates and times.
* `Toml.readValue?` — values, nested up to a depth.
* `Toml.read?` — a whole document.
-/

namespace ParamQuery.Toml

open Text

/-! ## Characters -/

/-- A space or a tab. -/
def isSpace (c : Char) : Bool := c == ' ' || c == '\t'

def skipSpace (text : List Char) : List Char := text.dropWhile isSpace

/-- A character that may stand unescaped in a comment or a string: not a control character, except a
tab. -/
def isPlain (c : Char) : Bool := (32 ≤ c.toNat || c == '\t') && c.toNat != 127

/-- What follows a line end, if one comes here. -/
def newline? : List Char → Option (List Char)
  | '\n' :: rest => some rest
  | '\r' :: '\n' :: rest => some rest
  | _ => none

/-- What follows a comment, if one comes here. -/
def skipComment : List Char → List Char
  | '#' :: rest => rest.dropWhile isPlain
  | text => text

/-- Skips spaces, comments and line ends, at most `fuel` of them. -/
def skipBlank : Nat → List Char → List Char
  | 0, text => text
  | fuel + 1, text =>
    let rest := skipComment (skipSpace text)
    match newline? rest with
    | some rest => skipBlank fuel rest
    | none => rest

/-! ## Strings -/

/-- The value of a digit of base sixteen. -/
def hexValue? (c : Char) : Option Nat :=
  if c.isDigit then some (c.toNat - 48)
  else if 'a' ≤ c ∧ c ≤ 'f' then some (c.toNat - 87)
  else if 'A' ≤ c ∧ c ≤ 'F' then some (c.toNat - 55)
  else none

/-- The number that digits of a base stand for. -/
def digitsOf? (base : Nat) (digits : List Char) : Option Nat :=
  digits.foldlM (fun n c => do
    let d ← hexValue? c
    if d < base then some (base * n + d) else none) 0

/-- The character with this code, written in base sixteen. -/
def escaped? (digits : List Char) : Option Char := do
  let n ← digitsOf? 16 digits
  if n.isValidChar then some (Char.ofNat n) else none

/-- The character that a one letter escape stands for. -/
def shortEscape? (c : Char) : Option Char :=
  if c = 'b' then some '\x08'
  else if c = 't' then some '\t'
  else if c = 'n' then some '\n'
  else if c = 'f' then some '\x0c'
  else if c = 'r' then some '\r'
  else if c = '"' then some '"'
  else if c = '\\' then some '\\'
  else none

/-- Puts a character in front of a text that was read. -/
def push (c : Char) (read : Option (List Char × List Char)) : Option (List Char × List Char) :=
  read.map fun found => (c :: found.1, found.2)

/-- The rest of a string between double quotes. -/
def readBasic? : List Char → Option (List Char × List Char)
  | [] => none
  | '"' :: rest => some ([], rest)
  | '\\' :: 'u' :: a :: b :: c :: d :: rest =>
    (escaped? [a, b, c, d]).bind fun x => push x (readBasic? rest)
  | '\\' :: 'U' :: a :: b :: c :: d :: e :: f :: g :: h :: rest =>
    (escaped? [a, b, c, d, e, f, g, h]).bind fun x => push x (readBasic? rest)
  | '\\' :: c :: rest => (shortEscape? c).bind fun x => push x (readBasic? rest)
  | c :: rest => if isPlain c && c != '\\' then push c (readBasic? rest) else none

/-- The rest of a string between single quotes. -/
def readLiteral? : List Char → Option (List Char × List Char)
  | [] => none
  | '\'' :: rest => some ([], rest)
  | c :: rest => if isPlain c then push c (readLiteral? rest) else none

/-- Whether only spaces stand before the next line end. -/
def endsLine (text : List Char) : Bool := (newline? (skipSpace text)).isSome

/-- The rest of a string between triple double quotes. A backslash at the end of a line skips to the
next character that is no white space. Up to two quotes may stand before the closing ones. -/
def readBasicLines? : Bool → List Char → Option (List Char × List Char)
  | _, [] => none
  | true, '\r' :: '\n' :: rest => readBasicLines? true rest
  | _, '"' :: '"' :: '"' :: '"' :: '"' :: rest => some (['"', '"'], rest)
  | _, '"' :: '"' :: '"' :: '"' :: rest => some (['"'], rest)
  | _, '"' :: '"' :: '"' :: rest => some ([], rest)
  | _, '\\' :: 'u' :: a :: b :: c :: d :: rest =>
    (escaped? [a, b, c, d]).bind fun x => push x (readBasicLines? false rest)
  | _, '\\' :: 'U' :: a :: b :: c :: d :: e :: f :: g :: h :: rest =>
    (escaped? [a, b, c, d, e, f, g, h]).bind fun x => push x (readBasicLines? false rest)
  | _, '\\' :: c :: rest =>
    if endsLine (c :: rest) then readBasicLines? true (c :: rest)
    else (shortEscape? c).bind fun x => push x (readBasicLines? false rest)
  | false, '\r' :: '\n' :: rest => push '\n' (readBasicLines? false rest)
  | skipping, c :: rest =>
    if skipping && (isSpace c || c == '\n') then readBasicLines? true rest
    else if (isPlain c || c == '\n') && c != '\\' then push c (readBasicLines? false rest)
    else none

/-- The rest of a string between triple single quotes. -/
def readLiteralLines? : List Char → Option (List Char × List Char)
  | [] => none
  | '\'' :: '\'' :: '\'' :: '\'' :: '\'' :: rest => some (['\'', '\''], rest)
  | '\'' :: '\'' :: '\'' :: '\'' :: rest => some (['\''], rest)
  | '\'' :: '\'' :: '\'' :: rest => some ([], rest)
  | '\r' :: '\n' :: rest => push '\n' (readLiteralLines? rest)
  | c :: rest => if isPlain c || c == '\n' then push c (readLiteralLines? rest) else none

/-- The text without the line end that directly follows triple quotes. -/
def skipFirstNewline (text : List Char) : List Char := (newline? text).getD text

/-- A string on one line. -/
def readLineString? : List Char → Option (List Char × List Char)
  | '"' :: rest => readBasic? rest
  | '\'' :: rest => readLiteral? rest
  | _ => none

/-- A string of any kind. -/
def readString? : List Char → Option (List Char × List Char)
  | '"' :: '"' :: '"' :: rest => readBasicLines? false (skipFirstNewline rest)
  | '\'' :: '\'' :: '\'' :: rest => readLiteralLines? (skipFirstNewline rest)
  | text => readLineString? text

/-! ## Numbers, truth values, dates and times -/

/-- Digits of a base with single underscores between them, and their number. -/
def grouped? (base : Nat) (text : List Char) : Option Nat :=
  let groups := splitOn '_' text
  if groups.any List.isEmpty then none else digitsOf? base groups.flatten

/-- Whether decimal digits have no needless zero in front. -/
def isTight : List Char → Bool
  | '0' :: _ :: _ => false
  | _ => true

/-- Splits off an optional sign. -/
def splitSign : List Char → Bool × List Char
  | '-' :: rest => (true, rest)
  | '+' :: rest => (false, rest)
  | text => (false, text)

/-- A whole number of 64 bits. Hexadecimal, octal and binary numbers have no sign. -/
def integerOf? (text : List Char) : Option Int :=
  let size : Option Int := match text with
    | '0' :: 'x' :: digits => (grouped? 16 digits).map Int.ofNat
    | '0' :: 'o' :: digits => (grouped? 8 digits).map Int.ofNat
    | '0' :: 'b' :: digits => (grouped? 2 digits).map Int.ofNat
    | _ =>
      let (negative, digits) := splitSign text
      if isTight digits then
        (grouped? 10 digits).map fun (n : Nat) => if negative then -(n : Int) else (n : Int)
      else none
  size.filter IntegerType.int64.holds

/-- A number with a fraction or a power of ten, or one of the words for values that are no numbers.
A number too large to be told from infinity is refused, unless it is negative. -/
def floatOf? (text : List Char) : Option Binary64 :=
  let (negative, size) := splitSign text
  if size = ['i', 'n', 'f'] then some (.infinity negative)
  else if size = ['n', 'a', 'n'] then some .nan
  else
    let isMark (c : Char) : Bool := c == 'e' || c == 'E'
    let significand := size.takeWhile fun c => !isMark c
    let power := size.dropWhile fun c => !isMark c
    let (whole, fraction) := (splitFirst '.' significand).getD (significand, ['0'])
    let powerDigits := if power.isEmpty then ['0'] else (splitSign (power.drop 1)).2
    if (power.isEmpty && !significand.contains '.') || !isTight whole then none
    else if ([whole, fraction, powerDigits].all fun part => (grouped? 10 part).isSome) then
      (Binary64.read? .double (text.filter (· != '_'))).filter fun x => x.isFinite || x.negative
    else none

/-- A number of exactly this many digits. -/
def fixed? (width : Nat) (text : List Char) : Option Nat :=
  if text.length = width then natural? text else none

/-- Whether a text is a date: four, two and two digits with hyphens. -/
def isDate (text : List Char) : Bool :=
  match splitOn '-' text with
  | [year, month, day] =>
    match fixed? 4 year, fixed? 2 month, fixed? 2 day with
    | some year, some month, some day => Date.isValid ⟨year, month, day⟩
    | _, _, _ => false
  | _ => false

/-- Whether a text is a time of day with seconds and an optional fraction of them. -/
def isTime (text : List Char) : Bool :=
  let (whole, fraction) := (splitFirst '.' text).getD (text, ['0'])
  match splitOn ':' whole with
  | [hour, minute, second] =>
    match fixed? 2 hour, fixed? 2 minute, fixed? 2 second with
    | some hour, some minute, some second =>
      hour < 24 && minute < 60 && second ≤ 60 && (natural? fraction).isSome
    | _, _, _ => false
  | _ => false

/-- Whether a text is a distance from universal time. -/
def isOffset : List Char → Bool
  | ['Z'] | ['z'] => true
  | sign :: rest =>
    (sign == '+' || sign == '-') &&
      match splitOn ':' rest with
      | [hour, minute] =>
        match fixed? 2 hour, fixed? 2 minute with
        | some hour, some minute => hour < 24 && minute < 60
        | _, _ => false
      | _ => false
  | [] => false

/-- Whether a text is a time of day, which an offset may follow. -/
def isOffsetTime (text : List Char) : Bool :=
  let inTime (c : Char) : Bool := c.isDigit || c == ':' || c == '.'
  let offset := text.dropWhile inTime
  isTime (text.takeWhile inTime) && (offset.isEmpty || isOffset offset)

/-- Whether a text is a date, a time of day, or both with a letter or a space between them. -/
def isDateTime (text : List Char) : Bool :=
  isDate text || isTime text ||
    (isDate (text.take 10) &&
      match text.drop 10 with
      | c :: rest => (c == 'T' || c == 't' || c == ' ') && isOffsetTime rest
      | [] => false)

/-- Whether a character can belong to a number, a word, a date or a time. -/
def isWordChar (c : Char) : Bool :=
  c.isAlphanum || c == '+' || c == '-' || c == '_' || c == '.' || c == ':'

/-- The characters of a number, a word, a date or a time, and the rest. A date may be followed by a
space and a time. -/
def splitWord (text : List Char) : List Char × List Char :=
  let word := text.takeWhile isWordChar
  match text.dropWhile isWordChar with
  | ' ' :: c :: rest =>
    if isDate word && c.isDigit then
      let time := (c :: rest).takeWhile isWordChar
      (word ++ ' ' :: time, (c :: rest).dropWhile isWordChar)
    else (word, ' ' :: c :: rest)
  | rest => (word, rest)

/-- A value that is neither a string nor made of other values. -/
def readScalar? (text : List Char) : Option (Node × List Char) := do
  let (word, rest) := splitWord text
  let node : Option Node :=
    if word = ['t', 'r', 'u', 'e'] then some (.boolean true)
    else if word = ['f', 'a', 'l', 's', 'e'] then some (.boolean false)
    else if isDateTime word then some (.datetime (String.ofList word))
    else
      match integerOf? word with
      | some n => some (.integer n)
      | none => (floatOf? word).map .float
  node.map fun node => (node, rest)

/-! ## Keys -/

/-- A character of a key without quotes. -/
def isBareKey (c : Char) : Bool := c.isAlphanum || c == '_' || c == '-'

/-- One part of a key. -/
def readKeyPart? (text : List Char) : Option (String × List Char) :=
  match text with
  | '"' :: _ | '\'' :: _ => (readLineString? text).map fun (key, rest) => (String.ofList key, rest)
  | _ =>
    let key := text.takeWhile isBareKey
    if key.isEmpty then none else some (String.ofList key, text.dropWhile isBareKey)

/-- The parts of a key, with points between them; at most `fuel` of them. -/
def readKeyParts? : Nat → List Char → Option (List String × List Char)
  | 0, _ => none
  | fuel + 1, text => do
    let (part, rest) ← readKeyPart? (skipSpace text)
    match skipSpace rest with
    | '.' :: rest =>
      let (parts, rest) ← readKeyParts? fuel rest
      pure (part :: parts, rest)
    | rest => pure ([part], rest)

/-- The deepest nesting of keys and of values. -/
def depthLimit : Nat := 79

/-- A key: the parts before its last part, and that part. -/
def readKey? (text : List Char) : Option (List String × String × List Char) := do
  let (parts, rest) ← readKeyParts? depthLimit text
  let key ← parts.getLast?
  pure (parts.dropLast, key, rest)

/-! ## Values -/

/-- A key, an equals sign and a value. -/
def readPair? (value : List Char → Option (Node × List Char)) (text : List Char) :
    Option (Pair × List Char) := do
  let (path, key, rest) ← readKey? text
  match rest with
  | '=' :: rest =>
    let (node, rest) ← value (skipSpace rest)
    pure (⟨path, key, node⟩, rest)
  | _ => none

/-- The rest of an array, in which blanks, comments and line ends may stand anywhere and a comma may
follow the last item; at most `fuel` items. -/
def readItems? (value : List Char → Option (Node × List Char)) :
    Nat → List Char → Option (List Node × List Char)
  | 0, _ => none
  | fuel + 1, text =>
    match skipBlank text.length text with
    | ']' :: rest => some ([], rest)
    | rest => do
      let (item, rest) ← value rest
      match skipBlank rest.length rest with
      | ',' :: rest =>
        let (items, rest) ← readItems? value fuel rest
        pure (item :: items, rest)
      | ']' :: rest => pure ([item], rest)
      | _ => none

/-- The pairs of a table in braces, up to the closing one; at most `fuel` of them. -/
def readInlinePairs? (value : List Char → Option (Node × List Char)) :
    Nat → List Char → Option (List Pair × List Char)
  | 0, _ => none
  | fuel + 1, text => do
    let (pair, rest) ← readPair? value text
    match skipSpace rest with
    | ',' :: rest =>
      let (pairs, rest) ← readInlinePairs? value fuel rest
      pure (pair :: pairs, rest)
    | '\x7d' :: rest => pure ([pair], rest)
    | _ => none

/-- A value with at most `depth` arrays and tables around each other. -/
def readValue? (depth : Nat) (text : List Char) : Option (Node × List Char) :=
  match text, depth with
  | '"' :: _, _ | '\'' :: _, _ =>
    (readString? text).map fun (s, rest) => (.string (String.ofList s), rest)
  | '[' :: _, 0 | '\x7b' :: _, 0 => none
  | '[' :: rest, depth + 1 =>
    (readItems? (readValue? depth) text.length rest).map fun (items, rest) => (.array items, rest)
  | '\x7b' :: rest, depth + 1 =>
    match skipSpace rest with
    | '\x7d' :: rest => some (.inlined [], rest)
    | rest => do
      let (pairs, rest) ← readInlinePairs? (readValue? depth) text.length rest
      let entries ← insertPairs pairs []
      pure (.inlined entries, rest)
  | text, _ => readScalar? text

/-! ## Documents -/

/-- A header in single or double brackets. -/
def readHeader? : List Char → Option (Header × List Char)
  | '[' :: '[' :: rest => do
    let (path, key, rest) ← readKey? rest
    match rest with
    | ']' :: ']' :: rest => pure (⟨true, path, key⟩, rest)
    | _ => none
  | '[' :: rest => do
    let (path, key, rest) ← readKey? rest
    match rest with
    | ']' :: rest => pure (⟨false, path, key⟩, rest)
    | _ => none
  | _ => none

/-- What a line defines. -/
def readLine? (text : List Char) : Option (Line × List Char) :=
  match text with
  | '[' :: _ => (readHeader? text).map fun (header, rest) => (.header header, rest)
  | _ => (readPair? (readValue? depthLimit) text).map fun (pair, rest) => (.pair pair, rest)

/-- The lines of a document, at most `fuel` of them. -/
def readLines? : Nat → List Char → Option (List Line)
  | 0, _ => none
  | fuel + 1, text =>
    match skipBlank text.length text with
    | [] => some []
    | rest => do
      let (line, rest) ← readLine? rest
      match skipComment (skipSpace rest) with
      | [] => pure [line]
      | rest =>
        let rest ← newline? rest
        let lines ← readLines? fuel rest
        pure (line :: lines)

/-- The entries of a document. -/
def read? (text : String) : Option Entries := do
  let chars := match text.toList with
    | '\ufeff' :: rest => rest
    | chars => chars
  let lines ← readLines? (chars.length + 1) chars
  assemble lines

end ParamQuery.Toml
