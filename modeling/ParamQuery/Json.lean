import ParamQuery.Number.Shortest
import ParamQuery.OrderedMap
import ParamQuery.Text.Split

/-!
# JSON values

Values of the JSON data model whose objects keep the order of their members, and their compact text.

## Main definitions

* `Json` — the values; numbers are whole numbers or finite 64-bit binary ones.
* `Json.render` — the text without white space.
* `Json.keyText?` — the text of a value where a name is needed.
-/

namespace ParamQuery

inductive Json where
  | null
  | bool (b : Bool)
  | int (n : Int)
  | float (x : Binary64)
  | string (s : String)
  | array (items : List Json)
  | object (members : List (String × Json))
  deriving Repr, Inhabited

namespace Json

/-! ## Equality -/

mutual
/-- Whether two values are equal, members in the same order. -/
def same : Json → Json → Bool
  | .null, .null => true
  | .bool a, .bool b => a == b
  | .int a, .int b => a == b
  | .float a, .float b => a == b
  | .string a, .string b => a == b
  | .array a, .array b => sameItems a b
  | .object a, .object b => sameMembers a b
  | _, _ => false

def sameItems : List Json → List Json → Bool
  | [], [] => true
  | a :: as, b :: bs => same a b && sameItems as bs
  | _, _ => false

def sameMembers : List (String × Json) → List (String × Json) → Bool
  | [], [] => true
  | (k, a) :: as, (l, b) :: bs => k == l && same a b && sameMembers as bs
  | _, _ => false
end

mutual
theorem eq_of_same : ∀ a b : Json, same a b = true → a = b
  | .null, b, h => by cases b <;> simp_all [same]
  | .bool _, b, h => by cases b <;> simp_all [same]
  | .int _, b, h => by cases b <;> simp_all [same]
  | .float _, b, h => by cases b <;> simp_all [same]
  | .string _, b, h => by cases b <;> simp_all [same]
  | .array items, b, h => by
    cases b <;> simp only [same, Bool.false_eq_true] at h
    exact congrArg _ (eq_of_sameItems _ _ h)
  | .object members, b, h => by
    cases b <;> simp only [same, Bool.false_eq_true] at h
    exact congrArg _ (eq_of_sameMembers _ _ h)

theorem eq_of_sameItems : ∀ a b : List Json, sameItems a b = true → a = b
  | [], b, h => by cases b <;> simp_all [sameItems]
  | a :: as, b, h => by
    cases b with
    | nil => simp [sameItems] at h
    | cons b bs =>
      simp only [sameItems, Bool.and_eq_true] at h
      rw [eq_of_same a b h.1, eq_of_sameItems as bs h.2]

theorem eq_of_sameMembers : ∀ a b : List (String × Json), sameMembers a b = true → a = b
  | [], b, h => by cases b <;> simp_all [sameMembers]
  | (k, a) :: as, b, h => by
    cases b with
    | nil => simp [sameMembers] at h
    | cons entry bs =>
      obtain ⟨l, b⟩ := entry
      simp only [sameMembers, Bool.and_eq_true, beq_iff_eq] at h
      rw [h.1.1, eq_of_same a b h.1.2, eq_of_sameMembers as bs h.2]
end

mutual
theorem same_self : ∀ a : Json, same a a = true
  | .null => rfl
  | .bool _ => by simp [same]
  | .int _ => by simp [same]
  | .float _ => by simp [same]
  | .string _ => by simp [same]
  | .array items => by simp only [same, sameItems_self items]
  | .object members => by simp only [same, sameMembers_self members]

theorem sameItems_self : ∀ a : List Json, sameItems a a = true
  | [] => rfl
  | a :: as => by simp only [sameItems, same_self a, sameItems_self as, Bool.and_self]

theorem sameMembers_self : ∀ a : List (String × Json), sameMembers a a = true
  | [] => rfl
  | (k, a) :: as => by
    simp only [sameMembers, same_self a, sameMembers_self as, beq_self_eq_true, Bool.and_self]
end

instance : DecidableEq Json := fun a b =>
  if h : same a b = true then isTrue (eq_of_same a b h)
  else isFalse fun e => h (e ▸ same_self a)

/-! ## Building -/

/-- A text as a value, from its characters. -/
def text (chars : List Char) : Json := .string (String.ofList chars)

/-- A finite value is a number, the others have no JSON number and become null. -/
def ofBinary64 (x : Binary64) : Json := if x.isFinite then .float x else .null

/-- An object from its members one after the other; a repeated name keeps its first place and takes
the last value. -/
def ofMembers (members : List (String × Json)) : Json := .object (Assoc.collect members)

/-- An array of texts. -/
def strings (texts : List String) : Json := .array (texts.map .string)

/-- A value, or null where there is none. -/
def ofOption {α : Type} (f : α → Json) : Option α → Json
  | some a => f a
  | none => .null

/-! ## Text -/

/-- Powers of ten from -5 to 15 are written out. -/
def numberLayout : FloatLayout := ⟨-5, 15, 1⟩

/-- A digit of base sixteen, in lower case. -/
def hexDigit (n : Nat) : Char :=
  if n < 10 then Char.ofNat (48 + n) else Char.ofNat (87 + n)

/-- How a character stands inside a quoted text. -/
def escapeChar (c : Char) : List Char :=
  if c = '"' then ['\\', '"']
  else if c = '\\' then ['\\', '\\']
  else if c = '\n' then ['\\', 'n']
  else if c = '\r' then ['\\', 'r']
  else if c = '\t' then ['\\', 't']
  else if c = '\x08' then ['\\', 'b']
  else if c = '\x0c' then ['\\', 'f']
  else if c.toNat < 32 then ['\\', 'u', '0', '0', hexDigit (c.toNat / 16), hexDigit (c.toNat % 16)]
  else [c]

/-- A text between quotes. -/
def quote (s : String) : List Char :=
  '"' :: s.toList.flatMap escapeChar ++ ['"']

mutual
/-- The compact text of a value. -/
def chars : Json → List Char
  | .null => ['n', 'u', 'l', 'l']
  | .bool true => ['t', 'r', 'u', 'e']
  | .bool false => ['f', 'a', 'l', 's', 'e']
  | .int n => (toString n).toList
  | .float x => numberLayout.render x
  | .string s => quote s
  | .array items => '[' :: Text.join [','] (itemChars items) ++ [']']
  | .object members => '\x7b' :: Text.join [','] (memberChars members) ++ ['\x7d']

def itemChars : List Json → List (List Char)
  | [] => []
  | item :: rest => chars item :: itemChars rest

def memberChars : List (String × Json) → List (List Char)
  | [] => []
  | (name, value) :: rest => (quote name ++ ':' :: chars value) :: memberChars rest
end

/-- The compact text of a value. -/
def render (value : Json) : String := String.ofList (chars value)

/-- The text of a value where a name is needed: a text as it is, nothing for null, and the compact
text of any other value. -/
def keyText? : Json → Option String
  | .null => none
  | .string s => some s
  | value => some value.render

example : (Json.object [("a", .array [.int 1, .null])]).render = "\x7b\"a\":[1,null]\x7d" := by
  decide

end Json

end ParamQuery
