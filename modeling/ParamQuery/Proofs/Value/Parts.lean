import ParamQuery.Proofs.Entity

/-!
# Parts of values

A list or an array has its items as parts, a structure its fields and a map the values of its
entries; a union stands for its member. The JSON form of a value has the same parts at the same
places: a path leads to a part of the value exactly if it leads to a part of the JSON form, and the
one is the JSON form of the other.

## Main definitions

* `Step` — to an item by its place, or to a field or an entry by its name.
* `Json.at?`, `Datum.at?` — what a path leads to.

## Main statements

* `Datum.at?_toJson` — the JSON form has the same parts as the value.
-/

namespace ParamQuery

/-- From a value to one of its parts. -/
inductive Step where
  /-- To the item of a list or an array at a place. -/
  | item (index : Nat)
  /-- To the field of a structure or the entry of a map under a name. -/
  | member (name : String)
  deriving DecidableEq, Repr

namespace Json

/-- The part of a value that a step leads to. -/
def part? : Json → Step → Option Json
  | .array items, .item index => items[index]?
  | .object members, .member name => Assoc.get? name members
  | _, _ => none

/-- The part of a value that a path leads to. -/
def at? (value : Json) (path : List Step) : Option Json :=
  path.foldlM part? value

@[simp] theorem at?_cons (value : Json) (step : Step) (path : List Step) :
    value.at? (step :: path) = (value.part? step).bind fun part => part.at? path := rfl

end Json

namespace Datum

/-- The entries of a map, with their names in the place of the keys. -/
def namedEntries (entries : List (Datum × Datum)) : List (String × Datum) :=
  entries.map fun entry => (memberName entry.1.toJson, entry.2)

/-- The part of a value that a step leads to; of several fields or entries of one name it is the
last. -/
def part? : Datum → Step → Option Datum
  | .list items, .item index => items[index]?
  | .array items, .item index => items[index]?
  | .struct fields, .member name => Assoc.get? name fields.reverse
  | .map entries, .member name => Assoc.get? name (namedEntries entries).reverse
  | .union member, step => member.part? step
  | _, _ => none

/-- The part of a value that a path leads to. -/
def at? (d : Datum) (path : List Step) : Option Datum :=
  path.foldlM part? d

@[simp] theorem at?_cons (d : Datum) (step : Step) (path : List Step) :
    d.at? (step :: path) = (d.part? step).bind fun part => part.at? path := rfl

/-! ## The JSON form -/

theorem itemsToJson_eq_map (items : List Datum) : itemsToJson items = items.map toJson := by
  induction items with
  | nil => rfl
  | cons item rest ih => rw [itemsToJson, ih, List.map_cons]

theorem entriesToJson_eq (entries : List (Datum × Datum)) :
    entriesToJson entries = fieldsToJson (namedEntries entries) := by
  induction entries with
  | nil => rfl
  | cons entry rest ih =>
    obtain ⟨key, value⟩ := entry
    rw [entriesToJson, ih]
    rfl

theorem part?_ofMembers (fields : List (String × Datum)) (name : String) :
    (Json.ofMembers (fieldsToJson fields)).part? (.member name) =
      (Assoc.get? name fields.reverse).map toJson := by
  rw [Json.ofMembers, Json.part?, Assoc.get?_collect_eq, fieldsToJson_eq_map, ← List.map_reverse,
    Assoc.get?_map]

/-- Numbers and texts have no parts. -/
theorem part?_ofBinary64 (x : Binary64) (step : Step) : (Json.ofBinary64 x).part? step = none := by
  rw [Json.ofBinary64]
  split <;> rfl

theorem part?_ofOption_text (text? : Option (List Char)) (step : Step) :
    (Json.ofOption Json.text text?).part? step = none := by
  cases text? <;> rfl

theorem part?_hugeJson (n : Int) (step : Step) : (hugeJson n).part? step = none := by
  rw [hugeJson]
  split <;> rfl

theorem part?_timeJson (micros : Int) (step : Step) : (timeJson micros).part? step = none := by
  rw [timeJson]
  split <;> rfl

/-- A step leads to the same part of a value and of its JSON form. -/
theorem part?_toJson (d : Datum) (step : Step) :
    d.toJson.part? step = (d.part? step).map toJson := by
  fun_induction part? d step with
  | case1 items index | case2 items index =>
    rw [toJson, itemsToJson_eq_map, Json.part?, List.getElem?_map]
  | case3 fields name => rw [toJson, part?_ofMembers]
  | case4 entries name => rw [toJson, entriesToJson_eq, part?_ofMembers]
  | case5 member step ih => rw [toJson, ih]
  | case6 d step hlist harray hstruct hmap hunion =>
    -- Here the value has no parts, or the step is not one to a part of such a value.
    cases d with
    | float x => exact part?_ofBinary64 x step
    | decimal unscaled scale => exact part?_ofBinary64 _ step
    | hugeint n => exact part?_hugeJson n step
    | time micros => exact part?_timeJson micros step
    | date days => exact part?_ofOption_text _ step
    | timestamp unit count => exact part?_ofOption_text _ step
    | union member => exact (hunion member rfl).elim
    | list items =>
      cases step with
      | item index => exact (hlist items index rfl rfl).elim
      | member name => rfl
    | array items =>
      cases step with
      | item index => exact (harray items index rfl rfl).elim
      | member name => rfl
    | struct fields =>
      cases step with
      | item index => rfl
      | member name => exact (hstruct fields name rfl rfl).elim
    | map entries =>
      cases step with
      | item index => rfl
      | member name => exact (hmap entries name rfl rfl).elim
    | _ => rfl

/-- The JSON form of a value has the same parts as the value. -/
theorem at?_toJson (d : Datum) (path : List Step) :
    d.toJson.at? path = (d.at? path).map toJson := by
  induction path generalizing d with
  | nil => rfl
  | cons step path ih =>
    rw [Json.at?_cons, at?_cons, part?_toJson]
    cases d.part? step with
    | none => rfl
    | some part => exact ih part

end Datum

end ParamQuery
