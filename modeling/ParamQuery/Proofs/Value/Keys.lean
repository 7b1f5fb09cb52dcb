import ParamQuery.Proofs.Value.Forms

/-!
# Keys of maps

A map becomes an object whose members are named by the texts of the keys. An entry is lost if a
later one has a key with the same text, and only then. Keys with different JSON forms have different
texts, unless one of them is a text itself, as in a map whose keys are unions.

## Main definitions

* `Datum.keyText` — the text of a key.
* `Json.Quotes` — a text is the compact text of another value.

## Main statements

* `Datum.keyText_eq_iff` — which keys have the same text.
* `Datum.entries_of_map` — the members of the object of a map.
-/

namespace ParamQuery

namespace Json

/-- The first value is a text, namely that of the second, which is none. -/
def Quotes (value value' : Json) : Prop :=
  ∃ s, value = .string s ∧ (∀ t, value' ≠ .string t) ∧ value'.render = s

end Json

namespace Datum

theorem memberName_of_ne_string {value : Json} (h : ∀ s, value ≠ .string s) :
    memberName value = value.render := by
  cases value with
  | null => decide
  | string s => exact absurd rfl (h s)
  | _ => rfl

theorem memberName_eq_of_quotes {value value' : Json} (h : value.Quotes value') :
    memberName value = memberName value' := by
  obtain ⟨s, rfl, hne, hs⟩ := h
  rw [memberName_of_ne_string hne, hs]
  rfl

/-- Names tell values apart, but for texts that are those of other values. -/
theorem memberName_eq_iff {value value' : Json} (h : value.Proper) (h' : value'.Proper) :
    memberName value = memberName value' ↔
      value = value' ∨ value.Quotes value' ∨ value'.Quotes value := by
  constructor
  · intro hname
    by_cases hstring : ∃ s, value = .string s
    · obtain ⟨s, rfl⟩ := hstring
      by_cases hstring' : ∃ s', value' = .string s'
      · obtain ⟨s', rfl⟩ := hstring'
        exact .inl (congrArg Json.string hname)
      · rw [not_exists] at hstring'
        rw [memberName_of_ne_string hstring'] at hname
        exact .inr (.inl ⟨s, rfl, hstring', hname.symm⟩)
    · rw [not_exists] at hstring
      rw [memberName_of_ne_string hstring] at hname
      by_cases hstring' : ∃ s', value' = .string s'
      · obtain ⟨s', rfl⟩ := hstring'
        exact .inr (.inr ⟨s', rfl, hstring, hname⟩)
      · rw [not_exists] at hstring'
        rw [memberName_of_ne_string hstring'] at hname
        exact .inl (Json.render_inj h h' hname)
  · rintro (rfl | hquotes | hquotes)
    · rfl
    · exact memberName_eq_of_quotes hquotes
    · exact (memberName_eq_of_quotes hquotes).symm

/-- The text of a key. -/
def keyText (key : Datum) : String := memberName key.toJson

theorem keyText_eq_iff {key key' : Datum} :
    key.keyText = key'.keyText ↔
      key.Alike key' ∨ key.toJson.Quotes key'.toJson ∨ key'.toJson.Quotes key.toJson := by
  rw [keyText, keyText, memberName_eq_iff (proper_toJson key) (proper_toJson key'), toJson_eq_iff]

/-- The texts of the keys of a map. -/
def keyTexts (entries : List (Datum × Datum)) : List String :=
  entries.map fun entry => entry.1.keyText

theorem keys_entriesToJson (entries : List (Datum × Datum)) :
    Assoc.keys (entriesToJson entries) = keyTexts entries := by
  rw [entriesToJson_eq, Record.keys_fieldsToJson, namedEntries, List.map_map]
  rfl

theorem entriesToJson_eq_map (entries : List (Datum × Datum)) :
    entriesToJson entries = entries.map fun entry => (entry.1.keyText, entry.2.toJson) := by
  rw [entriesToJson_eq, fieldsToJson_eq_map, namedEntries, List.map_map]
  rfl

/-- The object of a map has a member for each text of a key, in the order in which the texts first
come, with the JSON form of the last value under it. So no entry is lost exactly if the texts of the
keys differ, and then the members are those of the entries, one by one. Two keys have the same text
if they have the same JSON form, or if one is a text and the other is not and is written like it. -/
theorem entries_of_map (entries : List (Datum × Datum)) :
    ∃ members, (map entries).toJson = .object members ∧
      Assoc.keys members = (keyTexts entries).eraseDups ∧
      (∀ text, Assoc.get? text members =
        Assoc.get? text (entries.map fun entry => (entry.1.keyText, entry.2.toJson)).reverse) ∧
      (members.length = entries.length ↔ (keyTexts entries).Nodup) ∧
      ((keyTexts entries).Nodup →
        members = entries.map fun entry => (entry.1.keyText, entry.2.toJson)) ∧
      ∀ key key' : Datum, key.keyText = key'.keyText ↔
        key.Alike key' ∨ key.toJson.Quotes key'.toJson ∨ key'.toJson.Quotes key.toJson := by
  refine ⟨Assoc.collect (entriesToJson entries), rfl, ?_, fun text => ?_, ?_, fun hnodup => ?_,
    fun _ _ => keyText_eq_iff⟩
  · rw [Assoc.keys_collect, keys_entriesToJson]
  · rw [Assoc.get?_collect_eq, entriesToJson_eq_map]
  · have hlength : (entriesToJson entries).length = entries.length := by
      rw [entriesToJson_eq_map, List.length_map]
    rw [← keys_entriesToJson, ← Assoc.length_collect_iff, hlength]
  · rw [Assoc.collect_eq_self (by rwa [keys_entriesToJson]), entriesToJson_eq_map]

/-- Different keys with the same text: instants in the same microsecond, decimal numbers with a
fraction and the same nearest binary number, values without a form of their own, and lists of
such. -/
def collidingKeys : List (Datum × Datum) :=
  [(.timestamp .nanosecond 1, .timestamp .nanosecond 2),
    (.decimal 99999999999999999999999999999999999999 1 (by decide),
      .decimal 99999999999999999999999999999999999998 1 (by decide)),
    (.float .nan, .float (.infinity false)),
    (.list [.timestamp .nanosecond 1, .float .nan], .list [.timestamp .nanosecond 2, .null])]

/-- The first of two entries with such keys is lost. -/
theorem entry_lost :
    (collidingKeys.map fun keys => same keys.1 keys.2) = [false, false, false, false] ∧
      (collidingKeys.map fun keys =>
        (map [(keys.1, .integer 1), (keys.2, .integer 2)]).toJson) =
        [.object [("1970-01-01T00:00:00Z", .int 2)], .object [("1e+37", .int 2)],
          .object [("null", .int 2)], .object [("[\"1970-01-01T00:00:00Z\",null]", .int 2)]] := by
  decide +kernel

end Datum

end ParamQuery
