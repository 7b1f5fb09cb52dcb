import Mathlib.Data.List.Nodup
import ParamQuery.Proofs.Result
import ParamQuery.Validation

/-!
# Names as sent

The parameters of a request may be spelled in several ways. Their canonical names are accepted if
each of them is declared and none is sent twice; then what is read under a canonical name is what
was sent under one of its spellings.

## Main definitions

* `canonicalEntries` — the parameters by canonical name, without the suppression parameter.
* `Params.Sends` — a parameter is sent with a value, in some spelling.

## Main statements

* `canonicalParams_eq_ok_iff` — when the names of a request are accepted, and what is read then.
* `Params.get?_iff_sends` — what is read under a name is what was sent.
-/

namespace ParamQuery

/-- The parameters by canonical name, in the order sent, without spellings of the suppression
parameter. -/
def canonicalEntries (entries : List (String × ParamValue)) : List (String × ParamValue) :=
  (entries.filter fun entry => !isSuppression entry.1).map fun entry =>
    (canonical entry.1, entry.2)

/-- A parameter is sent with a value, in some spelling of its name. -/
def Params.Sends (params : Params) (key : String) (value : ParamValue) : Prop :=
  ∃ name, params.get? name = some value ∧ isSuppression name = false ∧ canonical name = key

theorem canonicalEntries_cons_of_isSuppression {name : String} (h : isSuppression name = true)
    (value : ParamValue) (rest : List (String × ParamValue)) :
    canonicalEntries ((name, value) :: rest) = canonicalEntries rest := by
  simp [canonicalEntries, h]

theorem canonicalEntries_cons {name : String} (h : isSuppression name = false)
    (value : ParamValue) (rest : List (String × ParamValue)) :
    canonicalEntries ((name, value) :: rest) =
      (canonical name, value) :: canonicalEntries rest := by
  simp [canonicalEntries, h]

/-- Names are read one after the other. Each must be declared and must differ, in canonical form,
from all before it. -/
theorem addCanonical_eq_ok_iff {schema : EndpointSchema} {entries : List (String × ParamValue)}
    {sent result : OrderedMap ParamValue} :
    addCanonical schema sent entries = .ok result ↔
      (∀ entry ∈ canonicalEntries entries, schema.declares entry.1 = true) ∧
        (Assoc.keys (sent.entries ++ canonicalEntries entries)).Nodup ∧
        result.entries = sent.entries ++ canonicalEntries entries := by
  induction entries generalizing sent with
  | nil =>
    have hresult : sent = result ↔ result.entries = sent.entries := by
      rw [OrderedMap.ext_iff, eq_comm]
    simp [addCanonical, canonicalEntries, sent.nodup, hresult]
  | cons entry rest ih =>
    obtain ⟨name, value⟩ := entry
    unfold addCanonical
    by_cases hname : isSuppression name = true
    · rw [if_pos hname, ih, canonicalEntries_cons_of_isSuppression hname]
    rw [Bool.not_eq_true] at hname
    rw [hname, canonicalEntries_cons hname, List.forall_mem_cons]
    by_cases hdeclares : schema.declares (canonical name) = true
    · by_cases hsent : sent.contains (canonical name) = true
      · -- a name that is there already can only be repeated
        have hrepeated : ¬ (Assoc.keys (sent.entries ++
            (canonical name, value) :: canonicalEntries rest)).Nodup := by
          have hmem : canonical name ∈ Assoc.keys sent.entries := OrderedMap.contains_iff.1 hsent
          simp only [Assoc.keys, List.map_append, List.map_cons, List.nodup_append]
          rintro ⟨_, _, hne⟩
          exact hne _ hmem _ List.mem_cons_self rfl
        simp [hdeclares, hsent, hrepeated]
      · have hnew : canonical name ∉ Assoc.keys sent.entries := mt OrderedMap.contains_iff.2 hsent
        have hinsert : (sent.insert (canonical name) value).entries =
            sent.entries ++ [(canonical name, value)] :=
          Assoc.put_of_notMem value hnew
        simp [hdeclares, hsent, ih, hinsert]
    · simp [hdeclares]

/-- The names of a request are accepted if each is declared and no two have one canonical form. -/
theorem canonicalParams_eq_ok_iff {schema : EndpointSchema} {params : Params}
    {sent : OrderedMap ParamValue} :
    canonicalParams schema params = .ok sent ↔
      (∀ entry ∈ canonicalEntries params.entries, schema.declares entry.1 = true) ∧
        (Assoc.keys (canonicalEntries params.entries)).Nodup ∧
        sent.entries = canonicalEntries params.entries :=
  addCanonical_eq_ok_iff

namespace Params

variable {params : Params} {sent : OrderedMap ParamValue} {key : String} {value : ParamValue}

theorem mem_canonicalEntries_iff_sends :
    (key, value) ∈ canonicalEntries params.entries ↔ params.Sends key value := by
  simp only [canonicalEntries, List.mem_map, List.mem_filter, Bool.not_eq_true', Prod.mk.injEq,
    Prod.exists, Sends, OrderedMap.get?_eq_some_iff]
  constructor
  · rintro ⟨name, _, ⟨hmem, hname⟩, rfl, rfl⟩
    exact ⟨name, hmem, hname, rfl⟩
  · rintro ⟨name, hmem, hname, rfl⟩
    exact ⟨name, value, ⟨hmem, hname⟩, rfl, rfl⟩

/-- What is read under a name is what was sent in one of its spellings. -/
theorem get?_iff_sends (h : sent.entries = canonicalEntries params.entries) :
    sent.get? key = some value ↔ params.Sends key value := by
  rw [OrderedMap.get?_eq_some_iff, h, mem_canonicalEntries_iff_sends]

/-- Nothing is read under a name that was not sent. -/
theorem get?_eq_none_iff (h : sent.entries = canonicalEntries params.entries) :
    sent.get? key = none ↔ ∀ value, ¬ params.Sends key value := by
  rw [Option.eq_none_iff_forall_ne_some]
  exact forall_congr' fun value => not_congr (get?_iff_sends h)

theorem forall_canonicalEntries_iff (params : Params) {p : String → Prop} :
    (∀ entry ∈ canonicalEntries params.entries, p entry.1) ↔
      ∀ name ∈ params.keys, isSuppression name = false → p (canonical name) := by
  simp only [canonicalEntries, List.forall_mem_map, List.mem_filter, Bool.not_eq_true', and_imp,
    OrderedMap.keys, Assoc.keys]

/-- No canonical name is sent twice if different spellings have different canonical names. -/
theorem nodup_canonicalEntries_iff :
    (Assoc.keys (canonicalEntries params.entries)).Nodup ↔
      ∀ a ∈ params.keys, ∀ b ∈ params.keys, isSuppression a = false →
        canonical a = canonical b → a = b := by
  have hkeys : Assoc.keys (canonicalEntries params.entries) =
      (params.keys.filter fun name => !isSuppression name).map canonical := by
    simp [Assoc.keys, canonicalEntries, OrderedMap.keys, List.filter_map, Function.comp_def]
  have hnodup : (params.keys.filter fun name => !isSuppression name).Nodup :=
    params.nodup.sublist List.filter_sublist
  rw [hkeys, List.nodup_map_iff_inj_on hnodup]
  simp only [List.mem_filter, Bool.not_eq_true', and_imp]
  constructor
  · intro h a ha b hb hname hab
    have hname' : isSuppression b = false := by rw [← hname, isSuppression, isSuppression, hab]
    exact h a ha hname b hb hname' hab
  · intro h a ha hname b hb _ hab
    exact h a ha b hb hname hab

end Params

end ParamQuery
