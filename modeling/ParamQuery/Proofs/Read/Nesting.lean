import ParamQuery.Proofs.Join

/-!
# Relations nested in a page

Loading relations for a page looks at the keys of its rows and writes under the names of the
relations, and nothing else. So all other values of the rows stay, and two pages whose rows have the
same keys get the same values under these names.

## Main definitions

* `Entity.SameBut`, `Entity.SameOn` — objects with the same values, outside of some names or under
  some names.
* `Entity.Grows` — an object with values put under some names.
* `Wanted.SameKeys` — objects with the same keys for some relations.

## Main statements

* `Wanted.grows_of_answer_attachAll` — loading relations adds their names to every row and keeps all
  other values.
* `Wanted.exists_nested_of_answer_attachAll` — what stands under the name of a relation in the end.
* `Wanted.exists_answer_attachAll` — what is loaded depends on the keys alone.
-/

namespace ParamQuery

namespace Entity

/-- Two objects have the same values, except under some names. -/
def SameBut (names : List String) (a b : Entity) : Prop :=
  ∀ name, name ∉ names → b.get? name = a.get? name

/-- Two objects have the same values under some names. -/
def SameOn (names : List String) (a b : Entity) : Prop :=
  ∀ name ∈ names, b.get? name = a.get? name

/-- One object becomes another when values are put under names, one after the other: new names stand
behind the others, and all other values stay. -/
structure Grows (names : List String) (a b : Entity) : Prop where
  keys : OrderedMap.keys b = names.foldl FieldSelection.addNew (OrderedMap.keys a)
  others : SameBut names a b

/-- The same value under one more name. -/
theorem SameOn.insert {names : List String} {a b : Entity} (h : SameOn names a b) (name : String)
    (value : Json) :
    SameOn (names ++ [name]) (OrderedMap.insert a name value) (OrderedMap.insert b name value) := by
  intro other hother
  rw [OrderedMap.get?_insert, OrderedMap.get?_insert]
  split
  · rfl
  · next hne =>
    rcases List.mem_append.1 hother with hother | hother
    · exact h other hother
    · exact absurd (List.mem_singleton.1 hother).symm hne

end Entity

theorem FieldSelection.mem_foldl_addNew {names items : List String} {name : String} :
    name ∈ names.foldl addNew items ↔ name ∈ items ∨ name ∈ names := by
  induction names generalizing items with
  | nil => simp
  | cons first rest ih => rw [List.foldl_cons, ih, mem_addNew, List.mem_cons, or_assoc]

/-- The keys of a page are a function of the keys of its rows. -/
theorem pageKeys_congr {column : String} {page page' : List Entity}
    (h : List.Forall₂ (fun a b => b.key? column = a.key? column) page page') :
    pageKeys column page' = pageKeys column page := by
  refine (List.rel_foldl (P := Eq) ?_ rfl h).symm
  rintro keys _ rfl a b hkey
  dsimp only
  rw [hkey]

namespace Wanted

variable {filter : Wanted → Option FilterBuckets} {ws : List Wanted}
  {page page' result : List Entity} {db : Database}

theorem keys_place (w : Wanted) (groups : OrderedMap (List Entity)) (entity : Entity) :
    (w.place groups entity).keys = FieldSelection.addNew entity.keys w.relation.name := by
  simp only [place, OrderedMap.keys_insert, FieldSelection.addNew, List.contains_iff_mem]

/-- Loading relations for a page puts values under their names in every row, and changes nothing
else. -/
theorem grows_of_answer_attachAll (h : (attachAll filter ws page).answer db = .ok result) :
    List.Forall₂ (Entity.Grows (ws.map fun w => w.relation.name)) page result := by
  induction ws generalizing page with
  | nil =>
    cases h
    exact List.forall₂_same.2 fun _ _ => ⟨rfl, fun _ _ => rfl⟩
  | cons w rest ih =>
    rw [answer_attachAll_cons, bind_eq_ok_iff] at h
    obtain ⟨next, hnext, h⟩ := h
    obtain ⟨rows, _, rfl⟩ := answer_attach_eq_ok_iff.1 hnext
    refine (List.forall₂_map_left_iff.1 (ih h)).imp fun entity entity' hgrows => ⟨?_, ?_⟩
    · rw [hgrows.keys, keys_place]
      rfl
    · intro name hname
      rw [List.map_cons, List.mem_cons, not_or] at hname
      rw [hgrows.others name hname.2, get?_place_of_ne _ _ _ hname.1]

theorem sameBut_of_answer_attachAll (h : (attachAll filter ws page).answer db = .ok result) :
    List.Forall₂ (Entity.SameBut (ws.map fun w => w.relation.name)) page result :=
  (grows_of_answer_attachAll h).imp fun _ _ hgrows => hgrows.others

/-- Under the name of every relation that was loaded stands what was nested for it, from the rows
that were loaded for the page as it was then; of two relations with one name the last one counts. -/
theorem exists_nested_of_answer_attachAll {name : String}
    (h : (attachAll filter ws page).answer db = .ok result) {entity : Entity}
    (hentity : entity ∈ result) (hname : ∃ w ∈ ws, w.relation.name = name) :
    ∃ w ∈ ws, w.relation.name = name ∧ ∃ before rows key,
      (w.loaded (filter w) before).answer db = .ok rows ∧
      entity.get? name = some (w.nested ((Option.bind key (w.groupRows rows).get?).getD [])) := by
  induction ws generalizing page with
  | nil => simp at hname
  | cons first rest ih =>
    rw [answer_attachAll_cons, bind_eq_ok_iff] at h
    obtain ⟨next, hnext, h⟩ := h
    by_cases hlater : ∃ w ∈ rest, w.relation.name = name
    · obtain ⟨w, hw, hvalue⟩ := ih h hlater
      exact ⟨w, List.mem_cons_of_mem first hw, hvalue⟩
    · -- no later relation has this name, so what the first one nests stays
      obtain rfl : first.relation.name = name :=
        ((List.exists_mem_cons_iff _ _ _).1 hname).resolve_right hlater
      obtain ⟨rows, hrows, rfl⟩ := answer_attach_eq_ok_iff.1 hnext
      obtain ⟨before, hbefore, hsame⟩ :=
        exists_mem_left_of_forall₂ (sameBut_of_answer_attachAll h) hentity
      obtain ⟨row, _, rfl⟩ := List.mem_map.1 hbefore
      have hother : first.relation.name ∉ rest.map fun w => w.relation.name := by
        rwa [List.mem_map]
      exact ⟨first, List.mem_cons_self, rfl, page, rows, _, hrows,
        (hsame _ hother).trans (get?_place _ _ _)⟩

/-- Two objects have the same keys for some relations. -/
def SameKeys (ws : List Wanted) (a b : Entity) : Prop :=
  ∀ w ∈ ws, b.key? w.relation.parentColumn = a.key? w.relation.parentColumn

/-- What is nested under a name that is no key column changes no key. -/
theorem SameKeys.insert {a b : Entity} (h : SameKeys ws a b) {name : String}
    (hname : ∀ w ∈ ws, w.relation.parentColumn ≠ name) (value : Json) :
    SameKeys ws (OrderedMap.insert a name value) (OrderedMap.insert b name value) := by
  intro w hw
  have hne := (hname w hw).symm
  simp only [Entity.key?, OrderedMap.get?_insert, if_neg hne]
  exact h w hw

/-- What is loaded depends on the keys of the page alone: where relations are loaded for one page,
they are loaded for any other one with the same keys, and the same values are nested. -/
theorem exists_answer_attachAll {names : List String}
    (hnames : ∀ w ∈ ws, ∀ w' ∈ ws, w.relation.parentColumn ≠ w'.relation.name)
    (hpage : List.Forall₂ (fun a b => SameKeys ws a b ∧ Entity.SameOn names a b) page page')
    (h : (attachAll filter ws page).answer db = .ok result) :
    ∃ result', (attachAll filter ws page').answer db = .ok result' ∧
      List.Forall₂ (Entity.SameOn (names ++ ws.map fun w => w.relation.name)) result result' := by
  induction ws generalizing names page page' with
  | nil =>
    cases h
    refine ⟨page', rfl, hpage.imp fun a b hsame => ?_⟩
    rw [List.map_nil, List.append_nil]
    exact hsame.2
  | cons w rest ih =>
    rw [answer_attachAll_cons, bind_eq_ok_iff] at h
    obtain ⟨next, hnext, h⟩ := h
    obtain ⟨rows, hrows, rfl⟩ := answer_attach_eq_ok_iff.1 hnext
    have hkeys : pageKeys w.relation.parentColumn page' = pageKeys w.relation.parentColumn page :=
      pageKeys_congr (hpage.imp fun a b hsame => hsame.1 w List.mem_cons_self)
    have hrows' : (w.loaded (filter w) page').answer db = .ok rows := by
      rw [← hrows, loaded, loaded, hkeys]
    have hplaced : List.Forall₂
        (fun a b => SameKeys rest a b ∧ Entity.SameOn (names ++ [w.relation.name]) a b)
        (page.map (w.place (w.groupRows rows))) (page'.map (w.place (w.groupRows rows))) := by
      rw [List.forall₂_map_left_iff, List.forall₂_map_right_iff]
      refine hpage.imp fun a b hsame => ?_
      rw [place, place, hsame.1 w List.mem_cons_self]
      have hrest : SameKeys rest a b := fun w' hw' => hsame.1 w' (List.mem_cons_of_mem w hw')
      exact ⟨hrest.insert (fun w' hw' => hnames w' (List.mem_cons_of_mem w hw') w List.mem_cons_self)
        _, hsame.2.insert _ _⟩
    obtain ⟨result', hresult, hsame⟩ := ih
      (fun w' hw' w'' hw'' => hnames w' (List.mem_cons_of_mem w hw') w'' (List.mem_cons_of_mem w hw''))
      hplaced h
    refine ⟨result', ?_, by simpa using hsame⟩
    rw [answer_attachAll_cons, bind_eq_ok_iff]
    exact ⟨_, answer_attach_eq_ok_iff.2 ⟨rows, hrows', rfl⟩, hresult⟩

end Wanted

end ParamQuery
