import ParamQuery.Proofs.Read.Nesting
import ParamQuery.Proofs.Read.Total

/-!
# The features of a read

Only the parts of an intent whose features are switched on count: intents that agree on these are
read alike, on any session, to the same envelope or the same error. Without pages all rows that the
intent is about are given back.

## Main definitions

* `QueryIntent.AgreesOn` — intents that agree on the parts of some features.

## Main statements

* `Action.read_of_agreesOn` — such intents are read alike.
-/

namespace ParamQuery

/-- Two intents agree on the parts that some features switch on. The values to write belong to no
feature of reading. -/
structure QueryIntent.AgreesOn (caps : Capabilities) (i j : QueryIntent) : Prop where
  select : caps.contains .fields = true → i.fields.select = j.fields.select
  relations : caps.contains .relations = true → i.fields.relations = j.fields.relations
  search : caps.contains .search = true → i.search = j.search
  filter : caps.contains .filter = true → i.filter = j.filter
  order : caps.contains .order = true → i.order = j.order
  pagination : caps.contains .pagination = true → i.pagination = j.pagination

namespace QueryIntent.AgreesOn

variable {caps : Capabilities} {i j : QueryIntent}

/-! ## What a read is made of -/

theorem wantedRelations_eq (h : i.AgreesOn caps j) (m : Model) :
    wantedRelations m i.fields caps = wantedRelations m j.fields caps := by
  unfold wantedRelations
  split
  · next hon => rw [Model.resolve, Model.resolve, h.relations hon]
  · rfl

theorem readColumns_eq (h : i.AgreesOn caps j) (wanted : List Wanted) :
    readColumns i caps wanted = readColumns j caps wanted := by
  unfold readColumns
  cases hon : caps.contains .fields with
  | true => rw [h.select hon]
  | false => rfl

theorem readConditions_eq (h : i.AgreesOn caps j) (m : Model) :
    readConditions m i caps = readConditions m j caps := by
  unfold readConditions
  congr 1
  · split
    · next hon => rw [h.search hon]
    · rfl
  · split
    · next hon => rw [h.filter hon]
    · rfl

theorem readOrder_eq (h : i.AgreesOn caps j) (m : Model) :
    readOrder m i caps = readOrder m j caps := by
  unfold readOrder
  cases hon : caps.contains .order with
  | true => rw [h.order hon]
  | false => cases i.order <;> cases j.order <;> rfl

theorem readPage_eq (h : i.AgreesOn caps j) : readPage i caps = readPage j caps := by
  unfold readPage
  split
  · next hon => rw [h.pagination hon]
  · rfl

theorem relationFilter_eq (h : i.AgreesOn caps j) :
    Action.relationFilter i caps = Action.relationFilter j caps := by
  funext w
  unfold Action.relationFilter
  split
  · next hon => rw [h.filter hon]
  · rfl

/-- Intents that agree lead to the same statements. -/
theorem plan_eq (h : i.AgreesOn caps j) (m : Model) :
    ReadPlan.make m i caps = ReadPlan.make m j caps := by
  have hquery (wanted : List Wanted) : readQuery m i caps wanted = readQuery m j caps wanted := by
    unfold readQuery
    rw [h.readColumns_eq, h.readConditions_eq, h.readOrder_eq, h.readPage_eq]
  have hmake (intent : QueryIntent) : ReadPlan.make m intent caps =
      wantedRelations m intent.fields caps >>= fun wanted =>
        pure ⟨readQuery m intent caps wanted, wanted, (readColumns intent caps wanted).2⟩ := rfl
  rw [hmake, hmake, h.wantedRelations_eq]
  simp only [hquery, h.readColumns_eq]

end QueryIntent.AgreesOn

namespace Action

variable {m : Model} {caps : Capabilities} {i j : QueryIntent}

/-- An envelope is that of all rows that an intent is about, each once, with the columns read and
whatever was loaded under the names of relations. The page it reports is that of all rows. -/
structure GivesAll (m : Model) (intent : QueryIntent) (caps : Capabilities) (db : Database)
    (e : Envelope) : Prop where
  limit : e.limit = e.total
  offset : e.offset = 0
  rows : ∃ wanted t columns rows, wantedRelations m intent.fields caps = .ok wanted ∧
    db.table m.table = .ok t ∧ (readColumns intent caps wanted).1.mapM t.column = .ok columns ∧
    rows.Perm (t.rows.filter (intent.chooses m caps t)) ∧ e.total = rows.length ∧
    List.Forall₂ (fun row entity => Entity.SameBut ((wanted.map fun w => w.relation.name) ++
      (readColumns intent caps wanted).2) (t.shown columns row) entity) rows e.collection

/-- Without pages a read gives back all rows that the intent is about. -/
theorem givesAll_of_answer {intent : QueryIntent} {db : Database} {e : Envelope}
    (hcaps : caps.contains .pagination = false) (h : (read m intent caps).answer db = .ok e) :
    GivesAll m intent caps db e := by
  obtain ⟨wanted, t, columns, sorts, rows, n, page, hwanted, hfinds, hn, hpage, rfl⟩ :=
    answer_read_iff.1 h
  have hnone : (readQuery m intent caps wanted).page = none := by
    simp [readQuery, readPage, hcaps]
  have htotal : n = rows.length :=
    Except.ok.inj (hn.symm.trans (answer_total rfl hfinds (by simp [hnone])))
  have hperm : (sortRows (rowLe sorts) rows).Perm rows := sortRows_perm _ rows
  refine ⟨by simp [readEnvelope, hcaps], by simp [readEnvelope, hcaps], wanted, t, columns,
    sortRows (rowLe sorts) rows, hwanted, hfinds.table, hfinds.columns,
    hfinds.rows_eq_chosen ▸ hperm, htotal.trans hperm.length_eq.symm, ?_⟩
  rw [Query.cut, hnone] at hpage
  have hsame := List.forall₂_map_left_iff.1 (Wanted.sameBut_of_answer_attachAll hpage)
  rw [readEnvelope, List.forall₂_map_right_iff]
  refine hsame.imp fun row entity hrow name hname => ?_
  rw [List.mem_append, not_or] at hname
  rw [get?_withoutHelpers, if_neg hname.2, hrow name hname.1]

/-- Intents that agree on the parts of the features that are switched on are read alike, on any
session. In particular the values to write do not matter, and without pages all rows that the intent
is about are given back, whatever page it asks for. -/
theorem read_of_agreesOn (h : i.AgreesOn caps j) :
    read m i caps = read m j caps ∧
    (∀ body, read m { i with body := body } caps = read m i caps) ∧
    (caps.contains .pagination = false →
      ∀ s e, (read m i caps s).1 = .ok e → GivesAll m i caps s.database e) := by
  have hread {i j : QueryIntent} (h : i.AgreesOn caps j) : read m i caps = read m j caps := by
    rw [read_eq, read_eq, h.plan_eq, h.relationFilter_eq]
  refine ⟨hread h, fun body => hread ?_, ?_⟩
  · exact ⟨fun _ => rfl, fun _ => rfl, fun _ => rfl, fun _ => rfl, fun _ => rfl, fun _ => rfl⟩
  · intro hcaps s e he
    rw [(reads_read m i caps s).1] at he
    exact givesAll_of_answer hcaps he

/-- A request for the names of some people. -/
def laterNames : QueryIntent where
  fields := ⟨["name"], ∅⟩
  filter := { base := FilterBuckets.insert {} .gt "id" "1" }
  pagination := ⟨20, 0⟩

/-- The same request with an unknown relation, a search, an order, another page and values to
write. -/
def laterNamesAndMore : QueryIntent where
  fields := ⟨["name"], .ofList [("letters", [])]⟩
  filter := { base := FilterBuckets.insert {} .gt "id" "1" }
  search := ⟨"ann", ["name"]⟩
  order := some ⟨"name", .desc⟩
  pagination := ⟨1, 1⟩
  body := .ofList [("name", "Eve")]

/-- With columns and conditions alone switched on, both requests give the names of all people that
the conditions choose. -/
theorem read_of_laterNames :
    ∃ e, (read { table := "people" } laterNames (.ofList [.fields, .filter]) people).1 = .ok e ∧
      (read { table := "people" } laterNamesAndMore (.ofList [.fields, .filter]) people).1 =
        .ok e ∧
      GivesAll { table := "people" } laterNames (.ofList [.fields, .filter]) people.database e := by
  have hagrees : laterNames.AgreesOn (.ofList [.fields, .filter]) laterNamesAndMore :=
    ⟨fun _ => rfl, nofun, nofun, fun _ => rfl, nofun, nofun⟩
  obtain ⟨hsame, _, hall⟩ := read_of_agreesOn (m := { table := "people" }) hagrees
  have hanswer : (read { table := "people" } laterNames (.ofList [.fields, .filter]) people).1 =
      .ok ⟨2, [.ofList [("name", .string "Bob")], .ofList [("name", .string "Joanna")]], 2, 0⟩ := rfl
  exact ⟨_, hanswer, hsame ▸ hanswer, hall rfl people _ hanswer⟩

end Action

end ParamQuery
