import ParamQuery.Proofs.Read.Nesting

/-!
# The outcome of a read

What a read that succeeds went through: the relations it loads, the rows it finds, the page before
relations, and the total, which is the number of all rows found wherever it comes from.

## Main definitions

* `readQuery` — the question for the page.
* `Table.shown` — a row of the page before relations are nested in it.

## Main statements

* `Action.answer_total` — the total is the number of the rows found.
* `Action.answer_read_iff` — the answer of a read.
-/

namespace ParamQuery

theorem Model.name_of_relation? {m : Model} {name : String} {r : Relation}
    (h : m.relation? name = some r) : r.name = name := by
  simpa using List.find?_some h

theorem Model.resolveAll_eq_ok_iff {m : Model} {entries : List (String × List String)}
    {wanted : List Wanted} :
    m.resolveAll entries = .ok wanted ↔
      List.Forall₂ (fun entry w => m.relation? entry.1 = some w.relation ∧ w.fields = entry.2)
        entries wanted := by
  induction entries generalizing wanted with
  | nil => cases wanted <;> simp [resolveAll]
  | cons entry rest ih =>
    obtain ⟨name, fields⟩ := entry
    unfold resolveAll
    cases hrelation : m.relation? name with
    | none =>
      simp only [reduceCtorEq, false_iff]
      rintro ⟨⟩
      simp_all
    | some relation =>
      simp only [bind_eq_ok_iff, pure_eq_ok_iff, ih]
      constructor
      · rintro ⟨ws, hws, rfl⟩
        exact .cons ⟨hrelation, rfl⟩ hws
      · rintro (_ | ⟨⟨hw, rfl⟩, hws⟩)
        cases hrelation.symm.trans hw
        exact ⟨_, hws, rfl⟩

/-- The relations that a request wants are relations of the model. -/
theorem mem_relations_of_wantedRelations {m : Model} {selection : FieldSelection}
    {caps : Capabilities} {wanted : List Wanted} (h : wantedRelations m selection caps = .ok wanted)
    {w : Wanted} (hw : w ∈ wanted) :
    caps.contains .relations = true ∧ w.relation ∈ m.relations := by
  unfold wantedRelations at h
  split at h
  · next hcaps =>
    obtain ⟨_, _, hrelation, _⟩ :=
      exists_mem_left_of_forall₂ (Model.resolveAll_eq_ok_iff.1 h) hw
    exact ⟨hcaps, List.mem_of_find?_eq_some hrelation⟩
  · cases h
    cases hw

/-- The columns to read and those among them that only relations need. -/
def readColumns (intent : QueryIntent) (caps : Capabilities) (wanted : List Wanted) :
    List String × List String :=
  if caps.contains .fields && !intent.fields.select.isEmpty then
    addHelpers wanted intent.fields.select
  else ([], [])

/-- The question for the page. -/
def readQuery (m : Model) (intent : QueryIntent) (caps : Capabilities) (wanted : List Wanted) :
    Query where
  columns := (readColumns intent caps wanted).1
  withTotal := true
  table := m.table
  conditions := readConditions m intent caps
  order := readOrder m intent caps
  page := readPage intent caps

theorem ReadPlan.make_eq_ok_iff {m : Model} {intent : QueryIntent} {caps : Capabilities}
    {plan : ReadPlan} :
    ReadPlan.make m intent caps = .ok plan ↔
      ∃ wanted, wantedRelations m intent.fields caps = .ok wanted ∧
        plan = ⟨readQuery m intent caps wanted, wanted, (readColumns intent caps wanted).2⟩ := by
  rw [make, bind_eq_ok_iff]
  refine exists_congr fun wanted => and_congr_right fun _ => ?_
  exact ⟨fun h => (Except.ok.inj h).symm, fun h => congrArg _ h.symm⟩

/-- A row as an object with the columns asked for, before relations are nested in it. -/
def Table.shown (t : Table) (columns : List (Nat × Column)) (row : Row) : Entity :=
  (Record.entity (t.project columns row)).erase totalColumn

/-- The total that a row carries is taken out again. -/
theorem Query.erase_totalColumn {q : Query} (hq : q.withTotal = true) (t : Table)
    (columns : List (Nat × Column)) (sorts : List SortIndex) (rows : List Row) :
    ((q.records t columns sorts rows).map Record.entity).map
        (fun entity => entity.erase totalColumn) =
      (q.cut (sortRows (rowLe sorts) rows)).map (t.shown columns) := by
  simp only [records, List.map_map, totalEntry, hq, if_true]
  apply List.map_congr_left
  intro row _
  exact Record.erase_entity_append _ _ _

theorem Json.count?_toJson (n : Nat) : (Datum.integer n).toJson.count? = some n := by
  simp [Datum.toJson, Json.count?]

namespace Action

variable {m : Model} {intent : QueryIntent} {caps : Capabilities} {wanted : List Wanted}
  {q : Query} {db : Database} {t : Table} {columns : List (Nat × Column)} {sorts : List SortIndex}
  {rows : List Row} {e : Envelope}

/-- Counting again gives the number of the rows found. -/
theorem answer_recount (h : q.Finds db t columns sorts rows) :
    (recount q).answer db = .ok rows.length := by
  have hcount := answer_count_eq_ok_iff.2 ⟨t, rows, h.table, h.rows, rfl⟩
  have hn : (Record.entity [("n", .integer rows.length)]).get? "n" =
      some (Datum.integer rows.length).toJson :=
    Record.get?_entity_append [] "n" _
  rw [recount, answer_bind (reads_count _ _) fun _ => reads_pure _, hcount]
  simp [bind, Except.bind, hn, Json.count?_toJson]

/-- The total is the number of the rows found, whether it comes from the first row of the page, from
counting again, or is zero because nothing else can be: a page that starts with the first row has
rows if there are any. -/
theorem answer_total (hq : q.withTotal = true) (h : q.Finds db t columns sorts rows)
    (hlimit : ∀ page, q.page = some page → 1 ≤ page.limit) :
    (total q ((q.records t columns sorts rows).map Record.entity)).answer db = .ok rows.length := by
  have hlength : (sortRows (rowLe sorts) rows).length = rows.length :=
    (sortRows_perm _ rows).length_eq
  rcases hcut : q.cut (sortRows (rowLe sorts) rows) with _ | ⟨first, rest⟩
  · simp only [Query.records, hcut, List.map_nil, total]
    rcases hpage : q.page with _ | page
    · have hempty : sortRows (rowLe sorts) rows = [] := by simpa [Query.cut, hpage] using hcut
      rw [hempty, List.length_nil] at hlength
      simp [← hlength]
    · have hslice : page.slice (sortRows (rowLe sorts) rows) = [] := by
        simpa [Query.cut, hpage] using hcut
      have hone := hlimit page hpage
      have hbound : rows.length ≤ page.offset := by
        rcases List.take_eq_nil_iff.1 hslice with h0 | hdrop
        · omega
        · exact hlength ▸ List.drop_eq_nil_iff.1 hdrop
      dsimp only
      split
      · exact answer_recount h
      · simp only [answer_pure, Except.ok.injEq]
        omega
  · have hfirst : (Record.entity (t.project columns first ++ q.totalEntry rows.length)).get?
        totalColumn = some (Datum.integer rows.length).toJson := by
      simpa [Query.totalEntry, hq] using Record.get?_entity_append _ _ _
    simp [Query.records, hcut, total, hfirst, Json.count?_toJson]

/-- Nesting relations in the rows of a page adds their names to the names of each row. -/
theorem keys_of_answer_attachAll {filter : Wanted → Option FilterBuckets} {ws : List Wanted}
    {page result : List Entity} (h : (Wanted.attachAll filter ws page).answer db = .ok result) :
    List.Forall₂ (fun entity entity' => ∀ key, key ∈ entity'.keys ↔
      key ∈ entity.keys ∨ ∃ w ∈ ws, w.relation.name = key) page result := by
  refine (Wanted.grows_of_answer_attachAll h).imp fun entity entity' hgrows key => ?_
  rw [hgrows.keys, FieldSelection.mem_foldl_addNew, List.mem_map]

/-- The envelope of a total and a page that relations were nested in. -/
def readEnvelope (intent : QueryIntent) (caps : Capabilities) (wanted : List Wanted) (total : Nat)
    (page : List Entity) : Envelope where
  total := total
  collection := page.map (withoutHelpers (readColumns intent caps wanted).2)
  limit := if caps.contains .pagination then intent.pagination.limit else total
  offset := if caps.contains .pagination then intent.pagination.offset else 0

theorem envelope_eq (m : Model) (intent : QueryIntent) (caps : Capabilities) (wanted : List Wanted)
    (total : Nat) (page : List Entity) :
    envelope ⟨readQuery m intent caps wanted, wanted, (readColumns intent caps wanted).2⟩ total
        page =
      readEnvelope intent caps wanted total page := by
  unfold envelope readEnvelope readQuery readPage
  cases caps.contains .pagination <;> rfl

/-- The answer of a read: the relations that count are resolved, the rows are found, the total is
taken or counted, and the relations are nested in the rows of the page. -/
theorem answer_read_iff :
    (read m intent caps).answer db = .ok e ↔
      ∃ wanted t columns sorts rows n page, wantedRelations m intent.fields caps = .ok wanted ∧
        (readQuery m intent caps wanted).Finds db t columns sorts rows ∧
        (total (readQuery m intent caps wanted)
          (((readQuery m intent caps wanted).records t columns sorts rows).map
            Record.entity)).answer db = .ok n ∧
        (Wanted.attachAll (relationFilter intent caps) wanted
          (((readQuery m intent caps wanted).cut (sortRows (rowLe sorts) rows)).map
            (t.shown columns))).answer db = .ok page ∧
        e = readEnvelope intent caps wanted n page := by
  rw [answer_read_eq_ok_iff]
  constructor
  · rintro ⟨plan, entities, n, page, hplan, hentities, hn, hpage, rfl⟩
    obtain ⟨wanted, hwanted, rfl⟩ := ReadPlan.make_eq_ok_iff.1 hplan
    obtain ⟨records, hrun, rfl⟩ := answer_select_eq_ok_iff.1 hentities
    obtain ⟨t, columns, sorts, rows, hfinds, rfl⟩ := Query.run_eq_ok_iff.1 hrun
    rw [Query.erase_totalColumn rfl] at hpage
    exact ⟨wanted, t, columns, sorts, rows, n, page, hwanted, hfinds, hn, hpage,
      envelope_eq m intent caps wanted n page⟩
  · rintro ⟨wanted, t, columns, sorts, rows, n, page, hwanted, hfinds, hn, hpage, rfl⟩
    refine ⟨_, _, n, page, ReadPlan.make_eq_ok_iff.2 ⟨wanted, hwanted, rfl⟩,
      answer_select_eq_ok_iff.2 ⟨_, Query.run_eq_ok_iff.2 ⟨t, columns, sorts, rows, hfinds, rfl⟩,
        rfl⟩, hn, ?_, (envelope_eq m intent caps wanted n page).symm⟩
    rw [Query.erase_totalColumn rfl]
    exact hpage

/-- The total of a page that is not empty by itself is the number of the rows found. -/
theorem total_eq_length {n : Nat} (hlimit : 1 ≤ intent.pagination.limit)
    (h : (readQuery m intent caps wanted).Finds db t columns sorts rows)
    (hn : (total (readQuery m intent caps wanted)
      (((readQuery m intent caps wanted).records t columns sorts rows).map
        Record.entity)).answer db = .ok n) : n = rows.length := by
  have hpage (page : Page) (hpage : (readQuery m intent caps wanted).page = some page) :
      1 ≤ page.limit := by
    simp only [readQuery, readPage] at hpage
    split at hpage
    · cases hpage
      exact hlimit
    · cases hpage
  exact Except.ok.inj (hn.symm.trans (answer_total rfl h hpage))

end Action

end ParamQuery
