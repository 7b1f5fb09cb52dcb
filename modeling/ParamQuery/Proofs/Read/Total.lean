import ParamQuery.Proofs.Read.Outcome

/-!
# The total of a read

The total counts the rows of the table that a request is about, whatever page it asks for.

## Main definitions

* `QueryIntent.chooses` — whether a request is about a row.

## Main statements

* `total_eq_chosen` — the total of a read, on any page.
-/

namespace ParamQuery

/-- The columns that are searched: the label column, if there is one, stands in for the first. -/
def Model.searched (m : Model) : List String → List String
  | [] => []
  | first :: rest => m.labelColumn.getD first :: rest

/-- Whether one of the columns searched contains the text searched for, if there are both. -/
def QueryIntent.searches (intent : QueryIntent) (m : Model) (t : Table) (row : Row) : Bool :=
  intent.search.q.isEmpty || intent.search.fields.isEmpty ||
    (m.searched intent.search.fields).any fun name => t.contains row name intent.search.q

/-- Whether a request is about a row: the row satisfies the conditions and the search that count. -/
def QueryIntent.chooses (intent : QueryIntent) (m : Model) (caps : Capabilities) (t : Table)
    (row : Row) : Bool :=
  (!caps.contains .filter || intent.filter.base.holds t row) &&
    (!caps.contains .search || intent.searches m t row)

theorem all_holds_searchConditions (m : Model) (intent : QueryIntent) (t : Table) (row : Row) :
    (searchConditions intent.search.q intent.search.fields m.labelColumn).all
      (Condition.holds t row) = intent.searches m t row := by
  have hcontains (name : String) :
      (t.cellText? row name).any
        (Pattern.acceptsFolded (Pattern.containing intent.search.q).toList) =
        t.contains row name intent.search.q := by
    refine congrArg (Option.any · (t.cellText? row name)) (funext fun text => ?_)
    rw [Bool.eq_iff_iff, Pattern.acceptsFolded_containing, decide_eq_true_iff]
  unfold searchConditions QueryIntent.searches
  cases hq : intent.search.q.isEmpty with
  | true => simp
  | false =>
    cases intent.search.fields with
    | nil => simp
    | cons first rest => simp [Condition.holds, Model.searched, hcontains]

/-- The conditions of the statement say what the request says. -/
theorem all_holds_readConditions (m : Model) (intent : QueryIntent) (caps : Capabilities)
    (t : Table) (row : Row) :
    (readConditions m intent caps).all (Condition.holds t row) = intent.chooses m caps t row := by
  unfold readConditions QueryIntent.chooses
  rw [List.all_append, Bool.and_comm]
  cases caps.contains .filter <;> cases caps.contains .search <;>
    simp [all_holds_filterConditions, all_holds_searchConditions]

/-- The rows that a read finds are those that the request is about. -/
theorem Query.Finds.rows_eq_chosen {m : Model} {intent : QueryIntent} {caps : Capabilities}
    {wanted : List Wanted} {db : Database} {t : Table} {columns : List (Nat × Column)}
    {sorts : List SortIndex} {rows : List Row}
    (h : (readQuery m intent caps wanted).Finds db t columns sorts rows) :
    rows = t.rows.filter (intent.chooses m caps t) := by
  rw [h.rows_eq]
  apply List.filter_congr
  intro row _
  exact all_holds_readConditions m intent caps t row

namespace Action

variable {m : Model} {intent : QueryIntent} {caps : Capabilities} {db : Database} {e : Envelope}

/-- A read of a page that is not empty by itself counts the rows that the request is about. -/
theorem total_of_answer (hlimit : 1 ≤ intent.pagination.limit)
    (h : (read m intent caps).answer db = .ok e) :
    ∃ t, db.table m.table = .ok t ∧
      e.total = (t.rows.filter (intent.chooses m caps t)).length := by
  obtain ⟨wanted, t, columns, sorts, rows, n, page, hwanted, hfinds, hn, hpage, rfl⟩ :=
    answer_read_iff.1 h
  refine ⟨t, hfinds.table, ?_⟩
  rw [← hfinds.rows_eq_chosen]
  exact total_eq_length hlimit hfinds hn

/-- A read without pages gives back all rows that the request is about. -/
theorem length_collection_of_answer (hcaps : caps.contains .pagination = false)
    (h : (read m intent caps).answer db = .ok e) :
    ∃ t, db.table m.table = .ok t ∧
      e.collection.length = (t.rows.filter (intent.chooses m caps t)).length := by
  obtain ⟨wanted, t, columns, sorts, rows, n, page, hwanted, hfinds, hn, hpage, rfl⟩ :=
    answer_read_iff.1 h
  have hcut : (readQuery m intent caps wanted).cut (sortRows (rowLe sorts) rows) =
      sortRows (rowLe sorts) rows := by
    simp [Query.cut, readQuery, readPage, hcaps]
  have hlength := (keys_of_answer_attachAll hpage).length_eq.symm
  rw [List.length_map, hcut, (sortRows_perm _ rows).length_eq] at hlength
  refine ⟨t, hfinds.table, ?_⟩
  rw [← hfinds.rows_eq_chosen, ← hlength]
  exact List.length_map _

/-- The total of a read is the number of the rows of the table that the request is about. So it is
the same on every page, also past the end, and it is the length of what the read without pages gives
back. -/
theorem total_eq_chosen {m : Model} {intent : QueryIntent} {caps : Capabilities} {s : Session}
    {e : Envelope} (hlimit : 1 ≤ intent.pagination.limit) (h : (read m intent caps s).1 = .ok e) :
    (∃ t, s.database.table m.table = .ok t ∧
      e.total = (t.rows.filter (intent.chooses m caps t)).length) ∧
    (∀ page : Pagination, ∀ s' e', s'.database = s.database → 1 ≤ page.limit →
      (read m { intent with pagination := page } caps s').1 = .ok e' → e'.total = e.total) ∧
    (∀ s' e', s'.database = s.database →
      (read m intent { caps with pagination := false } s').1 = .ok e' →
        e.total = e'.collection.length) := by
  rw [(reads_read m intent caps s).1] at h
  obtain ⟨t, ht, htotal⟩ := total_of_answer hlimit h
  refine ⟨⟨t, ht, htotal⟩, ?_, ?_⟩
  · intro page s' e' hs hpage h'
    rw [(reads_read m _ caps s').1, hs] at h'
    obtain ⟨t', ht', htotal'⟩ := total_of_answer hpage h'
    cases ht.symm.trans ht'
    exact htotal'.trans htotal.symm
  · intro s' e' hs h'
    rw [(reads_read m intent _ s').1, hs] at h'
    obtain ⟨t', ht', hlength⟩ := length_collection_of_answer rfl h'
    cases ht.symm.trans ht'
    exact htotal.trans hlength.symm

/-- Three people. -/
def people : Session where
  database := { tables := [{
    name := "people"
    columns := [⟨"id", .bigint⟩, ⟨"name", .varchar⟩]
    key := some "id"
    rows := [[.integer 2, .text "Bob"], [.integer 1, .text "Anna"],
      [.integer 3, .text "Joanna"]] }] }

/-- Two of the people are found on a page past the end, as on the first page and without pages. -/
theorem total_past_the_end :
    ∃ past first all,
      (read { table := "people" } { search := ⟨"ANN", ["name"]⟩, pagination := ⟨1, 7⟩ } .read
        people).1 = .ok past ∧
      (read { table := "people" } { search := ⟨"ANN", ["name"]⟩, pagination := ⟨1, 0⟩ } .read
        people).1 = .ok first ∧
      (read { table := "people" } { search := ⟨"ANN", ["name"]⟩, pagination := ⟨1, 7⟩ }
        { Capabilities.read with pagination := false } people).1 = .ok all ∧
      past.total = 2 ∧ first.total = past.total ∧ past.total = all.collection.length := by
  refine ⟨⟨2, [], 1, 7⟩, ⟨2, [.ofList [("id", .int 1), ("name", .string "Anna")]], 1, 0⟩,
    ⟨2, [.ofList [("id", .int 1), ("name", .string "Anna")],
      .ofList [("id", .int 3), ("name", .string "Joanna")]], 2, 0⟩, rfl, rfl, rfl, rfl, ?_⟩
  obtain ⟨_, hpages, hall⟩ := @total_eq_chosen { table := "people" }
    { search := ⟨"ANN", ["name"]⟩, pagination := ⟨1, 7⟩ } .read people ⟨2, [], 1, 7⟩ (by decide) rfl
  exact ⟨hpages ⟨1, 0⟩ people _ rfl (by decide) rfl, hall people _ rfl rfl⟩

end Action

end ParamQuery
