import ParamQuery.Proofs.Read.Outcome
import ParamQuery.Proofs.SameRows

/-!
# The pages of a read

The order of a read ends with the primary key, so it tells all rows apart. Then what a read gives
back depends on the rows of the table alone, not on where they stand, and pages put one after the
other give all rows back in their order, each once.

## Main definitions

* `Model.Serves` — a session holds the rows of a table for a model, perhaps in another order.

## Main statements

* `Action.answer_read_of_sameRows` — a read gives the same answer on the same rows.
* `Action.pages_of_read` — pages, one after the other, against all rows at once.
-/

namespace ParamQuery

/-- Slices of equal length, one after the other, make up the list. -/
theorem Page.flatMap_slice {α : Type} (limit count : Nat) (rows : List α) :
    (List.range count).flatMap (fun k => Page.slice ⟨limit, k * limit⟩ rows) =
      rows.take (count * limit) := by
  induction count with
  | zero => simp
  | succ count ih =>
    rw [List.range_succ, List.flatMap_append, ih, Nat.succ_mul, List.take_add]
    simp [slice]

/-- A session holds the rows of a table for a model, perhaps in another physical order. -/
def Model.Serves (m : Model) (t : Table) (s : Session) : Prop :=
  ∃ t', s.database.table m.table = .ok t' ∧ t.SameRows t'

/-! ## The order of a read -/

variable {m : Model} {intent : QueryIntent} {caps : Capabilities} {wanted : List Wanted}
  {db : Database} {t : Table} {columns : List (Nat × Column)} {sorts : List SortIndex}
  {rows : List Row} {e : Envelope}

/-- The primary key is one of the columns that a read orders by. -/
theorem exists_mem_readOrder (m : Model) (intent : QueryIntent) (caps : Capabilities) :
    ∃ key ∈ readOrder m intent caps, key.column = m.primaryKey := by
  unfold readOrder
  split
  · split
    · split
      · exact ⟨_, List.mem_singleton_self _, rfl⟩
      · exact ⟨⟨m.primaryKey, .asc⟩, by simp, rfl⟩
    · exact ⟨_, List.mem_singleton_self _, rfl⟩
  · exact ⟨_, List.mem_singleton_self _, rfl⟩

/-- The order of a read tells the rows of a table with a unique primary key apart, unless a column
is called like the total. -/
theorem Query.Finds.tellsApart (h : (readQuery m intent caps wanted).Finds db t columns sorts rows)
    (hkey : t.UniqueKey m.primaryKey)
    (hnames : ∀ column ∈ t.columns, sameName column.name totalColumn = false) :
    TellsApart sorts t := by
  obtain ⟨key, hmem, hcolumn⟩ := exists_mem_readOrder m intent caps
  have htotal : sameName key.column totalColumn = false := by
    obtain ⟨index, hindex, _⟩ := hkey
    obtain ⟨column, hfound⟩ := Table.index?_eq_some_iff.1 hindex
    have hname := (Table.column_eq_ok hfound).2
    rw [hcolumn, ← hnames column (Table.mem_of_column_eq_ok hfound), Bool.eq_iff_iff]
    exact ⟨sameName_trans hname, sameName_trans (sameName_comm _ _ ▸ hname)⟩
  obtain ⟨index, hindex, hsort⟩ := h.mem_sorts hmem htotal
  exact tellsApart_of_uniqueKey hkey hsort (hcolumn ▸ hindex)

/-! ## The same rows -/

namespace Action

/-- The total depends on the page and on how many rows are found. -/
theorem answer_total_congr {q : Query} {db db' : Database} {t t' : Table}
    {columns columns' : List (Nat × Column)} {sorts sorts' : List SortIndex} {rows rows' : List Row}
    (h : q.Finds db t columns sorts rows) (h' : q.Finds db' t' columns' sorts' rows')
    (hlength : rows'.length = rows.length) (page : List Entity) :
    (total q page).answer db' = (total q page).answer db := by
  unfold total
  split
  · rfl
  · split
    · split
      · rw [answer_recount h, answer_recount h', hlength]
      · rfl
    · rfl

/-- What a read gives back depends on the rows of the table, not on where they stand. -/
theorem answer_read_of_sameRows
    {db db' : Database} {t t' : Table} (hkey : t.UniqueKey m.primaryKey)
    (hnames : ∀ column ∈ t.columns, sameName column.name totalColumn = false)
    (ht : db.table m.table = .ok t) (ht' : db'.table m.table = .ok t') (hsame : t.SameRows t')
    (hrelations : caps.contains .relations = true →
      ∀ r ∈ m.relations, db.table r.table = db'.table r.table)
    (h : (read m intent caps).answer db = .ok e) : (read m intent caps).answer db' = .ok e := by
  obtain ⟨wanted, t₀, columns, sorts, rows, n, page, hwanted, hfinds, hn, hpage, rfl⟩ :=
    answer_read_iff.1 h
  cases ht.symm.trans hfinds.table
  obtain ⟨rows', hfinds', hperm⟩ := hfinds.of_sameRows ht' hsame
  have hsorts : Query.TellsApart sorts t := hfinds.tellsApart hkey hnames
  have hshown : t'.shown = t.shown := by
    funext columns row
    rw [Table.shown, hsame.project_eq]
    rfl
  refine answer_read_iff.2 ⟨wanted, t', columns, sorts, rows', n, page, hwanted, hfinds', ?_, ?_,
    rfl⟩
  · rw [hfinds.records_eq hsame hperm hsorts, answer_total_congr hfinds hfinds' hperm.length_eq]
    exact hn
  · rw [hfinds.sortRows_eq hperm hsorts, hshown]
    have hattach (page : List Entity) :
        (Wanted.attachAll (relationFilter intent caps) wanted page).answer db =
          (Wanted.attachAll (relationFilter intent caps) wanted page).answer db' := by
      apply Wanted.answer_attachAll_congr
      intro w hw
      obtain ⟨hcaps, hmem⟩ := mem_relations_of_wantedRelations hwanted hw
      exact hrelations hcaps w.relation hmem
    rw [← hattach]
    exact hpage

/-- A read gives the same answer on sessions that hold the same rows. -/
theorem answer_read_of_serves {s s' : Session} (hkey : t.UniqueKey m.primaryKey)
    (hnames : ∀ column ∈ t.columns, sameName column.name totalColumn = false)
    (hs : m.Serves t s) (hs' : m.Serves t s')
    (hrelations : caps.contains .relations = true →
      ∀ r ∈ m.relations, s.database.table r.table = s'.database.table r.table)
    (h : (read m intent caps s).1 = .ok e) : (read m intent caps s').1 = .ok e := by
  obtain ⟨t₁, ht₁, hsame₁⟩ := hs
  obtain ⟨t₂, ht₂, hsame₂⟩ := hs'
  rw [(reads_read m intent caps s).1] at h
  rw [(reads_read m intent caps s').1]
  exact answer_read_of_sameRows (hsame₁.uniqueKey hkey) (hsame₁.columns ▸ hnames) ht₁ ht₂
    (hsame₁.symm.trans hsame₂) hrelations h

end Action

/-! ## Reads without relations -/

theorem helpers_nil (intent : QueryIntent) (caps : Capabilities) :
    (readColumns intent caps []).2 = [] := by
  unfold readColumns
  split <;> rfl

namespace Action

/-- The answer of a read that loads no relations is a page of the rows found. -/
theorem collection_of_answer (h : (read m intent caps).answer db = .ok e)
    (hcaps : caps.contains .relations = false) :
    ∃ t columns sorts rows, (readQuery m intent caps []).Finds db t columns sorts rows ∧
      (1 ≤ intent.pagination.limit → e.total = rows.length) ∧
      e.collection = ((readQuery m intent caps []).cut (sortRows (rowLe sorts) rows)).map
        (t.shown columns) := by
  obtain ⟨wanted, t, columns, sorts, rows, n, page, hwanted, hfinds, hn, hpage, rfl⟩ :=
    answer_read_iff.1 h
  have hnone : wanted = [] := by
    rw [List.eq_nil_iff_forall_not_mem]
    intro w hw
    rw [(mem_relations_of_wantedRelations hwanted hw).1] at hcaps
    cases hcaps
  subst hnone
  cases hpage
  refine ⟨t, columns, sorts, rows, hfinds, fun hlimit => total_eq_length hlimit hfinds hn, ?_⟩
  rw [readEnvelope, helpers_nil]
  exact List.map_id _

/-- A read without pages and relations gives all rows found back. -/
theorem answer_of_finds (h : (readQuery m intent caps []).Finds db t columns sorts rows)
    (hrelations : caps.contains .relations = false) (hpages : caps.contains .pagination = false) :
    ∃ e, (read m intent caps).answer db = .ok e ∧
      e.collection = (sortRows (rowLe sorts) rows).map (t.shown columns) := by
  have hpage : (readQuery m intent caps []).page = none := by
    simp [readQuery, readPage, hpages]
  have hwanted : wantedRelations m intent.fields caps = .ok [] := by
    simp [wantedRelations, hrelations]
  refine ⟨_, answer_read_iff.2 ⟨[], t, columns, sorts, rows, _, _, hwanted, h,
    answer_total rfl h ?_, rfl, rfl⟩, ?_⟩
  · simp [hpage]
  · rw [readEnvelope, helpers_nil, Query.cut, hpage]
    exact List.map_id _

/-- What a read gives back depends on the rows of the table alone, and not on their physical order.
So pages of a read that loads no relations, each taken while the rows stand in some order, make up
what the read gives back without pages, if they reach as far as the total. -/
theorem pages_of_read {m : Model} {intent : QueryIntent} {caps : Capabilities} {t : Table}
    {s : Session} (hkey : t.UniqueKey m.primaryKey)
    (hnames : ∀ column ∈ t.columns, sameName column.name totalColumn = false) (hs : m.Serves t s) :
    (caps.contains .relations = false → ∀ (limit count : Nat) (sessions : Nat → Session)
      (pages : Nat → Envelope), 1 ≤ limit → 1 ≤ count →
      (∀ k < count, m.Serves t (sessions k) ∧
        (read m { intent with pagination := ⟨limit, k * limit⟩ } { caps with pagination := true }
          (sessions k)).1 = .ok (pages k)) →
      (pages 0).total ≤ count * limit →
      ∃ whole, (read m intent { caps with pagination := false } s).1 = .ok whole ∧
        (List.range count).flatMap (fun k => (pages k).collection) = whole.collection) ∧
    (∀ s', m.Serves t s' →
      (caps.contains .relations = true →
        ∀ r ∈ m.relations, s'.database.table r.table = s.database.table r.table) →
      ∀ e, (read m intent caps s').1 = .ok e ↔ (read m intent caps s).1 = .ok e) := by
  have hmove {caps : Capabilities} {intent : QueryIntent} {s' : Session} {e : Envelope}
      (h : (read m intent caps s').1 = .ok e) (hs' : m.Serves t s')
      (hcaps : caps.contains .relations = false) : (read m intent caps s).1 = .ok e :=
    answer_read_of_serves hkey hnames hs' hs (fun hrelations => by simp [hcaps] at hrelations) h
  constructor
  · intro hcaps limit count sessions pages hlimit hcount hpages htotal
    have hpage (k : Nat) (hk : k < count) := by
      obtain ⟨hserves, h⟩ := hpages k hk
      have h := hmove h hserves hcaps
      rw [(reads_read m _ _ s).1] at h
      exact collection_of_answer h hcaps
    obtain ⟨t', columns, sorts, rows, hfinds, hlength, _⟩ := hpage 0 hcount
    have hall : (readQuery m intent { caps with pagination := false } []).Finds s.database t'
        columns sorts rows := hfinds.with_page nofun
    obtain ⟨whole, hwhole, hcollection⟩ := answer_of_finds hall hcaps rfl
    refine ⟨whole, (reads_read m intent _ s).1.trans hwhole, ?_⟩
    have hslice (k : Nat) (hk : k ∈ List.range count) : (pages k).collection =
        (Page.slice ⟨limit, k * limit⟩ (sortRows (rowLe sorts) rows)).map (t'.shown columns) := by
      obtain ⟨t'', columns', sorts', rows', hfinds', _, hk⟩ := hpage k (List.mem_range.1 hk)
      obtain ⟨rfl, rfl, rfl, rfl⟩ := hall.unique (hfinds'.with_page nofun)
      exact hk
    have henough : (sortRows (rowLe sorts) rows).length ≤ count * limit := by
      rw [(sortRows_perm _ rows).length_eq, ← hlength hlimit]
      exact htotal
    rw [List.flatMap_congr hslice, ← List.map_flatMap, Page.flatMap_slice,
      List.take_of_length_le henough, hcollection]
  · intro s' hs' hrelations e
    constructor
    · intro h
      exact answer_read_of_serves hkey hnames hs' hs hrelations h
    · intro h
      refine answer_read_of_serves hkey hnames hs hs' ?_ h
      intro hcaps r hr
      exact (hrelations hcaps r hr).symm

/-- People, two of whom are called the same. -/
def namesakes (rows : List Row) : Table where
  name := "people"
  columns := [⟨"id", .bigint⟩, ⟨"name", .varchar⟩]
  key := some "id"
  rows := rows

/-- Two pages in the order of names, the second one read after the rows were moved. -/
theorem pages_of_namesakes :
    ∃ whole, (read { table := "people" }
        { order := some ⟨"name", .desc⟩, pagination := ⟨2, 0⟩ } (.ofList [.order])
        { database := { tables := [namesakes [[.integer 1, .text "Ann"], [.integer 2, .text "Bob"],
          [.integer 3, .text "Ann"]]] } }).1 = .ok whole ∧
      [.ofList [("id", .int 2), ("name", .string "Bob")],
        .ofList [("id", .int 1), ("name", .string "Ann")],
        .ofList [("id", .int 3), ("name", .string "Ann")]] = whole.collection := by
  have hrows :
      [[.integer 3, .text "Ann"], [.integer 2, .text "Bob"], [.integer 1, .text "Ann"]].Perm
      [[.integer 1, .text "Ann"], [.integer 2, .text "Bob"], [Cell.integer 3, .text "Ann"]] := by
    decide
  refine (@pages_of_read { table := "people" }
    { order := some ⟨"name", .desc⟩, pagination := ⟨2, 0⟩ } (.ofList [.order, .pagination])
    (namesakes _) _ ⟨0, rfl, by decide⟩ (by decide) ⟨_, rfl, rfl, .refl _⟩).1 rfl 2 2
    (fun k => { database := { tables := [namesakes (if k = 0 then
      [[.integer 1, .text "Ann"], [.integer 2, .text "Bob"], [.integer 3, .text "Ann"]]
      else [[.integer 3, .text "Ann"], [.integer 2, .text "Bob"], [.integer 1, .text "Ann"]])] } })
    (fun k => if k = 0 then ⟨3, [.ofList [("id", .int 2), ("name", .string "Bob")],
        .ofList [("id", .int 1), ("name", .string "Ann")]], 2, 0⟩
      else ⟨3, [.ofList [("id", .int 3), ("name", .string "Ann")]], 2, 2⟩)
    (by decide) (by decide) (fun k hk => ?_) (by decide)
  rcases Nat.lt_succ_iff_lt_or_eq.1 hk with hk | rfl
  · cases Nat.lt_one_iff.1 hk
    exact ⟨⟨_, rfl, rfl, .refl _⟩, rfl⟩
  · exact ⟨⟨_, rfl, rfl, hrows⟩, rfl⟩

end Action

end ParamQuery
