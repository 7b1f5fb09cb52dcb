import ParamQuery.Proofs.Read.Outcome

/-!
# Texts that the tables cannot read

A bound text is read as a value of its column when a row gets to it, and a text that the column
cannot read makes the statement fail. So a read that fails for a text was given it by a condition,
or the text is the key of a row whose relations are loaded.

## Main definitions

* `Condition.Rejects`, `Query.Rejects` — a text is bound that its column cannot read.

## Main statements

* `Table.matching_eq_error` — why choosing rows fails.
* `Action.rejects_of_read` — which statement of a read a text that cannot be read belongs to.
-/

namespace ParamQuery

/-- A condition binds a text that its column cannot read. -/
inductive Condition.Rejects (t : Table) (text : String) : Condition → Prop where
  | compare {op : CompareOp} {name : String} {index : Nat} {column : Column} :
    t.column name = .ok (index, column) → column.type.read? text = none →
    Rejects t text (.compare ⟨op, name, text⟩)
  | oneOf {name : String} {values : List String} {index : Nat} {column : Column} :
    text ∈ values → t.column name = .ok (index, column) → column.type.read? text = none →
    Rejects t text (.oneOf name values)

/-- A question binds a text that its column cannot read. -/
def Query.Rejects (q : Query) (db : Database) (text : String) : Prop :=
  ∃ t, db.table q.table = .ok t ∧ ∃ c ∈ q.conditions, c.Rejects t text

/-! ## Rows -/

theorem ColumnType.read_eq_error_iff {type : ColumnType} {text : String} {fault : EngineFault} :
    type.read text = .error fault ↔ type.read? text = none ∧ fault = .unreadableText text := by
  unfold read
  cases type.read? text <;> simp [eq_comm]

/-- A test fails on a row only for a text that its column cannot read. -/
theorem Condition.rejects_of_holds {t : Table} {c : Condition} {test : Test} {row : Row}
    {fault : EngineFault} (htest : t.test c = .ok test) (h : test.holds row = .error fault) :
    ∃ text, fault = .unreadableText text ∧ c.Rejects t text := by
  cases c with
  | search columns pattern =>
    obtain ⟨found, _, htest⟩ := bind_eq_ok_iff.1 htest
    cases htest
    cases h
  | compare c =>
    obtain ⟨⟨index, column⟩, hcolumn, htest⟩ := bind_eq_ok_iff.1 htest
    cases htest
    obtain h | ⟨_, _, h⟩ := bind_eq_error_iff.1 h
    · obtain ⟨hread, rfl⟩ := ColumnType.read_eq_error_iff.1 h
      exact ⟨_, rfl, .compare hcolumn hread⟩
    · cases h
  | oneOf name values =>
    obtain ⟨⟨index, column⟩, hcolumn, htest⟩ := bind_eq_ok_iff.1 htest
    cases htest
    obtain h | ⟨_, _, h⟩ := bind_eq_error_iff.1 h
    · obtain ⟨value, hvalue, h⟩ := exists_of_mapM_eq_error h
      obtain ⟨hread, rfl⟩ := ColumnType.read_eq_error_iff.1 h
      exact ⟨_, rfl, .oneOf hvalue hcolumn hread⟩
    · cases h

/-- Tests in a row fail only for a text of one of them. -/
theorem Condition.rejects_of_allHold {t : Table} {conditions : List Condition} {tests : List Test}
    {row : Row} {fault : EngineFault} (htests : conditions.mapM t.test = .ok tests)
    (h : Test.allHold tests row = .error fault) :
    ∃ text, fault = .unreadableText text ∧ ∃ c ∈ conditions, c.Rejects t text := by
  have hpaired := mapM_eq_ok_iff.1 htests
  clear htests
  induction hpaired with
  | nil => cases h
  | cons htest _ ih =>
    obtain h | ⟨passes, _, h⟩ := bind_eq_error_iff.1 h
    · obtain ⟨text, rfl, hrejects⟩ := rejects_of_holds htest h
      exact ⟨text, rfl, _, List.mem_cons_self, hrejects⟩
    · cases passes with
      | true =>
        obtain ⟨text, rfl, c, hc, hrejects⟩ := ih (by simpa using h)
        exact ⟨text, rfl, c, List.mem_cons_of_mem _ hc, hrejects⟩
      | false => cases h

theorem Test.exists_of_select_eq_error {tests : List Test} {rows : List Row} {fault : EngineFault}
    (h : select tests rows = .error fault) : ∃ row ∈ rows, allHold tests row = .error fault := by
  induction rows with
  | nil => cases h
  | cons row rest ih =>
    simp only [select, bind_eq_error_iff, pure_ne_error, and_false, exists_false, or_false] at h
    rcases h with h | ⟨_, _, h⟩
    · exact ⟨row, List.mem_cons_self, h⟩
    · obtain ⟨other, hother, h⟩ := ih h
      exact ⟨other, List.mem_cons_of_mem row hother, h⟩

namespace Table

variable {t : Table} {fault : EngineFault}

theorem eq_unknownColumn_of_column {name : String} (h : t.column name = .error fault) :
    fault = .unknownColumn name := by
  unfold Table.column at h
  split at h
  · cases h
  · exact (Except.error.inj h).symm

theorem exists_unknownColumn_of_test {c : Condition} (h : t.test c = .error fault) :
    ∃ name, fault = .unknownColumn name := by
  cases c with
  | search columns pattern =>
    obtain h | ⟨_, _, h⟩ := bind_eq_error_iff.1 h
    · obtain ⟨name, _, h⟩ := exists_of_mapM_eq_error h
      exact ⟨name, eq_unknownColumn_of_column h⟩
    · cases h
  | compare c =>
    obtain h | ⟨_, _, h⟩ := bind_eq_error_iff.1 h
    · exact ⟨_, eq_unknownColumn_of_column h⟩
    · cases h
  | oneOf name values =>
    obtain h | ⟨_, _, h⟩ := bind_eq_error_iff.1 h
    · exact ⟨_, eq_unknownColumn_of_column h⟩
    · cases h

/-- Choosing rows fails for a name that no column has, or for a text that its column cannot read. -/
theorem matching_eq_error {conditions : List Condition} (h : t.matching conditions = .error fault) :
    (∃ name, fault = .unknownColumn name) ∨
      ∃ text, fault = .unreadableText text ∧ ∃ c ∈ conditions, c.Rejects t text := by
  obtain h | ⟨tests, htests, h⟩ := bind_eq_error_iff.1 h
  · obtain ⟨c, _, h⟩ := exists_of_mapM_eq_error h
    exact .inl (exists_unknownColumn_of_test h)
  · obtain ⟨row, _, h⟩ := Test.exists_of_select_eq_error h
    exact .inr (Condition.rejects_of_allHold htests h)

end Table

/-! ## Questions -/

theorem Database.eq_unknownTable_of_table {db : Database} {name : String} {fault : EngineFault}
    (h : db.table name = .error fault) : fault = .unknownTable name := by
  unfold Database.table at h
  split at h
  · cases h
  · exact (Except.error.inj h).symm

theorem Table.exists_unknownColumn_of_sortIndex {t : Table} {withTotal : Bool} {key : SortKey}
    {fault : EngineFault} (h : t.sortIndex withTotal key = .error fault) :
    ∃ name, fault = .unknownColumn name := by
  unfold sortIndex at h
  split at h
  · cases h
  · obtain h | ⟨_, _, h⟩ := bind_eq_error_iff.1 h
    · exact ⟨_, eq_unknownColumn_of_column h⟩
    · cases h

theorem Page.eq_countTooLarge_of_check {page : Page} {fault : EngineFault}
    (h : page.check = .error fault) : fault = .countTooLarge := by
  unfold check at h
  split at h
  · cases h
  · exact (Except.error.inj h).symm

section

variable {q : Query} {db : Database} {text : String}

theorem Table.rejects_of_matching {t : Table} {conditions : List Condition}
    (h : t.matching conditions = .error (.unreadableText text)) :
    ∃ c ∈ conditions, c.Rejects t text := by
  obtain ⟨name, hname⟩ | ⟨other, heq, hrejects⟩ := matching_eq_error h
  · cases hname
  · cases heq
    exact hrejects

/-- Of all that makes a question fail only the conditions bind texts. -/
theorem Query.rejects_of_run (h : q.run db = .error (.unreadableText text)) : q.Rejects db text := by
  obtain h | ⟨t, ht, h⟩ := bind_eq_error_iff.1 h
  · cases Database.eq_unknownTable_of_table h
  obtain h | ⟨columns, _, h⟩ := bind_eq_error_iff.1 h
  · obtain ⟨name, _, h⟩ := exists_of_mapM_eq_error h
    cases Table.eq_unknownColumn_of_column h
  obtain h | ⟨sorts, _, h⟩ := bind_eq_error_iff.1 h
  · obtain ⟨key, _, h⟩ := exists_of_mapM_eq_error h
    obtain ⟨name, heq⟩ := Table.exists_unknownColumn_of_sortIndex h
    cases heq
  have hrows {rest : List Row → Except EngineFault (List Record)} (hrest : ∀ rows e,
      rest rows ≠ .error e) (h : (t.matching q.conditions >>= rest) =
        .error (.unreadableText text)) : q.Rejects db text := by
    obtain h | ⟨rows, _, h⟩ := bind_eq_error_iff.1 h
    · exact ⟨t, ht, Table.rejects_of_matching h⟩
    · exact absurd h (hrest rows _)
  cases hpage : q.page with
  | none =>
    rw [hpage] at h
    exact hrows (fun _ _ => pure_ne_error) h
  | some page =>
    rw [hpage] at h
    obtain h | ⟨_, _, h⟩ := bind_eq_error_iff.1 h
    · cases Page.eq_countTooLarge_of_check h
    · exact hrows (fun _ _ => pure_ne_error) h

namespace Action

theorem rejects_of_select
    (h : (fetch (.select q)).answer db = .error (.engine (.unreadableText text))) :
    q.Rejects db text := by
  obtain ⟨fault, hrun, heq⟩ := answer_fetch_eq_error_iff.1 h
  cases heq
  rw [Statement.run] at hrun
  cases hq : q.run db with
  | ok records => simp [hq, Except.map] at hrun
  | error fault =>
    have hfault : fault = .unreadableText text := by simpa [hq, Except.map] using hrun
    exact Query.rejects_of_run (hfault ▸ hq)

theorem rejects_of_recount
    (h : (recount q).answer db = .error (.engine (.unreadableText text))) : q.Rejects db text := by
  rw [recount, answer_bind (reads_count _ _) fun _ => reads_pure _] at h
  obtain h | ⟨_, _, h⟩ := bind_eq_error_iff.1 h
  · obtain ⟨fault, hrun, heq⟩ := answer_fetch_eq_error_iff.1 h
    cases heq
    obtain ht | ⟨t, ht, hrun⟩ := bind_eq_error_iff.1 hrun
    · cases Database.eq_unknownTable_of_table ht
    obtain hrows | ⟨_, _, hrun⟩ := bind_eq_error_iff.1 hrun
    · exact ⟨t, ht, Table.rejects_of_matching hrows⟩
    · cases hrun
  · cases h

theorem rejects_of_total {page : List Entity}
    (h : (total q page).answer db = .error (.engine (.unreadableText text))) :
    q.Rejects db text := by
  unfold total at h
  split at h
  · cases h
  · split at h
    · split at h
      · exact rejects_of_recount h
      · cases h
    · cases h

end Action

end

/-! ## Reads -/

/-- Loading relations fails for a text of the question for the related rows of some page. -/
theorem Wanted.rejects_of_attachAll {filter : Wanted → Option FilterBuckets} {ws : List Wanted}
    {page : List Entity} {db : Database} {text : String}
    (h : (attachAll filter ws page).answer db = .error (.engine (.unreadableText text))) :
    ∃ w ∈ ws, ∃ page,
      (w.query (filter w) (pageKeys w.relation.parentColumn page)).Rejects db text := by
  induction ws generalizing page with
  | nil => cases h
  | cons w rest ih =>
    rw [answer_attachAll_cons, attach_eq,
      Action.answer_bind (w.reads_loaded _ page) fun _ => Action.reads_pure _] at h
    obtain h | ⟨next, _, h⟩ := bind_eq_error_iff.1 h
    · obtain h | ⟨_, _, h⟩ := bind_eq_error_iff.1 h
      · unfold loaded at h
        split at h
        · cases h
        · exact ⟨w, List.mem_cons_self, page, Action.rejects_of_select h⟩
      · cases h
    · obtain ⟨w', hw', hrejects⟩ := ih h
      exact ⟨w', List.mem_cons_of_mem w hw', hrejects⟩

theorem Model.resolveAll_ne_engine {m : Model} {entries : List (String × List String)}
    {fault : EngineFault} : m.resolveAll entries ≠ .error (.engine fault) := by
  induction entries with
  | nil => nofun
  | cons entry rest ih =>
    obtain ⟨name, fields⟩ := entry
    unfold resolveAll
    cases m.relation? name with
    | none => simp
    | some relation =>
      intro h
      obtain h | ⟨_, _, h⟩ := bind_eq_error_iff.1 h
      · exact ih h
      · cases h

/-- A read that fails for a text binds it in the question for its rows, or in the one for the
related rows of one of its relations. -/
theorem Action.rejects_of_read {m : Model} {intent : QueryIntent} {caps : Capabilities}
    {s : Session} {text : String}
    (h : (read m intent caps s).1 = .error (.engine (.unreadableText text))) :
    ∃ wanted, wantedRelations m intent.fields caps = .ok wanted ∧
      ((readQuery m intent caps wanted).Rejects s.database text ∨ ∃ w ∈ wanted, ∃ page,
        (w.query (relationFilter intent caps w)
          (pageKeys w.relation.parentColumn page)).Rejects s.database text) := by
  rw [(reads_read m intent caps s).1, read_eq, answer_bind (reads_ofExcept _) fun _ =>
    reads_bind (reads_transaction (reads_readPlan _ _)) fun _ => reads_pure _] at h
  have hmake : ReadPlan.make m intent caps ≠ .error (.engine (.unreadableText text)) := by
    intro hmake
    obtain hmake | ⟨_, _, hmake⟩ := bind_eq_error_iff.1 hmake
    · unfold wantedRelations at hmake
      split at hmake
      · exact Model.resolveAll_ne_engine hmake
      · cases hmake
    · cases hmake
  obtain h | ⟨plan, hplan, h⟩ := bind_eq_error_iff.1 h
  · exact absurd h hmake
  obtain ⟨wanted, hwanted, rfl⟩ := ReadPlan.make_eq_ok_iff.1 hplan
  refine ⟨wanted, hwanted, ?_⟩
  rw [answer_bind (reads_transaction (reads_readPlan _ _)) fun _ => reads_pure _,
    answer_transaction, readPlan, answer_bind (reads_select _) fun _ =>
      reads_bind (reads_total _ _) fun _ =>
        reads_bind (Wanted.reads_attachAll _ _ _) fun _ => reads_pure _] at h
  obtain h | ⟨_, _, h⟩ := bind_eq_error_iff.1 h
  · obtain h | ⟨rows, _, h⟩ := bind_eq_error_iff.1 h
    · exact .inl (rejects_of_select h)
    · rw [answer_bind (reads_total _ _) fun _ =>
        reads_bind (Wanted.reads_attachAll _ _ _) fun _ => reads_pure _] at h
      obtain h | ⟨_, _, h⟩ := bind_eq_error_iff.1 h
      · exact .inl (rejects_of_total h)
      · rw [answer_bind (Wanted.reads_attachAll _ _ _) fun _ => reads_pure _] at h
        obtain h | ⟨_, _, h⟩ := bind_eq_error_iff.1 h
        · exact .inr (Wanted.rejects_of_attachAll h)
        · cases h
  · cases h

end ParamQuery
