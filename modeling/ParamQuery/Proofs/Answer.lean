import ParamQuery.Proofs.Result
import ParamQuery.Store.Read

/-!
# Answers

Actions that only read give an answer that is a function of the database alone: they leave it as it
is, and the statements made before do not matter. What is said about a read can then be said about
its answer.

## Main definitions

* `Action.answer` — what an action gives on a database.
* `Action.Reads` — the actions that only read.

## Main statements

* `Action.answer_bind` — the answer of two actions, one after the other.
* `Action.reads_read` — reading only reads.
* `Action.answer_read_eq_ok_iff` — what an answer of a read is made of.
-/

namespace ParamQuery

/-! ## Actions that only read -/

namespace Action

variable {α β : Type}

/-- What an action gives on a database, with no statement made before. -/
def answer (act : Action α) (db : Database) : Except Error α := (act { database := db }).1

/-- The action gives its answer on any session, and leaves the database as it is. -/
def Reads (act : Action α) : Prop :=
  ∀ s, (act s).1 = act.answer s.database ∧ (act s).2.database = s.database

@[simp] theorem answer_ofExcept (result : Except Error α) (db : Database) :
    (ofExcept result).answer db = result := rfl

@[simp] theorem answer_pure (a : α) (db : Database) : (pure a : Action α).answer db = .ok a := rfl

theorem reads_ofExcept (result : Except Error α) : (ofExcept result).Reads :=
  fun _ => ⟨rfl, rfl⟩

theorem reads_pure (a : α) : (pure a : Action α).Reads := reads_ofExcept (.ok a)

theorem answer_bind {act : Action α} {next : α → Action β} (h : act.Reads)
    (hnext : ∀ a, (next a).Reads) (db : Database) :
    (act >>= next).answer db = act.answer db >>= fun a => (next a).answer db := by
  have hdb := (h { database := db }).2
  unfold answer
  rw [bind_apply]
  split
  · next a s hact =>
    rw [hact] at hdb ⊢
    exact ((hnext a) s).1.trans (congrArg _ hdb)
  · next e s hact =>
    rw [hact]
    rfl

theorem reads_bind {act : Action α} {next : α → Action β} (h : act.Reads)
    (hnext : ∀ a, (next a).Reads) : (act >>= next).Reads := by
  intro s
  obtain ⟨hanswer, hdb⟩ := h s
  rw [answer_bind h hnext, ← hanswer, bind_apply]
  split
  · next a s' hact =>
    rw [hact] at hdb ⊢
    exact ⟨((hnext a) s').1.trans (congrArg _ hdb), ((hnext a) s').2.trans hdb⟩
  · next e s' hact =>
    rw [hact] at hdb ⊢
    exact ⟨rfl, hdb⟩

theorem transaction_apply (act : Action α) (s : Session) :
    (transaction act s).1 = (act s).1 := by
  unfold transaction
  split <;> simp_all

@[simp] theorem answer_transaction (act : Action α) (db : Database) :
    (transaction act).answer db = act.answer db :=
  transaction_apply act _

theorem reads_transaction {act : Action α} (h : act.Reads) : (transaction act).Reads := by
  intro s
  refine ⟨by rw [transaction_apply, answer_transaction, (h s).1], ?_⟩
  have hdb := (h s).2
  unfold transaction
  split
  · next a s' hact => simpa [hact] using hdb
  · next e s' hact =>
    rw [hact] at hdb
    simp [← hdb]

/-! ## Statements that only ask -/

theorem reads_fetch {statement : Statement} (h : ∀ db, (statement.run db).2 = db) :
    (fetch statement).Reads := by
  intro s
  have hdb := h s.database
  unfold fetch
  simp only [answer, note, perform, bind_apply, pure_apply]
  cases hrun : (statement.run s.database).1 <;> simp_all [Except.mapError]

/-- A statement fails with the fault that the tables report. -/
theorem answer_fetch_eq_error_iff {statement : Statement} {db : Database} {e : Error} :
    (fetch statement).answer db = .error e ↔
      ∃ fault, (statement.run db).1 = .error fault ∧ e = .engine fault := by
  unfold answer fetch
  simp only [note, perform, bind_apply, pure_apply]
  cases (statement.run db).1 <;> simp [Except.mapError, eq_comm]

theorem reads_select (q : Query) : (fetch (.select q)).Reads := reads_fetch fun _ => rfl

theorem reads_count (table : String) (conditions : List Condition) :
    (fetch (.count table conditions)).Reads :=
  reads_fetch fun _ => rfl

theorem answer_select_eq_ok_iff {q : Query} {db : Database} {page : List Entity} :
    (fetch (.select q)).answer db = .ok page ↔
      ∃ records, q.run db = .ok records ∧ page = records.map Record.entity := by
  unfold answer fetch
  simp only [note, perform, bind_apply, pure_apply, Statement.run]
  cases q.run db with
  | error fault => simp [Except.map, Except.mapError]
  | ok records => simp [Except.map, Except.mapError, eq_comm]

/-- The answer of a question depends on its table alone. -/
theorem answer_select_congr {q : Query} {db db' : Database}
    (h : db.table q.table = db'.table q.table) :
    (fetch (.select q)).answer db = (fetch (.select q)).answer db' := by
  have hrun : q.run db = q.run db' := by
    unfold Query.run
    rw [h]
  unfold answer fetch
  simp only [note, perform, bind_apply, pure_apply, Statement.run, hrun]
  cases q.run db' <;> rfl

/-- The answer of a count is one row with the number of the rows that satisfy the conditions. -/
theorem answer_count_eq_ok_iff {table : String} {conditions : List Condition} {db : Database}
    {page : List Entity} :
    (fetch (.count table conditions)).answer db = .ok page ↔
      ∃ t rows, db.table table = .ok t ∧ t.matching conditions = .ok rows ∧
        page = [Record.entity [("n", .integer rows.length)]] := by
  unfold answer fetch
  simp only [note, perform, bind_apply, pure_apply, Statement.run]
  cases db.table table with
  | error fault => simp [bind, Except.bind, Except.mapError]
  | ok t =>
    cases hrows : t.matching conditions with
    | error fault => simp [bind, Except.bind, Except.mapError, hrows]
    | ok rows => simp [bind, Except.bind, pure, Except.pure, Except.mapError, hrows, eq_comm]

end Action

/-! ## Loading relations -/

namespace Wanted

open ParamQuery.Action

/-- The related rows of a page, as they come from the table; none are asked for without a key. -/
def loaded (w : Wanted) (filter : Option FilterBuckets) (page : List Entity) :
    Action (List Entity) :=
  if (pageKeys w.relation.parentColumn page).isEmpty then pure []
  else fetch (.select (w.query filter (pageKeys w.relation.parentColumn page)))

theorem reads_loaded (w : Wanted) (filter : Option FilterBuckets) (page : List Entity) :
    (w.loaded filter page).Reads := by
  unfold loaded
  split
  · exact reads_pure _
  · exact reads_select _

theorem attach_eq (w : Wanted) (filter : Option FilterBuckets) (page : List Entity) :
    w.attach filter page =
      w.loaded filter page >>= fun rows => pure (page.map (w.place (w.groupRows rows))) := by
  simp only [attach, loaded]
  split <;> rfl

theorem reads_attach (w : Wanted) (filter : Option FilterBuckets) (page : List Entity) :
    (w.attach filter page).Reads :=
  attach_eq w filter page ▸ reads_bind (w.reads_loaded filter page) fun _ => reads_pure _

theorem answer_attach_eq_ok_iff {w : Wanted} {filter : Option FilterBuckets}
    {page result : List Entity} {db : Database} :
    (w.attach filter page).answer db = .ok result ↔
      ∃ rows, (w.loaded filter page).answer db = .ok rows ∧
        result = page.map (w.place (w.groupRows rows)) := by
  rw [attach_eq, answer_bind (w.reads_loaded filter page) fun _ => reads_pure _, bind_eq_ok_iff]
  simp [eq_comm]

theorem answer_attach_congr {w : Wanted} {filter : Option FilterBuckets} {page : List Entity}
    {db db' : Database} (h : db.table w.relation.table = db'.table w.relation.table) :
    (w.attach filter page).answer db = (w.attach filter page).answer db' := by
  have hloaded : (w.loaded filter page).answer db = (w.loaded filter page).answer db' := by
    unfold loaded
    split
    · rfl
    · exact answer_select_congr h
  rw [attach_eq, answer_bind (w.reads_loaded filter page) fun _ => reads_pure _,
    answer_bind (w.reads_loaded filter page) fun _ => reads_pure _, hloaded]
  rfl

theorem reads_attachAll (filter : Wanted → Option FilterBuckets) (ws : List Wanted)
    (page : List Entity) : (attachAll filter ws page).Reads := by
  induction ws generalizing page with
  | nil => exact reads_pure page
  | cons w rest ih => exact reads_bind (w.reads_attach _ page) ih

theorem answer_attachAll_cons (filter : Wanted → Option FilterBuckets) (w : Wanted)
    (rest : List Wanted) (page : List Entity) (db : Database) :
    (attachAll filter (w :: rest) page).answer db =
      (w.attach (filter w) page).answer db >>= fun page =>
        (attachAll filter rest page).answer db :=
  answer_bind (w.reads_attach _ page) (reads_attachAll filter rest) db

/-- Loading relations depends on their tables alone. -/
theorem answer_attachAll_congr {filter : Wanted → Option FilterBuckets} {ws : List Wanted}
    {page : List Entity} {db db' : Database}
    (h : ∀ w ∈ ws, db.table w.relation.table = db'.table w.relation.table) :
    (attachAll filter ws page).answer db = (attachAll filter ws page).answer db' := by
  induction ws generalizing page with
  | nil => rfl
  | cons w rest ih =>
    rw [answer_attachAll_cons, answer_attachAll_cons, answer_attach_congr (h w (by simp))]
    exact bind_congr fun page => ih fun w hw => h w (by simp [hw])

end Wanted

/-! ## Reading -/

namespace Action

theorem reads_recount (q : Query) : (recount q).Reads :=
  reads_bind (reads_count _ _) fun _ => reads_pure _

theorem reads_total (q : Query) (page : List Entity) : (total q page).Reads := by
  unfold total
  split
  · exact reads_pure _
  · split
    · split
      · exact reads_recount q
      · exact reads_pure _
    · exact reads_pure _

theorem reads_readPlan (plan : ReadPlan) (filter : Wanted → Option FilterBuckets) :
    (readPlan plan filter).Reads :=
  reads_bind (reads_select _) fun _ => reads_bind (reads_total _ _) fun _ =>
    reads_bind (Wanted.reads_attachAll _ _ _) fun _ => reads_pure _

/-- The rows of a plan without what was read only to load relations. -/
def withoutHelpers (helpers : List String) (entity : Entity) : Entity :=
  helpers.foldl (fun entity helper => entity.erase helper) entity

theorem get?_withoutHelpers (helpers : List String) (entity : Entity) (name : String) :
    OrderedMap.get? (withoutHelpers helpers entity) name =
      if name ∈ helpers then none else entity.get? name := by
  unfold withoutHelpers
  induction helpers generalizing entity with
  | nil => simp
  | cons helper rest ih =>
    rw [List.foldl_cons, ih, OrderedMap.get?_erase]
    by_cases hname : helper = name
    · simp [hname]
    · simp [hname, Ne.symm hname]

/-- The envelope of a total and a page. -/
def envelope (plan : ReadPlan) (total : Nat) (page : List Entity) : Envelope where
  total := total
  collection := page.map (withoutHelpers plan.helpers)
  limit := (plan.query.page.map Page.limit).getD total
  offset := (plan.query.page.map Page.offset).getD 0

theorem read_eq (m : Model) (intent : QueryIntent) (caps : Capabilities) :
    read m intent caps =
      ofExcept (ReadPlan.make m intent caps) >>= fun plan =>
        transaction (readPlan plan (relationFilter intent caps)) >>= fun result =>
          pure (envelope plan result.1 result.2) := by
  unfold read
  congr 1
  funext plan
  congr 1
  funext result
  cases hp : plan.query.page <;> simp only [envelope, hp] <;> rfl

/-- A read leaves the database as it is, and its result does not depend on earlier statements. -/
theorem reads_read (m : Model) (intent : QueryIntent) (caps : Capabilities) :
    (read m intent caps).Reads :=
  read_eq m intent caps ▸ reads_bind (reads_ofExcept _) fun _ =>
    reads_bind (reads_transaction (reads_readPlan _ _)) fun _ => reads_pure _

/-- What the answer of a plan is made of: the rows of the page, the total, and the page with its
relations. -/
theorem answer_readPlan_eq_ok_iff {plan : ReadPlan} {filter : Wanted → Option FilterBuckets}
    {db : Database} {n : Nat} {page : List Entity} :
    (readPlan plan filter).answer db = .ok (n, page) ↔
      ∃ rows, (fetch (.select plan.query)).answer db = .ok rows ∧
        (total plan.query rows).answer db = .ok n ∧
        (Wanted.attachAll filter plan.wanted
          (rows.map fun entity => entity.erase totalColumn)).answer db = .ok page := by
  unfold readPlan
  rw [answer_bind (reads_select _) fun _ => reads_bind (reads_total _ _) fun _ =>
    reads_bind (Wanted.reads_attachAll _ _ _) fun _ => reads_pure _, bind_eq_ok_iff]
  refine exists_congr fun rows => and_congr_right fun _ => ?_
  rw [answer_bind (reads_total _ _) fun _ =>
    reads_bind (Wanted.reads_attachAll _ _ _) fun _ => reads_pure _, bind_eq_ok_iff]
  simp only [answer_bind (Wanted.reads_attachAll _ _ _) fun _ => reads_pure _, bind_eq_ok_iff,
    answer_pure, Except.ok.injEq, Prod.mk.injEq]
  constructor
  · rintro ⟨n', hn, page', hpage, rfl, rfl⟩
    exact ⟨hn, hpage⟩
  · rintro ⟨hn, hpage⟩
    exact ⟨n, hn, page, hpage, rfl, rfl⟩

/-- What the answer of a read is made of. -/
theorem answer_read_eq_ok_iff {m : Model} {intent : QueryIntent} {caps : Capabilities}
    {db : Database} {e : Envelope} :
    (read m intent caps).answer db = .ok e ↔
      ∃ plan rows n page, ReadPlan.make m intent caps = .ok plan ∧
        (fetch (.select plan.query)).answer db = .ok rows ∧
        (total plan.query rows).answer db = .ok n ∧
        (Wanted.attachAll (relationFilter intent caps) plan.wanted
          (rows.map fun entity => entity.erase totalColumn)).answer db = .ok page ∧
        e = envelope plan n page := by
  rw [read_eq, answer_bind (reads_ofExcept _) fun _ =>
    reads_bind (reads_transaction (reads_readPlan _ _)) fun _ => reads_pure _, bind_eq_ok_iff]
  simp only [answer_bind (reads_transaction (reads_readPlan _ _)) fun _ => reads_pure _,
    bind_eq_ok_iff, answer_transaction, answer_ofExcept, answer_pure, Except.ok.injEq,
    Prod.exists, answer_readPlan_eq_ok_iff]
  constructor
  · rintro ⟨plan, hplan, n, page, ⟨rows, hrows, hn, hpage⟩, rfl⟩
    exact ⟨plan, rows, n, page, hplan, hrows, hn, hpage, rfl⟩
  · rintro ⟨plan, rows, n, page, hplan, hrows, hn, hpage, rfl⟩
    exact ⟨plan, hplan, n, page, ⟨rows, hrows, hn, hpage⟩, rfl⟩

end Action

end ParamQuery
