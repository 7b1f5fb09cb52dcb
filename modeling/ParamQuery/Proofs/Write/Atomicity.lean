import ParamQuery.Proofs.Answer
import ParamQuery.Proofs.Write.Rows
import ParamQuery.Store.Write

/-!
# Writes are all or nothing

A write that fails, wherever it fails, leaves the rows of all tables as they were; one that succeeds
changes the rows of its table in the way it is meant to, and nothing else.

## Main definitions

* `Action.Effects` — what an action does to the rows if it succeeds, when it does nothing if it
  fails.

## Main statements

* `Action.effects_transaction` — a transaction has the effect that its action has if it succeeds.
* `Action.effects_of_actions` — the effects of creating, updating, deleting and reading.
-/

namespace ParamQuery

namespace Action

variable {α β : Type} {effect : Database → Database → Prop}

/-- An action changes the database in some way if it succeeds, and no row of it if it fails. -/
structure Effects (act : Action α) (effect : Database → Database → Prop) : Prop where
  ok : ∀ s s' a, act s = (.ok a, s') → effect s.database s'.database
  error : ∀ s s' e, act s = (.error e, s') → s'.database.tables = s.database.tables

/-! ## Actions one after the other -/

theorem bind_eq_ok_iff {act : Action α} {next : α → Action β} {s s' : Session} {b : β} :
    (act >>= next) s = (.ok b, s') ↔
      ∃ a mid, act s = (.ok a, mid) ∧ next a mid = (.ok b, s') := by
  rw [bind_apply]
  split
  · next a mid hact => simp [hact]
  · next e mid hact => simp [hact]

/-- What is done before the session is looked at has no effect of its own. -/
theorem effects_ofExcept_bind {result : Except Error α} {next : α → Action β}
    (h : ∀ a, result = .ok a → (next a).Effects effect) :
    (ofExcept result >>= next).Effects effect := by
  cases result with
  | ok a => exact h a rfl
  | error e =>
    constructor
    · rintro s s' a ⟨⟩
    · rintro s s' e' ⟨⟩
      rfl

/-- What is done with the result has no effect of its own. -/
theorem effects_bind_pure {act : Action α} (h : act.Effects effect) (f : α → β) :
    (act >>= fun a => pure (f a)).Effects effect := by
  constructor
  · intro s s' b hb
    obtain ⟨a, mid, hact, hb⟩ := bind_eq_ok_iff.1 hb
    cases hb
    exact h.ok s _ a hact
  · intro s s' e he
    rw [bind_apply] at he
    split at he
    · cases he
    · next e' mid hact =>
      cases he
      exact h.error s _ _ hact

/-- A transaction has the effect that its action has if it succeeds. -/
theorem effects_transaction {act : Action α}
    (h : ∀ s s' a, act s = (.ok a, s') → effect s.database s'.database) :
    (transaction act).Effects effect := by
  constructor
  · intro s s' a ha
    unfold transaction at ha
    split at ha
    · next a' after hact =>
      cases ha
      exact h s _ _ hact
    · cases ha
  · intro s s' e he
    have hfailed : (transaction act s).1 = .error e := by rw [he]
    have htables := (tables_transaction_of_error hfailed).2
    rwa [he] at htables

theorem of_transaction_eq_ok {act : Action α} {s s' : Session} {a : α}
    (h : transaction act s = (.ok a, s')) : act s = (.ok a, s') := by
  unfold transaction at h
  split at h
  · next hact => rw [hact, h]
  · cases h

/-! ## Statements -/

theorem perform_eq_ok_iff {statement : Statement} {s s' : Session} {answer : Answer} :
    perform statement s = (.ok answer, s') ↔
      ∃ db, statement.run s.database = (.ok answer, db) ∧ s' = { s with database := db } := by
  unfold perform
  rcases statement.run s.database with ⟨result, db⟩
  cases result <;> simp [Except.mapError, eq_comm, and_comm]

theorem perform_eq_error {statement : Statement} {s s' : Session} {e : Error}
    (h : perform statement s = (.error e, s')) :
    ∃ fault, statement.run s.database = (.error fault, s'.database) := by
  unfold perform at h
  rcases hrun : statement.run s.database with ⟨result, db⟩
  rw [hrun] at h
  cases result with
  | ok answer => cases h
  | error fault =>
    cases h
    exact ⟨fault, rfl⟩

/-- Rows that are fetched are those that the statement returns, and the database is the one after
the statement. -/
theorem fetch_eq_ok {statement : Statement} {s s' : Session} {rows : List Entity}
    (h : fetch statement s = (.ok rows, s')) :
    ∃ answer, statement.run s.database = (.ok answer, s'.database) ∧
      rows = answer.records.map Record.entity := by
  obtain ⟨_, noted, hnote, h⟩ := bind_eq_ok_iff.1 h
  cases hnote
  obtain ⟨answer, performed, hperform, h⟩ := bind_eq_ok_iff.1 h
  cases h
  obtain ⟨db, hrun, rfl⟩ := perform_eq_ok_iff.1 hperform
  exact ⟨answer, hrun, rfl⟩

/-! ## Writes -/

variable {m : Model} {key : String} {intent : QueryIntent} {caps : Capabilities}

theorem bodyValues_eq_ok {values : List (String × String)} (h : bodyValues intent = .ok values) :
    values = intent.body.entries := by
  unfold bodyValues at h
  split at h
  · cases h
  · exact (Except.ok.inj h).symm

/-- Creating adds one row with the values of the body. -/
theorem effects_create :
    (create m intent caps).Effects fun db db' =>
      db.Rewrites m.table (Table.Adds intent.body.entries) db' := by
  refine effects_ofExcept_bind fun values hvalues => ?_
  obtain rfl := bodyValues_eq_ok hvalues
  refine effects_bind_pure (effects_transaction fun s s' entity h => ?_) _
  obtain ⟨rows, mid, hfetch, h⟩ := bind_eq_ok_iff.1 h
  obtain ⟨answer, hrun, rfl⟩ := fetch_eq_ok hfetch
  cases hrecords : answer.records with
  | nil => simp [hrecords, fail, ofExcept] at h
  | cons record rest =>
    simp only [hrecords, List.map_cons, pure_apply, Prod.mk.injEq] at h
    rw [← h.2]
    exact Database.rewrites_of_insertRow hrun

/-- An update that succeeds returns the first row that its statement returns, with its relations as
they are after the statement, cut to the fields asked for. -/
theorem exists_of_update {entity : Entity} {s s' : Session}
    (h : update m key intent caps s = (.ok entity, s')) :
    ∃ wanted answer record rest loaded more, wantedRelations m intent.fields caps = .ok wanted ∧
      s.database.updateRows m.table intent.body.entries m.primaryKey key =
        .ok (answer, s'.database) ∧
      answer.records = record :: rest ∧
      (Wanted.attachAll (fun w => intent.filter.relation? w.relation.name) wanted
        [Record.entity record]).answer s'.database = .ok (loaded :: more) ∧
      entity = visible intent caps loaded := by
  obtain ⟨values, _, hbody, h⟩ := bind_eq_ok_iff.1 h
  obtain ⟨hvalues, rfl⟩ := Prod.mk.inj hbody
  obtain rfl := bodyValues_eq_ok hvalues
  obtain ⟨wanted, _, hresolve, h⟩ := bind_eq_ok_iff.1 h
  obtain ⟨hwanted, rfl⟩ := Prod.mk.inj hresolve
  obtain ⟨loaded, _, htransaction, hcut⟩ := bind_eq_ok_iff.1 h
  obtain ⟨hentity, rfl⟩ := Prod.mk.inj hcut
  obtain ⟨rows, mid, hfetch, h⟩ := bind_eq_ok_iff.1 (of_transaction_eq_ok htransaction)
  obtain ⟨answer, hrun, rfl⟩ := fetch_eq_ok hfetch
  have hupdate : s.database.updateRows m.table intent.body.entries m.primaryKey key =
      .ok (answer, mid.database) := by
    simp only [Statement.run, Database.after] at hrun
    split at hrun
    · next outcome =>
      cases hrun
      exact outcome
    · cases hrun
  cases hrecords : answer.records with
  | nil => simp [hrecords, fail, ofExcept] at h
  | cons record rest =>
    simp only [hrecords, List.map_cons] at h
    obtain ⟨page, after, hpage, h⟩ := bind_eq_ok_iff.1 h
    -- relations are loaded from the rows as they are now, and loading them changes nothing
    obtain ⟨hanswer, hafter⟩ := Wanted.reads_attachAll
      (fun w => intent.filter.relation? w.relation.name) wanted [Record.entity record] mid
    rw [hpage] at hanswer hafter
    cases page with
    | nil => simp [fail, ofExcept] at h
    | cons first more =>
      cases h
      rw [← hafter] at hupdate hanswer
      exact ⟨wanted, answer, record, rest, loaded, more, hwanted, hupdate, hrecords, hanswer.symm,
        (Except.ok.inj hentity).symm⟩

/-- Updating writes over the rows with the key. -/
theorem effects_update :
    (update m key intent caps).Effects fun db db' =>
      db.Rewrites m.table (Table.Changes m.primaryKey key intent.body.entries) db' where
  ok s s' entity h := by
    obtain ⟨_, answer, record, rest, _, _, _, hupdate, hrecords, _⟩ := exists_of_update h
    refine Database.rewrites_of_updateRows hupdate ?_
    simp [hrecords]
  error := by
    have hfails : (update m key intent caps).Effects fun _ _ => True :=
      effects_ofExcept_bind fun _ _ => effects_ofExcept_bind fun _ _ =>
        effects_bind_pure (effects_transaction fun _ _ _ _ => trivial) _
    exact hfails.error

/-- Deleting takes out the rows with the key. -/
theorem effects_delete :
    (delete m key).Effects fun db db' =>
      db.Rewrites m.table (Table.Removes m.primaryKey key) db' := by
  have hdelete {db db' : Database} {answer : Answer}
      (hrun : (Statement.delete m.table m.primaryKey key).run db = (.ok answer, db')) :
      if answer.changed = 0 then db'.tables = db.tables
      else db.Rewrites m.table (Table.Removes m.primaryKey key) db' := by
    simp only [Statement.run, Database.after] at hrun
    split at hrun
    · next outcome =>
      cases hrun
      exact Database.rewrites_of_deleteRows outcome
    · cases hrun
  constructor
  · intro s s' a h
    obtain ⟨answer, mid, hperform, h⟩ := bind_eq_ok_iff.1 h
    obtain ⟨db, hrun, rfl⟩ := perform_eq_ok_iff.1 hperform
    have heffect := hdelete hrun
    split at h
    · simp [fail, ofExcept] at h
    · next hchanged =>
      rw [if_neg hchanged] at heffect
      cases h
      exact heffect
  · intro s s' e h
    rw [delete, bind_apply] at h
    split at h
    · next answer mid hperform =>
      obtain ⟨db, hrun, rfl⟩ := perform_eq_ok_iff.1 hperform
      have heffect := hdelete hrun
      split at h
      · next hchanged =>
        rw [if_pos hchanged] at heffect
        cases h
        exact heffect
      · cases h
    · next e' mid hperform =>
      cases h
      obtain ⟨fault, hrun⟩ := perform_eq_error hperform
      simp only [Statement.run, Database.after] at hrun
      split at hrun
      · cases hrun
      · next outcome =>
        rw [← (Prod.mk.inj hrun).2]

/-- A write that fails changes no row of any table. If it succeeds, creating adds one row with the
values of the body, updating writes the values of the body over the rows with the key, and deleting
takes these rows out. Reading changes nothing. -/
theorem effects_of_actions (m : Model) (key : String) (intent : QueryIntent) (caps : Capabilities) :
    ((create m intent caps).Effects fun db db' =>
      db.Rewrites m.table (Table.Adds intent.body.entries) db') ∧
    ((update m key intent caps).Effects fun db db' =>
      db.Rewrites m.table (Table.Changes m.primaryKey key intent.body.entries) db') ∧
    ((delete m key).Effects fun db db' =>
      db.Rewrites m.table (Table.Removes m.primaryKey key) db') ∧
    ∀ s, (read m intent caps s).2.database = s.database :=
  ⟨effects_create, effects_update, effects_delete, fun s => (reads_read m intent caps s).2⟩

end Action

end ParamQuery
