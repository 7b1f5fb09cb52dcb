import ParamQuery.Proofs.Answer
import ParamQuery.Store.Write

/-!
# Statements that are noted

Which statements an action makes, whatever the database holds. A read asks for its page first; what
follows are a count of the same rows and questions for related rows. A write makes its own statement
first, and updating then asks for related rows. Nothing is made once something has failed.

## Main definitions

* `Action.noted`, `Action.texts` — the statements that an action notes, and their texts.
* `Action.Notes` — what is known of them on every session.
* `ReadPlan.FollowsUp` — the statements that may follow the question for the page.

## Main statements

* `Action.notes_bind` — the statements of two actions, one after the other.
* `Wanted.noted_attach` — loading a relation makes one statement, or none without keys.
* `Action.noted_read`, `Action.noted_create`, `Action.noted_update`, `Action.delete_eq` — the
  statements of reading and writing.
-/

namespace ParamQuery

namespace Action

variable {α β : Type} {act : Action α} {next : α → Action β} {P Q R : List Statement → Prop}

/-- The statements that an action notes on a database. -/
def noted (act : Action α) (db : Database) : List Statement := (act { database := db }).2.log

/-- The texts of the statements that an action notes on a database. -/
def texts (act : Action α) (db : Database) : List String := (act.noted db).map Statement.sql

/-- On every session the action only notes further statements, and they satisfy a condition. -/
def Notes (act : Action α) (P : List Statement → Prop) : Prop :=
  ∀ s, ∃ made, (act s).2.log = s.log ++ made ∧ P made

theorem Notes.noted (h : act.Notes P) (db : Database) : P (act.noted db) := by
  obtain ⟨made, hmade, hP⟩ := h { database := db }
  have hnoted : act.noted db = made := hmade.trans (List.nil_append made)
  exact hnoted ▸ hP

theorem Notes.mono (h : act.Notes P) (hPQ : ∀ made, P made → Q made) : act.Notes Q := by
  intro s
  obtain ⟨made, hmade, hP⟩ := h s
  exact ⟨made, hmade, hPQ made hP⟩

theorem notes_ofExcept (result : Except Error α) (h : P []) : (ofExcept result).Notes P :=
  fun s => ⟨[], (List.append_nil s.log).symm, h⟩

theorem notes_pure (a : α) (h : P []) : (pure a : Action α).Notes P := notes_ofExcept (.ok a) h

theorem notes_fail (e : Error) (h : P []) : (fail e : Action α).Notes P :=
  notes_ofExcept (.error e) h

/-- The statements of the second action come after those of the first one, if that succeeds. -/
theorem notes_bind (h : act.Notes P) (hnext : ∀ a, (next a).Notes Q)
    (hfails : ∀ made, P made → R made)
    (hruns : ∀ made later, P made → Q later → R (made ++ later)) : (act >>= next).Notes R := by
  intro s
  obtain ⟨made, hmade, hP⟩ := h s
  rw [bind_apply]
  split
  · next a mid hact =>
    obtain ⟨later, hlater, hQ⟩ := hnext a mid
    rw [hact] at hmade
    refine ⟨made ++ later, ?_, hruns made later hP hQ⟩
    rw [hlater, hmade, List.append_assoc]
  · next e mid hact =>
    rw [hact] at hmade
    exact ⟨made, hmade, hfails made hP⟩

/-- What is done with the result notes nothing. -/
theorem notes_bind_pure (h : act.Notes P) (f : α → β) :
    (act >>= fun a => pure (f a)).Notes P := by
  refine notes_bind (Q := (· = [])) h (fun a => notes_pure (f a) rfl) (fun _ hP => hP) ?_
  rintro made _ hP rfl
  rwa [List.append_nil]

/-- What holds of every statement of two actions holds of those that they make one after the
other. -/
theorem notes_forall_bind {p : Statement → Prop} (h : act.Notes fun made => ∀ st ∈ made, p st)
    (hnext : ∀ a, (next a).Notes fun made => ∀ st ∈ made, p st) :
    (act >>= next).Notes fun made => ∀ st ∈ made, p st :=
  notes_bind h hnext (fun _ hP => hP) fun _ _ hP hQ => List.forall_mem_append.2 ⟨hP, hQ⟩

theorem notes_transaction (h : act.Notes P) : (transaction act).Notes P := by
  intro s
  obtain ⟨made, hmade, hP⟩ := h s
  refine ⟨made, ?_, hP⟩
  unfold transaction
  split
  · next a after hact => rwa [hact] at hmade
  · next e after hact => rwa [hact] at hmade

theorem notes_fetch (statement : Statement) : (fetch statement).Notes (· = [statement]) := by
  intro s
  refine ⟨[statement], ?_, rfl⟩
  unfold fetch
  simp only [note, perform, bind_apply, pure_apply]
  cases (statement.run s.database).1 <;> rfl

/-- An action that begins with a statement notes that first. -/
theorem notes_fetch_bind {statement : Statement} {next : List Entity → Action β}
    (hnext : ∀ rows, (next rows).Notes Q) (hnil : Q []) :
    (fetch statement >>= next).Notes fun made => ∃ later, made = statement :: later ∧ Q later := by
  refine notes_bind (notes_fetch statement) hnext ?_ ?_
  · rintro _ rfl
    exact ⟨[], rfl, hnil⟩
  · rintro _ later rfl hQ
    exact ⟨later, rfl, hQ⟩

end Action

/-! ## Loading relations -/

namespace Wanted

open ParamQuery.Action

theorem notes_attach (w : Wanted) (filter : Option FilterBuckets) (page : List Entity) :
    (w.attach filter page).Notes (· =
      if (pageKeys w.relation.parentColumn page).isEmpty then []
      else [.select (w.query filter (pageKeys w.relation.parentColumn page))]) := by
  rw [attach_eq, loaded]
  refine notes_bind_pure ?_ _
  split
  · exact notes_pure [] rfl
  · exact notes_fetch _

/-- The related rows of a page are asked for at once, if there is any key. -/
theorem noted_attach (w : Wanted) (filter : Option FilterBuckets) (page : List Entity)
    (db : Database) :
    (w.attach filter page).noted db =
      if (pageKeys w.relation.parentColumn page).isEmpty then []
      else [.select (w.query filter (pageKeys w.relation.parentColumn page))] :=
  (w.notes_attach filter page).noted db

/-- A statement asks for the related rows of one of the relations. -/
def Loads (filter : Wanted → Option FilterBuckets) (wanted : List Wanted) (st : Statement) : Prop :=
  ∃ w ∈ wanted, ∃ keys, st = .select (w.query (filter w) keys)

theorem notes_attachAll (filter : Wanted → Option FilterBuckets) (wanted : List Wanted)
    (page : List Entity) :
    (attachAll filter wanted page).Notes fun made => ∀ st ∈ made, Loads filter wanted st := by
  induction wanted generalizing page with
  | nil => exact notes_pure page nofun
  | cons w rest ih =>
    refine notes_forall_bind ((w.notes_attach (filter w) page).mono ?_) fun page =>
      (ih page).mono fun made hmade st hst => ?_
    · rintro _ rfl st hst
      split at hst
      · cases hst
      · exact ⟨w, List.mem_cons_self, _, List.mem_singleton.1 hst⟩
    · obtain ⟨other, hother, keys, rfl⟩ := hmade st hst
      exact ⟨other, List.mem_cons_of_mem w hother, keys, rfl⟩

end Wanted

/-! ## Reading -/

/-- What may follow the question for the page of a plan. -/
inductive ReadPlan.FollowsUp (plan : ReadPlan) (filter : Wanted → Option FilterBuckets) :
    Statement → Prop where
  /-- The rows that satisfy its conditions are counted. -/
  | recount : FollowsUp plan filter (.count plan.query.table plan.query.conditions)
  /-- Related rows are asked for. -/
  | load {st : Statement} : Wanted.Loads filter plan.wanted st → FollowsUp plan filter st

namespace Action

theorem notes_total (q : Query) (page : List Entity) :
    (total q page).Notes fun made => ∀ st ∈ made, st = .count q.table q.conditions := by
  have hrecount : (recount q).Notes fun made => ∀ st ∈ made, st = .count q.table q.conditions :=
    (notes_bind_pure (notes_fetch _) _).mono fun made hmade st hst =>
      List.mem_singleton.1 (hmade ▸ hst)
  unfold total
  split
  · exact notes_pure _ nofun
  · split
    · split
      · exact hrecount
      · exact notes_pure _ nofun
    · exact notes_pure _ nofun

/-- A plan is carried out with the question for its page first. -/
theorem notes_readPlan (plan : ReadPlan) (filter : Wanted → Option FilterBuckets) :
    (readPlan plan filter).Notes fun made =>
      ∃ later, made = .select plan.query :: later ∧ ∀ st ∈ later, plan.FollowsUp filter st := by
  refine notes_fetch_bind (fun rows => ?_) nofun
  have htotal : (total plan.query rows).Notes fun made => ∀ st ∈ made, plan.FollowsUp filter st :=
    (notes_total plan.query rows).mono fun made hmade st hst => hmade st hst ▸ .recount
  have hload (page : List Entity) : (Wanted.attachAll filter plan.wanted page).Notes
      fun made => ∀ st ∈ made, plan.FollowsUp filter st :=
    (Wanted.notes_attachAll filter plan.wanted page).mono fun made hmade st hst =>
      .load (hmade st hst)
  exact notes_forall_bind htotal fun n => notes_bind_pure (hload _) _

/-- A read makes no statement if it has no plan, and begins with that of its plan otherwise. -/
theorem noted_read (m : Model) (intent : QueryIntent) (caps : Capabilities) (db : Database) :
    match ReadPlan.make m intent caps with
    | .ok plan => ∃ later, (read m intent caps).noted db = .select plan.query :: later ∧
        ∀ st ∈ later, plan.FollowsUp (relationFilter intent caps) st
    | .error _ => (read m intent caps).noted db = [] := by
  rw [read_eq]
  split
  · next plan hplan =>
    rw [hplan]
    exact (notes_bind_pure (notes_transaction (notes_readPlan plan _)) _).noted db
  · next e hplan =>
    rw [hplan]
    rfl

/-- What a read counts are the rows that its plan chooses. -/
theorem exists_plan_of_count_mem {m : Model} {intent : QueryIntent} {caps : Capabilities}
    {db : Database} {table : String} {conditions : List Condition}
    (h : .count table conditions ∈ (read m intent caps).noted db) :
    ∃ plan, ReadPlan.make m intent caps = .ok plan ∧ table = plan.query.table ∧
      conditions = plan.query.conditions := by
  have hnoted := noted_read m intent caps db
  split at hnoted
  · next plan hplan =>
    obtain ⟨later, hmade, hlater⟩ := hnoted
    rw [hmade, List.mem_cons] at h
    have hcount : .count table conditions ∈ later := h.resolve_left nofun
    cases hlater _ hcount with
    | recount => exact ⟨plan, hplan, rfl, rfl⟩
    | load hload =>
      obtain ⟨_, _, _, hselect⟩ := hload
      cases hselect
  · rw [hnoted] at h
    cases h

/-! ## Writing -/

/-- Creating makes one statement, if there is anything to write. -/
theorem noted_create (m : Model) (intent : QueryIntent) (caps : Capabilities) (db : Database) :
    (create m intent caps).noted db =
      if intent.body.isEmpty then [] else [.insert m.table intent.body.entries] := by
  unfold create bodyValues
  split
  · rfl
  · refine Notes.noted (P := (· = [.insert m.table intent.body.entries])) ?_ db
    refine notes_bind_pure (notes_transaction ?_) _
    refine (notes_fetch_bind (Q := (· = [])) (fun rows => ?_) rfl).mono ?_
    · cases rows with
      | nil => exact notes_fail _ rfl
      | cons row rest => exact notes_pure _ rfl
    · rintro _ ⟨_, rfl, rfl⟩
      rfl

/-- Updating makes its own statement first, if there is anything to write and the relations asked
for are known. -/
theorem noted_update (m : Model) (key : String) (intent : QueryIntent) (caps : Capabilities)
    (db : Database) :
    if intent.body.isEmpty then (update m key intent caps).noted db = []
    else
      match wantedRelations m intent.fields caps with
      | .ok wanted => ∃ later, (update m key intent caps).noted db =
            .update m.table intent.body.entries m.primaryKey key :: later ∧
          ∀ st ∈ later, Wanted.Loads (fun w => intent.filter.relation? w.relation.name) wanted st
      | .error _ => (update m key intent caps).noted db = [] := by
  unfold update bodyValues
  split
  · rfl
  · split
    · next wanted hwanted =>
      rw [hwanted]
      refine Notes.noted (notes_bind_pure (notes_transaction (notes_fetch_bind (fun rows => ?_)
        nofun)) _) db
      cases rows with
      | nil => exact notes_fail _ nofun
      | cons row rest =>
        refine notes_forall_bind (Wanted.notes_attachAll _ wanted [row]) fun loaded => ?_
        cases loaded with
        | nil => exact notes_fail _ nofun
        | cons row rest => exact notes_pure _ nofun
    · next e hwanted =>
      rw [hwanted]
      rfl

/-- What a removal makes of the answer to its statement. -/
def removed (m : Model) (key : String) (answer : Answer) : Action Unit :=
  if answer.changed = 0 then fail (noRow m key) else pure ()

/-- Deleting makes one statement, which is not noted. -/
theorem delete_eq (m : Model) (key : String) :
    delete m key = perform (.delete m.table m.primaryKey key) >>= removed m key := rfl

end Action

end ParamQuery
