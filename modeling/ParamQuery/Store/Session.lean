import ParamQuery.Error
import ParamQuery.Store.Execution

/-!
# Sessions

A database together with the statements that were made to it, and actions that make statements one
after the other and may fail.

## Main definitions

* `Session`, `Action` — the state, and what acts on it.
* `Action.fetch` — makes a statement and notes it.
* `Action.transaction` — an action that leaves the rows as they were if it fails.
-/

namespace ParamQuery

/-- A database and the statements that were made to it, the oldest first. -/
structure Session where
  database : Database
  log : List Statement := []
  deriving DecidableEq, Repr

/-- What acts on a session, with a result or an error. -/
def Action (α : Type) : Type := Session → Except Error α × Session

namespace Action

variable {α β : Type}

/-- An action that changes nothing. -/
def ofExcept (result : Except Error α) : Action α := fun session => (result, session)

def andThen (act : Action α) (next : α → Action β) : Action β := fun session =>
  match act session with
  | (.ok a, session) => next a session
  | (.error e, session) => (.error e, session)

instance : Monad Action where
  pure a := ofExcept (.ok a)
  bind := andThen

/-- An action that fails. -/
def fail (e : Error) : Action α := ofExcept (.error e)

/-- Makes a statement without noting it. -/
def perform (statement : Statement) : Action Answer := fun session =>
  let (result, database) := statement.run session.database
  (result.mapError .engine, { session with database := database })

/-- Notes a statement. -/
def note (statement : Statement) : Action Unit := fun session =>
  (.ok (), { session with log := session.log ++ [statement] })

/-- Makes and notes a statement, and gives the rows that it returns. -/
def fetch (statement : Statement) : Action (List Entity) := do
  note statement
  let answer ← perform statement
  pure (answer.records.map Record.entity)

/-- An action whose changes to rows are taken back if it fails; numbers given out stay so. -/
def transaction (act : Action α) : Action α := fun session =>
  match act session with
  | (.ok a, after) => (.ok a, after)
  | (.error e, after) =>
    (.error e,
      { after with database := { after.database with tables := session.database.tables } })

@[simp] theorem pure_apply (a : α) (s : Session) : (pure a : Action α) s = (.ok a, s) := rfl

theorem bind_apply (act : Action α) (next : α → Action β) (s : Session) :
    (act >>= next) s =
      match act s with
      | (.ok a, s) => next a s
      | (.error e, s) => (.error e, s) := rfl

/-- A transaction fails exactly with the error of its action, and then leaves the tables as they
were. -/
theorem tables_transaction_of_error {act : Action α} {s : Session} {e : Error}
    (h : (transaction act s).1 = .error e) :
    (act s).1 = .error e ∧ (transaction act s).2.database.tables = s.database.tables := by
  match hact : act s with
  | (.ok a, after) => simp [transaction, hact] at h
  | (.error e', after) => simpa [transaction, hact] using h

end Action

/-- Where a database is kept. -/
inductive Location where
  | memory
  | file (inExistingDirectory : Bool)
  deriving DecidableEq, Repr

/-- Opens a database; its file can only be made in a directory that exists. -/
def Session.open (location : Location) (database : Database) : Except Error Session :=
  match location with
  | .file false => .error (.engine .cannotOpen)
  | _ => .ok { database := database }

end ParamQuery
