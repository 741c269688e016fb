import RunLedger.Database.Rows

/-!
# Units of work

A call to the ledger reads the database or changes it in one unit of work. A unit changes rows by
statements, one after the other, and a statement fails if a fault is set for one of the rows it
attempts to insert, update or delete, or if the database can only be read. If the unit fails, or its
context fires before it ends, the database is as it was before. Only one unit at a time holds the
write lock of a database, and it may keep others from reading.

## Main definitions

* `StatementKind`, `Fault`: a fault and the rows it hits.
* `Writing`: what a handle may change.
* `Checkpoint`, `Call`: what a call takes from outside the database.
* `Query`, `Work`: computations that read the database, and that change it.
* `Work.checkpoint`, `Work.attempt`: where a unit of work can stop.
* `Work.start`, `Work.restoring`, `Work.transact`: a unit of work under the write lock.
* `Work.consult`: a call that only reads.

## Main results

* `Work.perform_bind`, `Work.perform_tryCatch`, `Work.perform_ask`: how a computation is performed.
* `Work.perform_transact`: a unit of work commits as a whole or leaves the database as it was.
-/

namespace RunLedger

/-- What a statement does to a row. -/
inductive StatementKind
  | insert
  | update
  | delete
deriving DecidableEq

namespace StatementKind

/-- The spelling of a kind. -/
def text : StatementKind → String
  | insert => "INSERT"
  | update => "UPDATE"
  | delete => "DELETE"

/-- The kind with the given spelling. -/
def ofText? (s : String) : Option StatementKind :=
  [insert, update, delete].find? fun kind => kind.text == s

end StatementKind

/-- A fault that makes statements fail. -/
structure Fault where
  /-- The kind of statement. -/
  kind : StatementKind
  /-- The table. -/
  table : TableName
  /-- The text that a column of the row must hold; without it every row is hit. -/
  condition : Option (String × String)
deriving DecidableEq

/-- Whether the fault hits an attempt on a row: the new row of an insertion or an update, the old
row of a deletion. -/
def Fault.hits (f : Fault) (kind : StatementKind) (table : TableName) (row : Row) : Bool :=
  f.kind == kind && f.table == table
    && match f.condition with
      | none => true
      | some (column, text) => row.contains (column, .text text)

/-- What a handle may change. -/
inductive Writing
  /-- Rows. -/
  | free
  /-- Nothing: a statement fails. -/
  | refused
  /-- Nothing: a unit of work does not begin. -/
  | barred
deriving DecidableEq

/-- The moments at which a call consults its context. -/
inductive Checkpoint
  /-- Before anything is read. -/
  | entry
  /-- Between two statements of a unit of work. -/
  | inside (n : Nat)
  /-- After the last statement of a unit of work. -/
  | commit
deriving DecidableEq

/-- What a call takes from outside the database. -/
structure Call where
  /-- The configuration of the ledger. -/
  config : Config
  /-- The reading of the wall clock. -/
  now : Int
  /-- Random bits. -/
  entropy : Nat
  /-- The faults set for the database. -/
  faults : List Fault
  /-- Whether another unit of work holds the write lock. -/
  locked : Bool
  /-- The tables that another unit of work keeps from being read. -/
  hidden : TableName → Bool
  /-- What may be changed. -/
  writing : Writing
  /-- How the context of the call has fired by each checkpoint, if it has. -/
  pulse : Checkpoint → Option Interrupt

/-- Why a unit of work cannot begin, if it cannot. -/
def Call.hindrance? (call : Call) (operation : String) : Option StoreError :=
  if call.locked then some (.lockTimeout operation)
  else if call.writing = .barred then some (.beginFailed operation)
  else none

/-- A computation that reads the database. -/
abbrev Query (α : Type) := ReaderT Database (Except StoreError) α

/-- A computation that reads and changes the database. It leaves a state also when it fails. -/
abbrev Work (α : Type) := ReaderT Call (ExceptT StoreError (StateM Database)) α

namespace Work

variable {α : Type}

/-- The result of a computation and the database that it leaves. -/
def perform (w : Work α) (call : Call) (db : Database) : Except StoreError α × Database :=
  ((w.run call).run).run db

/-- Answers a query on the present state. -/
def ask (q : Query α) : Work α := do
  match q.run (← get) with
  | .ok a => return a
  | .error e => throw e

/-- Stops if the context of the call has fired. -/
def checkpoint (operation : String) (c : Checkpoint) : Work Unit := do
  match (← read).pulse c with
  | some cause => throw (.interrupted operation cause)
  | none => return ()

/-- Attempts a statement on rows; it fails with `e` if a fault hits one of them, or if the database
can only be read. -/
def attemptOr (e : StoreError) (kind : StatementKind) (table : TableName) (rows : List Row) :
    Work Unit := do
  let call ← read
  let hit := rows.any fun row => call.faults.any fun fault => fault.hits kind table row
  if call.writing = .refused || hit then throw e

/-- Attempts a statement on rows. -/
def attempt (kind : StatementKind) (table : TableName) (rows : List Row) : Work Unit :=
  attemptOr .statementFailed kind table rows

/-- Attempts to insert a row, and to update it where `present` says that it is there. -/
def attemptUpsert (table : TableName) (row : Row) (present : Bool) : Work Unit := do
  attempt .insert table [row]
  if present then attempt .update table [row]

/-- Checks a rule for the request. -/
def ensure (rule : Except RuleViolation α) : Work α :=
  match rule with
  | .ok a => return a
  | .error violation => throw (.rule violation)

/-- Names the activity in which an internal error of `w` arose. -/
def within (activity : String) (w : Work α) : Work α :=
  tryCatch w fun e => throw (e.during activity)

/-- A unit of work starts if its context has not fired and nothing keeps it from beginning. -/
def start (operation : String) : Work Unit := do
  checkpoint operation .entry
  match (← read).hindrance? operation with
  | some e => throw e
  | none => return ()

/-- Puts the database back as it was if `w` fails. -/
def restoring (w : Work α) : Work α := do
  let before ← get
  tryCatch w fun e => do
    set before
    throw e

/-- Runs `body` as one unit of work under the write lock. A context that has fired at the start or
at the end, a hindrance and a failure of `body` leave the database as it was. -/
def transact (operation : String) (body : Work α) : Work α := do
  start operation
  restoring do
    let a ← body
    checkpoint operation .commit
    return a

/-- Answers a query as a call of its own, unless the table that it reads first is hidden. -/
def consult (operation : String) (first : TableName) (q : Query α) : Work α := do
  checkpoint operation .entry
  if (← read).hidden first then throw .statementFailed
  ask q

/-! ### Performing -/

section Perform

variable {β : Type} (call : Call) (db : Database)

theorem perform_pure (a : α) : (pure a : Work α).perform call db = (.ok a, db) := rfl

theorem perform_throw (e : StoreError) :
    (throw e : Work α).perform call db = (.error e, db) := rfl

theorem perform_bind (w : Work α) (f : α → Work β) :
    (w >>= f).perform call db =
      match w.perform call db with
      | (.ok a, db') => (f a).perform call db'
      | (.error e, db') => (.error e, db') := by
  change ExceptT.bindCont (fun a => f a call) (w.perform call db).1 (w.perform call db).2 = _
  rcases w.perform call db with ⟨_ | _, _⟩ <;> rfl

theorem perform_map (f : α → β) (w : Work α) :
    (f <$> w).perform call db =
      match w.perform call db with
      | (.ok a, db') => (.ok (f a), db')
      | (.error e, db') => (.error e, db') := by
  rw [← bind_pure_comp, perform_bind]
  rfl

theorem perform_tryCatch (w : Work α) (f : StoreError → Work α) :
    (tryCatch w f).perform call db =
      match w.perform call db with
      | (.ok a, db') => (.ok a, db')
      | (.error e, db') => (f e).perform call db' := by
  have hw : w.perform call db = w call db := rfl
  change (ExceptT.tryCatch (w call) fun e => f e call) db = _
  simp only [ExceptT.tryCatch, ExceptT.mk, bind, StateT.bind, hw]
  rcases w call db with ⟨_ | _, _⟩ <;> rfl

/-- A query changes nothing. -/
theorem perform_ask (q : Query α) : (ask q).perform call db = (q.run db, db) := by
  change (match q.run db with
    | .ok a => (pure a : Work α)
    | .error e => throw e).perform call db = _
  cases q.run db <;> rfl

theorem perform_checkpoint (operation : String) (c : Checkpoint) :
    (checkpoint operation c).perform call db =
      match call.pulse c with
      | some cause => (.error (.interrupted operation cause), db)
      | none => (.ok (), db) := by
  change (match call.pulse c with
    | some cause => (throw (StoreError.interrupted operation cause) : Work Unit)
    | none => pure ()).perform call db = _
  cases call.pulse c <;> rfl

theorem perform_restoring (w : Work α) :
    (restoring w).perform call db =
      match w.perform call db with
      | (.ok a, db') => (.ok a, db')
      | (.error e, _) => (.error e, db) := by
  change (tryCatch w fun e => (do set db; throw e : Work α)).perform call db = _
  rw [perform_tryCatch]
  rcases w.perform call db with ⟨_ | _, _⟩ <;> rfl

theorem perform_start (operation : String) :
    (start operation).perform call db =
      match call.pulse .entry with
      | some cause => (.error (.interrupted operation cause), db)
      | none =>
        match call.hindrance? operation with
        | some e => (.error e, db)
        | none => (.ok (), db) := by
  have hbegin : (do match (← read).hindrance? operation with
      | some e => throw e
      | none => return () : Work Unit).perform call db =
        match call.hindrance? operation with
        | some e => (.error e, db)
        | none => (.ok (), db) := by
    change (match call.hindrance? operation with
      | some e => (throw e : Work Unit)
      | none => pure ()).perform call db = _
    cases call.hindrance? operation <;> rfl
  rw [start, perform_bind, perform_checkpoint]
  cases call.pulse .entry with
  | some cause => rfl
  | none => exact hbegin

/-- A unit of work commits only if its context is alive when it starts and when it ends, nothing
keeps it from beginning and its body succeeds; otherwise it leaves the database as it was. -/
theorem perform_transact (operation : String) (body : Work α) :
    (transact operation body).perform call db =
      match call.pulse .entry with
      | some cause => (.error (.interrupted operation cause), db)
      | none =>
        match call.hindrance? operation with
        | some e => (.error e, db)
        | none =>
          match body.perform call db with
          | (.error e, _) => (.error e, db)
          | (.ok a, db') =>
            match call.pulse .commit with
            | some cause => (.error (.interrupted operation cause), db)
            | none => (.ok a, db') := by
  rw [transact, perform_bind, perform_start]
  cases call.pulse .entry with
  | some cause => rfl
  | none =>
    cases call.hindrance? operation with
    | some e => rfl
    | none =>
      simp only [perform_restoring, perform_bind, perform_checkpoint, perform_pure]
      rcases body.perform call db with ⟨_ | _, _⟩
      · rfl
      · cases call.pulse .commit <;> rfl

end Perform

end Work

end RunLedger
