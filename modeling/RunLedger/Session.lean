import RunLedger.Journal
import RunLedger.Operation
import RunLedger.Session.Adjustment
import RunLedger.Session.Context

/-!
# Sessions

In a session several handles are open on databases of one configuration: on the one file it names,
or, if it asks for a database in memory, each on a new one of its own unless it is shared. A handle
keeps nothing but the database it is open on. While a unit of work is open on a database, other
handles cannot write, and they see the state before the unit, as far as the location of the database
lets them see anything. In a file that is used without locks they write all the same, and then the
unit cannot commit.

## Main definitions

* `Hold`: what an open unit of work keeps from others.
* `Volume`: a database, the faults set for it, and whether its write lock is taken.
* `Session`.
* `Session.hides`: what an open unit of work keeps from being read.
* `Session.open`, `Session.migrate`: opening brings the layout of the tables up to date.
* `Session.call`: a call through a handle.
* `Session.begin`, `Session.commit`, `Session.finish`: an open unit of work.
-/

namespace RunLedger

/-- What is held by an open unit of work. -/
structure Hold where
  /-- The tables that it has written. -/
  written : List TableName
  /-- Whether it has written more than its page cache takes, so that the file has to take it. -/
  spilled : Bool
deriving DecidableEq

namespace Isolation

/-- Whether others cannot read anything. -/
def bars (i : Isolation) (hold : Hold) : Bool :=
  match i with
  | whole => true
  | cached => hold.spilled
  | snapshot | tables | unlocked => false

/-- Whether others cannot read a table. -/
def hides (i : Isolation) (hold : Hold) (table : TableName) : Bool :=
  i.bars hold || (i = tables && hold.written.contains table)

end Isolation

/-- A database that handles can be open on. -/
structure Volume where
  /-- The committed state. -/
  database : Database
  /-- The faults set for it. -/
  faults : List Fault
  /-- What the unit of work holds that has the write lock, if one has it. -/
  held : Option Hold
deriving DecidableEq

namespace Volume

/-- A new database, not yet laid out. -/
def blank : Volume where
  database := Database.blank
  faults := []
  held := none

/-- Whether a unit of work holds the write lock. -/
def locked (v : Volume) : Bool := v.held.isSome

/-- Brings the layout of the tables up to date, if it is not and may be changed. -/
def migrate (v : Volume) (writing : Writing) : Except StoreError Volume := do
  let database ← v.database.migrated
  if v.database.isOutdated && (v.locked || writing ≠ .free) then throw .statementFailed
  return { v with database }

end Volume

/-- Handles open on databases of one configuration. -/
structure Session where
  /-- The configuration. -/
  config : Config
  /-- The files around the database. -/
  surroundings : FileTree
  /-- The clocks and contexts. -/
  contexts : Contexts
  /-- The databases by number; zero is the one that the handles share, if they do. -/
  volumes : Table Nat Volume
  /-- The number of the database that each handle is open on. -/
  handles : Table String Nat
deriving DecidableEq

namespace Session

/-- Nothing is open yet. -/
def start (config : Config) (surroundings : FileTree) (wall : Int) : Session where
  config
  surroundings
  contexts := .start wall
  volumes := .empty
  handles := .empty

/-- What other handles find while a unit of work is open. -/
def isolation (s : Session) : Isolation :=
  ((Location.ofPath? s.config.path).map (Location.isolation s.config.journalMode)).getD .snapshot

/-- Whether an open unit of work keeps a table from being read. -/
def hides (s : Session) (v : Volume) (table : TableName) : Bool :=
  v.held.any fun hold => s.isolation.hides hold table

/-- Whether an open unit of work keeps everything from being read. -/
def bars (s : Session) (v : Volume) : Bool := v.held.any s.isolation.bars

/-- All files: those around the database, and its own once it is created. -/
def files (s : Session) (path : List UInt8) (access : Access) : FileTree :=
  let mode := if access.canLog then s.config.journalMode else .delete
  match s.volumes.get? 0 with
  | some v =>
    s.surroundings.insert (Place.ofPath s.surroundings.directory path)
      (.file (.database v.database mode))
  | none => s.surroundings

/-- The number of the database to open, and what the handle may change in it. It is that of the
file, a new one, or one in memory that is shared as long as a handle is open on it. -/
def target (s : Session) : Except StoreError (Nat × Writing) := do
  match Location.ofPath? s.config.path with
  | none => throw (.openFailed s.config.path)
  | some (.memory writes sharing) =>
    if !s.config.canWait then throw .waitTooLong
    let number := if sharing.isSome then 0 else s.volumes.entries.length + 1
    return (number, if writes then .free else .refused)
  | some (.file path access) =>
    match Disk.open? (s.files path access) path access with
    | none => throw (.openFailed s.config.path)
    | some d =>
      if !s.config.canWait then throw .waitTooLong
      let d ← (d.enter s.config.journalMode).mapError fun _ => .statementFailed
      return (0, d.writing)

/-- Whether the database is in memory. -/
def inMemory (s : Session) : Bool :=
  match Location.ofPath? s.config.path with
  | some (.memory _ _) => true
  | _ => false

/-- The database with a number, or a new one if nothing keeps it. A file keeps its database; memory
keeps it as long as a handle is open on it. -/
def kept (s : Session) (n : Nat) : Volume :=
  if s.inMemory && !s.handles.values.contains n then .blank else (s.volumes.get? n).getD .blank

/-- The database to open, with its number, once its layout is up to date. -/
def openVolume (s : Session) : Except StoreError (Nat × Volume) := do
  s.config.validate
  let (n, writing) ← s.target
  let v := s.kept n
  if s.bars v then throw .statementFailed
  return (n, ← v.migrate writing)

/-- Opens a handle, which is closed before if it is open. If that fails the handle is gone. -/
def «open» (s : Session) (handle : String) : Except StoreError Unit × Session :=
  let s := { s with handles := s.handles.erase handle }
  match s.openVolume with
  | .ok (n, v) =>
    (.ok (), { s with volumes := s.volumes.insert n v, handles := s.handles.insert handle n })
  | .error e => (.error e, s)

/-- The database that a handle is open on, with its number. -/
def volume? (s : Session) (handle : String) : Option (Nat × Volume) := do
  let n ← s.handles.get? handle
  let v ← s.volumes.get? n
  return (n, v)

/-- Stores a database. -/
def putVolume (s : Session) (n : Nat) (v : Volume) : Session :=
  { s with volumes := s.volumes.insert n v }

/-- What a call through a handle takes from outside the database. -/
def callOn (s : Session) (v : Volume) (family : Family) (entropy : Nat) : Call where
  config := s.config
  now := s.contexts.wall
  entropy
  faults := v.faults
  locked := v.locked
  hidden := s.hides v
  writing := .free
  pulse := fun _ => s.contexts.interrupt? family

/-- Carries a call out on a database. -/
def call {α : Type} (s : Session) (n : Nat) (v : Volume) (family : Family) (entropy : Nat)
    (w : Work α) : Except StoreError α × Session :=
  match w.perform (s.callOn v family entropy) v.database with
  | (result, database) => (result, s.putVolume n { v with database })

/-- The version of the layout, unless it is kept from being read. -/
def schemaVersion (s : Session) (v : Volume) : Except StoreError Int :=
  if s.bars v then .error .statementFailed else .ok v.database.schemaVersion

/-- Brings the layout of the tables up to date. -/
def migrate (s : Session) (n : Nat) (v : Volume) : Except StoreError Unit × Session :=
  match s.schemaVersion v *> v.migrate .free with
  | .ok v => (.ok (), s.putVolume n v)
  | .error e => (.error e, s)

/-- The session while a unit of work is open on a database: the write lock is taken, where there is
one. -/
def holding (s : Session) (n : Nat) (v : Volume) (hold : Hold) : Session :=
  if s.isolation = .unlocked then s else s.putVolume n { v with held := some hold }

/-- Opens a unit of work on a database: takes the write lock and makes the first writes. They are
returned; nobody sees them yet. If they fail the lock is free again. -/
def begin (s : Session) (n : Nat) (v : Volume) (family : Family) (operation : String)
    (writes : Work Unit) (hold : Hold) : Except StoreError Database × Session :=
  match (Work.start operation *> writes).perform (s.callOn v family 0) v.database with
  | (.error e, _) => (.error e, s)
  | (.ok _, database) => (.ok database, s.holding n v hold)

/-- Closes a unit of work: frees the write lock and, if there are writes to commit, commits them. -/
def finish (s : Session) (n : Nat) (writes : Option Database) : Session :=
  { s with
    volumes := s.volumes.update n fun v =>
      { v with database := writes.getD v.database, held := none } }

/-- Closes a unit of work that began on the database `before` and is to commit its writes. If others
have written meanwhile, which they can where nothing is locked, the journal that a file needs for
writes of its own is gone, and what the others have written stays; in memory the writes take the
place of theirs. A database that has got pages from both is not told here. -/
def commit (s : Session) (n : Nat) (operation : String) (before writes : Database) :
    Except StoreError Unit × Session :=
  if s.inMemory || (s.volumes.get? n).all fun v => v.database = before then
    (.ok (), s.finish n (some writes))
  else if writes = before then (.ok (), s.finish n none)
  else (.error (.commitFailed operation), s.finish n none)

end Session

end RunLedger
