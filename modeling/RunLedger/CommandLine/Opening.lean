import RunLedger.Journal

/-!
# Opening a database

A command opens the database of its configuration, in memory or in a file, and brings the layout of
its tables up to date. A file that was created stays if the database cannot be used after all, and
so does whatever else has been settled until then.

## Main definitions

* `Opened`: a database that is open.
* `openDatabase`: opens the database of a configuration, or says why it cannot be opened.
-/

namespace RunLedger.CommandLine

/-- A database that is open. -/
structure Opened where
  /-- Its state. -/
  database : Database
  /-- What may be changed. -/
  writing : Writing
  /-- Where it is kept, unless it is in memory. -/
  disk? : Option Disk
deriving DecidableEq

namespace Opened

/-- A new database in memory. -/
def inMemory : Opened where
  database := Database.empty
  writing := .free
  disk? := none

/-- The database on a disk. -/
def onDisk (d : Disk) : Opened where
  database := d.database
  writing := d.writing
  disk? := some d

/-- The files while the database is open, of those before. -/
def filesDuring (o : Opened) (files : FileTree) : FileTree :=
  match o.disk? with
  | some d => d.files
  | none => files

/-- The database after a change, if it was one. What is kept only in memory has no files to go with
it. -/
def update (o : Opened) (database : Database) : Opened :=
  if database = o.database then o
  else
    match o.disk? with
    | none => { o with database }
    | some d =>
      match d.store database with
      | .ok d => .onDisk d
      | .error _ => o

/-- The files once the database is closed, of those before. -/
def filesAfter (o : Opened) (files : FileTree) : FileTree :=
  match o.disk? with
  | some d => d.leave
  | none => files

end Opened

/-- Enters a disk and brings the layout of the tables up to date. -/
def enterDisk (mode : JournalMode) (d : Disk) : Except (StoreError × Disk) Disk := do
  let d ← (d.enter mode).mapError fun d => (.statementFailed, d)
  let database ← d.database.migrated.mapError fun e => (e, d)
  if d.database.isOutdated then (d.store database).mapError fun d => (.statementFailed, d)
  else return d

/-- Opens the database at a location. A failure comes with the files that it leaves. -/
def openLocation (config : Config) (files : FileTree) :
    Location → Except (StoreError × FileTree) Opened
  | .memory writes _ =>
    if !config.canWait then .error (.waitTooLong, files)
    else if writes then .ok .inMemory
    else .error (.statementFailed, files)
  | .file path access =>
    match Disk.open? files path access with
    | none => .error (.openFailed config.path, files)
    | some d =>
      if !config.canWait then .error (.waitTooLong, d.leave)
      else
        match enterDisk config.journalMode d with
        | .ok d => .ok (.onDisk d)
        | .error (e, d) => .error (e, d.leave)

/-- Opens the database of a configuration. A failure comes with the files that it leaves. -/
def openDatabase (config : Config) (files : FileTree) :
    Except (StoreError × FileTree) Opened := do
  config.validate.mapError fun e => (e, files)
  match Location.ofPath? config.path with
  | some location => openLocation config files location
  | none => .error (.openFailed config.path, files)

end RunLedger.CommandLine
