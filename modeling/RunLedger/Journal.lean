import RunLedger.Files
import RunLedger.Location
import RunLedger.Work

/-!
# The files beside a database

A database changes its file with the help of files beside it, whose names are its own with an
ending. Before a change, a journal takes what the file holds, and after the change it goes. Or a
write-ahead log takes the changes, with an index to it, until the last handle is closed. A keeper
may also lock the database by a file.

Who opens a database first settles what others may have left beside it: a journal that is not empty
undoes a change that was not finished, and a log is read before the file. A journal or a log that
was not written by this ledger undoes nothing and adds nothing, but it is settled all the same.

## Main definitions

* `Companion`: a file beside that of a database.
* `Disk`: the file of a database that is open, and what is beside it.
* `Disk.Step`: one step of working with a disk.
* `Disk.enter`: settles what is beside the file, and goes over to a journal mode.
* `Disk.store`: changes the database.
* `Disk.leave`: closes the database.
-/

namespace RunLedger

/-- A file that can be beside that of a database. -/
inductive Companion
  /-- The journal. -/
  | journal
  /-- The write-ahead log. -/
  | log
  /-- The index of the log. -/
  | index
  /-- The lock. -/
  | lock
deriving DecidableEq

namespace Companion

/-- All of them. -/
def all : List Companion := [journal, log, index, lock]

/-- How its name goes on after that of the database. -/
def ending : Companion → String
  | journal => "-journal"
  | log => "-wal"
  | index => "-shm"
  | lock => ".lock"

/-- The place of a companion of the file at a place. -/
def place (c : Companion) (p : Place) : Place :=
  p.dropLast ++ p.getLast?.toList.map (· ++ Text.bytes c.ending)

end Companion

/-- How the write-ahead log of a database is in use. -/
inductive LogUse
  /-- Not at all. -/
  | closed
  /-- Without an index, so that it cannot even be closed. -/
  | noIndex
  /-- For reading. -/
  | reading
  /-- For reading and writing. -/
  | writing
deriving DecidableEq

/-- The file of a database that is open, and what is beside it. -/
structure Disk where
  /-- All files. -/
  files : FileTree
  /-- Where the file is. -/
  place : Place
  /-- How it may be used. -/
  access : Access
  /-- How the log is in use. -/
  log : LogUse
deriving DecidableEq

namespace Disk

/-- One step of working with a disk. If it fails, it tells what it leaves. -/
abbrev Step := Disk → Except Disk Disk

/-- What the file of the database holds. -/
def content (d : Disk) : Content := (d.files.content? d.place).getD .nothing

/-- Whether the file of the database is empty. -/
def isBlank (d : Disk) : Bool := d.content == .nothing

/-- What is where a companion is to be. -/
def companion? (d : Disk) (c : Companion) : Option Node := d.files.node? (c.place d.place)

/-- Whether a companion is there. One that is empty does not count. -/
def has (d : Disk) (c : Companion) : Bool :=
  match d.companion? c with
  | none => false
  | some node => node != .file .nothing

/-- The disk after the file of a companion is written. -/
def put (d : Disk) (c : Companion) (content : Content) : Disk :=
  { d with files := d.files.insert (c.place d.place) (.file content) }

/-- The disk after the file of a companion is removed. -/
def remove (d : Disk) (c : Companion) : Disk :=
  { d with files := d.files.removeFile (c.place d.place) }

/-- Whether there can be a file with the name of a companion. -/
def canHave (d : Disk) (c : Companion) : Bool :=
  d.companion? c != some .folder
    && (c.place d.place).getLast?.all fun name => name.length ≤ Place.longestName

/-- The disk after the file of the database is written. -/
def fill (d : Disk) (content : Content) : Disk :=
  { d with files := d.files.insert d.place (.file content) }

/-- Goes over to reading, which waits in vain for a lock that another program holds. -/
def awaitLock : Step := fun d =>
  if d.access.hasLockFile && (d.companion? .lock).isSome then .error d else .ok d

/-- Whether the journal is taken for one that somebody else is using. -/
def journalInUse (d : Disk) : Bool :=
  d.access.keeper == .lockFile && (d.access.locks || (d.companion? .lock).isSome)

/-- Whether the file can be locked for a change. -/
def canLock (d : Disk) : Bool :=
  d.access.canWrite || !d.access.locks || d.access.keeper == .unlocked

/-- Settles a journal: that of an empty file goes at once, any other one, unless it starts with a
zero byte, when it has undone its change. -/
def settleJournal : Step := fun d =>
  if d.access.fixed || d.journalInUse || !d.has .journal then .ok d
  else if d.isBlank then .ok (if d.canLock then d.remove .journal else d)
  else
    match d.companion? .journal with
    | some (.file content) =>
      if content.startsWithZero then .ok d
      else if d.access.canWrite then .ok (d.remove .journal)
      else .error d
    | _ => .error d

/-- Opens the index of the log. One that can only be read does not help with a log that was not
written by its side. -/
def openIndex : Step := fun d =>
  if !d.access.hasIndexFile then .ok { d with log := .writing }
  else
    match d.companion? .index, d.files.content? (Companion.log.place d.place) with
    | none, _ =>
      if d.access.fixedIndex then .error { d with log := .noIndex }
      else .ok { d.put .index .binary with log := .writing }
    | some index, some log =>
      if !(d.access.fixedIndex || index == .folder) then
        .ok { d.put .index .binary with log := .writing }
      else if log.isLong then .error { d with log := .noIndex }
      else .ok { d with log := .reading }
    | some _, none => .error { d with log := .noIndex }

/-- Opens the log, which is made if it is not there. -/
def openLog : Step := fun d =>
  if !d.access.canLog then .error d
  else
    match d.companion? .log with
    | some .folder => .error d
    | some _ => d.openIndex
    | none => (d.put .log .nothing).openIndex

/-- Settles a log: that of an empty file goes at once, any other one is opened. -/
def settleLog : Step := fun d =>
  if d.access.fixed || !d.has .log then .ok d
  else if !d.isBlank then d.openLog
  else if d.companion? .log = some .folder then .error d
  else .ok (d.remove .log)

/-- Reads the file, which must be empty or hold a database. One left with a log needs the log. -/
def readFile : Step := fun d =>
  match d.content with
  | .text s => if s.isEmpty then .ok d else .error d
  | .binary => .error d
  | .database _ mode =>
    if mode = .wal && d.log = .closed && !d.access.fixed then d.openLog else .ok d

/-- Changes the file with the help of a journal. -/
def replaceContent (content : Content) : Step := fun d =>
  if d.access.canWrite && d.canHave .journal && d.files.node? d.place != some .device then
    .ok ((d.remove .journal).fill content)
  else .error d

/-- Closes the log, which goes with its index. -/
def closeLog : Step := fun d =>
  match d.log with
  | .closed => .ok d
  | .noIndex | .reading => .error d
  | .writing =>
    if !d.access.canWrite then .error d
    else
      let d := { d.remove .log with log := .closed }
      .ok (if d.access.hasIndexFile then d.remove .index else d)

/-- The database in the file, a new one if the file is empty. -/
def database (d : Disk) : Database :=
  match d.content with
  | .database database _ => database
  | _ => .blank

/-- Gives up the log for a journal. -/
def leaveLog : Step := fun d => do
  let d ← d.closeLog
  let d := if d.has .journal then d.remove .journal else d
  match d.content with
  | .database database .wal => d.replaceContent (.database database .delete)
  | _ => .ok d

/-- Gives up the journal for a log. -/
def takeLog : Step := fun d => do (← d.replaceContent (.database d.database .wal)).openLog

/-- Goes over to a journal mode, where there can be a log. -/
def changeMode (mode : JournalMode) : Step := fun d =>
  if !d.access.canLog then .ok d
  else
    match mode, d.log with
    | .delete, .closed => .ok d
    | .delete, _ => d.leaveLog
    | .wal, .closed => d.takeLog
    | .wal, _ => .ok d

/-- Settles what is beside the file, and goes over to a journal mode. -/
def enter (mode : JournalMode) : Step := fun d => do
  let d ← d.awaitLock
  let d ← d.settleJournal
  let d ← d.settleLog
  let d ← d.readFile
  d.changeMode mode

/-- What the handle may change. -/
def writing (d : Disk) : Writing :=
  if !d.access.canWrite then .refused
  else
    match d.log with
    | .closed => if d.canHave .journal then .free else .refused
    | .writing => .free
    | .noIndex | .reading => .barred

/-- The mode in which the database is kept. -/
def mode (d : Disk) : JournalMode :=
  match d.content with
  | .database _ mode => mode
  | _ => .delete

/-- Changes the database. -/
def store (database : Database) : Step := fun d =>
  if d.writing ≠ .free then .error d
  else if d.log = .closed then d.replaceContent (.database database .delete)
  else .ok ((d.put .log .binary).fill (.database database d.mode))

/-- Closes the database. What cannot be settled stays. -/
def leave (d : Disk) : FileTree :=
  match d.closeLog with
  | .ok d | .error d => d.files

/-- The disk with the file that a path names. It is created, if it may be, and must not be needed
otherwise. -/
def open? (files : FileTree) (path : List UInt8) (access : Access) : Option Disk := do
  let place ← files.fileNamed? path
  match access.likeness.map files.find with
  | some (.error _) => none
  | _ =>
    if (files.node? place).isSome then return { files, place, access, log := .closed }
    else if access.creates then
      return { files := files.insert place (.file .nothing), place, access, log := .closed }
    else none

end Disk

end RunLedger
