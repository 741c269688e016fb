import RunLedger.Proofs.Layout
import RunLedger.Proofs.Session.Reopening

/-!
# What working with a disk keeps

However far it gets to enter or leave a disk, and whatever it settles beside the file or fails to
settle, what the file stores stays, and so does every other database that is not in the way: what is
written in other places are a journal, a log and an index, and none of them is a database. Only a
change of the database changes what the file stores.

## Main definitions

* `Database.SameContent`: two databases differ at most in the version of their layout.
* `FileTree.databaseAt`: the database that files have at a place.
* `Disk.Spares`, `Disk.Keeps`: what is the same after some steps of working with a disk.
* `Disk.Step.Keeping`: a step keeps all this, whether it succeeds or fails.
* `Disk.named`: the disk with the file that a path names.

## Main results

* `Disk.keeping_enter`, `Disk.keeps_leave`: entering and leaving a disk.
* `Disk.of_open?`: opening a file.
* `Disk.store_of_free`, `Disk.of_store`: when a database can be changed, and to what.
-/

namespace RunLedger

/-! ### What databases store -/

namespace Database

/-- The two store the same; only the versions of their layouts may differ. -/
def SameContent (db db' : Database) : Prop :=
  db.withLayout newestSchema = db'.withLayout newestSchema

namespace SameContent

variable {db db' db'' : Database}

theorem refl (db : Database) : db.SameContent db := rfl

theorem symm (h : db.SameContent db') : db'.SameContent db := Eq.symm h

theorem trans (h : db.SameContent db') (h' : db'.SameContent db'') : db.SameContent db'' :=
  Eq.trans h h'

theorem withLayout (version : Int) (db : Database) : (db.withLayout version).SameContent db := rfl

/-- Of two with the newest layout nothing differs. -/
theorem eq_withLayout (h : db.SameContent db') (hversion : db'.schemaVersion = newestSchema) :
    db' = db.withLayout newestSchema :=
  (congrArg (fun version => ({ db' with schemaVersion := version } : Database)) hversion).trans
    h.symm

end SameContent

end Database

open Database

/-! ### Files -/

namespace FileTree

variable {t : FileTree} {p q : Place}

/-- The database at a place, a new one if there is none. -/
def databaseAt (t : FileTree) (p : Place) : Database :=
  match t.content? p with
  | some (.database db _) => db
  | _ => .blank

theorem databaseAt_of_node? {db : Database} {mode : JournalMode}
    (h : t.node? p = some (.file (.database db mode))) : t.databaseAt p = db := by
  rw [databaseAt, content?, h]

theorem databaseAt_of_missing (h : t.node? p = none) : t.databaseAt p = .blank := by
  rw [databaseAt, content?, h]

theorem databaseAt_congr {t' : FileTree} (h : t'.node? p = t.node? p) :
    t'.databaseAt p = t.databaseAt p := by
  rw [databaseAt, databaseAt, content?, content?, h]

theorem node?_removeFile_of_ne (t : FileTree) (h : q ≠ p) :
    (t.removeFile p).node? q = t.node? q := by
  rw [removeFile]
  split
  · exact Table.get?_erase_of_ne _ h
  · rfl

/-- What is left after a file is removed was there before. -/
theorem of_node?_removeFile {node : Node} (h : (t.removeFile p).node? q = some node) :
    t.node? q = some node := by
  by_cases hq : q = p
  · subst hq
    rw [removeFile] at h
    split at h
    · cases (Table.get?_erase_self _ _).symm.trans h
    · exact h
  · rwa [t.node?_removeFile_of_ne hq] at h

theorem directory_removeFile (t : FileTree) (p : Place) :
    (t.removeFile p).directory = t.directory := by
  rw [removeFile]
  split <;> rfl

end FileTree

/-- Whether this is what a file with a database holds. -/
def Content.isDatabase : Content → Bool
  | database _ _ => true
  | text _ | binary => false

/-- Whether there is a file with a database. -/
def Node.holdsDatabase : Node → Bool
  | file content => content.isDatabase
  | folder | device => false

namespace Disk

variable {d d' d'' : Disk}

theorem database_eq (d : Disk) : d.database = d.files.databaseAt d.place := by
  rw [database, content, FileTree.databaseAt]
  cases d.files.content? d.place with
  | none => rfl
  | some content => cases content <;> rfl

/-- Working with a disk has spared everything but the file of the database itself: the disk is the
same, and all databases in other places are but those that are gone. -/
structure Spares (d d' : Disk) : Prop where
  place : d'.place = d.place
  access : d'.access = d.access
  directory : d'.files.directory = d.files.directory
  others : ∀ p db mode, p ≠ d.place → d'.files.node? p = some (.file (.database db mode)) →
    d.files.node? p = some (.file (.database db mode))

/-- It has also kept what the database stores. -/
structure Keeps (d d' : Disk) : Prop extends Spares d d' where
  content : d.database.SameContent d'.database

namespace Spares

theorem refl (d : Disk) : d.Spares d := ⟨rfl, rfl, rfl, fun _ _ _ _ h => h⟩

theorem trans (h : d.Spares d') (h' : d'.Spares d'') : d.Spares d'' where
  place := h'.place.trans h.place
  access := h'.access.trans h.access
  directory := h'.directory.trans h.directory
  others p db mode hp hnode := h.others p db mode hp (h'.others p db mode (h.place ▸ hp) hnode)

end Spares

namespace Keeps

theorem refl (d : Disk) : d.Keeps d := ⟨.refl d, .refl d.database⟩

theorem trans (h : d.Keeps d') (h' : d'.Keeps d'') : d.Keeps d'' :=
  ⟨h.toSpares.trans h'.toSpares, h.content.trans h'.content⟩

/-- How the log is in use does not matter. -/
theorem withLog (h : d.Keeps d') (log : LogUse) : d.Keeps { d' with log } :=
  ⟨⟨h.place, h.access, h.directory, h.others⟩, h.content⟩

end Keeps

section Companions

variable (hp : d.place ≠ [])

include hp

/-- The files of companions hold no databases. -/
theorem keeps_put (c : Companion) {content : Content} (hcontent : content.isDatabase = false) :
    d.Keeps (d.put c content) where
  place := rfl
  access := rfl
  directory := rfl
  others p db mode _ hnode := by
    by_cases hc : p = c.place d.place
    · subst hc
      cases (FileTree.node?_insert_self ..).symm.trans hnode
      cases hcontent
    · exact (FileTree.node?_insert_of_ne _ hc _).symm.trans hnode
  content := by
    rw [database_eq, database_eq]
    exact congrArg _ (FileTree.databaseAt_congr
      (FileTree.node?_insert_of_ne _ (c.place_ne hp).symm _)).symm

theorem keeps_remove (c : Companion) : d.Keeps (d.remove c) where
  place := rfl
  access := rfl
  directory := FileTree.directory_removeFile _ _
  others _ _ _ _ hnode := FileTree.of_node?_removeFile hnode
  content := by
    rw [database_eq, database_eq]
    exact congrArg _ (FileTree.databaseAt_congr
      (FileTree.node?_removeFile_of_ne _ (c.place_ne hp).symm)).symm

end Companions

theorem spares_fill (d : Disk) (content : Content) : d.Spares (d.fill content) where
  place := rfl
  access := rfl
  directory := rfl
  others _ _ _ hp hnode := (FileTree.node?_insert_of_ne _ hp _).symm.trans hnode

theorem content_fill (d : Disk) (content : Content) : (d.fill content).content = content := by
  have hnode : (d.fill content).files.node? (d.fill content).place = some (.file content) :=
    FileTree.node?_insert_self ..
  rw [Disk.content, FileTree.content?, hnode]
  rfl

theorem database_of_content {db : Database} {mode : JournalMode}
    (h : d.content = .database db mode) : d.database = db := by
  rw [database, h]

/-- The file may be written anew if it stores the same then. -/
theorem keeps_fill {db : Database} (h : d.database.SameContent db) (mode : JournalMode) :
    d.Keeps (d.fill (.database db mode)) where
  toSpares := d.spares_fill _
  content := by rwa [database_of_content (d.content_fill _)]

/-! ### Steps -/

/-- The disk that a step leaves, whether it succeeds or fails. -/
def left : Except Disk Disk → Disk
  | .ok d | .error d => d

/-- The step keeps what is stored, whether it succeeds or fails. -/
def Step.Keeping (f : Step) : Prop := ∀ d : Disk, d.place ≠ [] → d.Keeps (left (f d))

theorem keeping_bind {f g : Step} (hf : f.Keeping) (hg : g.Keeping) :
    Step.Keeping fun d => f d >>= g := by
  intro d hp
  have hkeeps := hf d hp
  change d.Keeps (left (f d >>= g))
  cases h : f d with
  | error d' =>
    rw [h] at hkeeps
    exact hkeeps
  | ok d' =>
    rw [h] at hkeeps
    exact hkeeps.trans (hg d' (hkeeps.place ▸ hp))

theorem keeping_awaitLock : awaitLock.Keeping := by
  intro d _
  rw [awaitLock]
  split <;> exact .refl d

theorem keeping_settleJournal : settleJournal.Keeping := by
  intro d hp
  have hremove := keeps_remove hp .journal
  rw [settleJournal]
  split
  · exact .refl d
  · split
    · split
      · exact hremove
      · exact .refl d
    · split
      · split_ifs
        · exact .refl d
        · exact hremove
        · exact .refl d
      · exact .refl d

theorem keeping_openIndex : openIndex.Keeping := by
  intro d hp
  have hput (log : LogUse) : d.Keeps { d.put .index .binary with log } :=
    (keeps_put hp .index rfl).withLog log
  have hself (log : LogUse) : d.Keeps { d with log } := (Keeps.refl d).withLog log
  rw [openIndex]
  split
  · exact hself _
  · split
    · split
      · exact hself _
      · exact hput _
    · split
      · exact hput _
      · split
        · exact hself _
        · exact hself _
    · exact hself _

theorem keeping_openLog : openLog.Keeping := by
  intro d hp
  have hput : d.Keeps (d.put .log .nothing) := keeps_put hp .log rfl
  rw [openLog]
  split_ifs
  · exact .refl d
  · split
    · exact .refl d
    · exact keeping_openIndex d hp
    · exact hput.trans (keeping_openIndex _ hp)

theorem keeping_settleLog : settleLog.Keeping := by
  intro d hp
  rw [settleLog]
  split_ifs
  · exact .refl d
  · exact keeping_openLog d hp
  · exact .refl d
  · exact keeps_remove hp .log

theorem keeping_readFile : readFile.Keeping := by
  intro d hp
  rw [readFile]
  split
  · split_ifs <;> exact .refl d
  · exact .refl d
  · split_ifs
    · exact keeping_openLog d hp
    · exact .refl d

theorem keeps_replaceContent {db : Database} (hp : d.place ≠ []) (h : d.database.SameContent db)
    (mode : JournalMode) : d.Keeps (left (d.replaceContent (.database db mode))) := by
  have hremove := keeps_remove hp .journal
  rw [replaceContent]
  split_ifs
  · exact hremove.trans (keeps_fill (hremove.content.symm.trans h) mode)
  · exact .refl d

theorem keeping_closeLog : closeLog.Keeping := by
  intro d hp
  have hremove := (keeps_remove hp .log).withLog .closed
  rw [closeLog]
  split
  · exact .refl d
  · exact .refl d
  · exact .refl d
  · split
    · exact .refl d
    · let closed : Disk := { d.remove .log with log := .closed }
      change d.Keeps (if d.access.hasIndexFile then closed.remove .index else closed)
      split
      · exact hremove.trans (keeps_remove (d := closed) hp .index)
      · exact hremove

theorem keeping_leaveLog : leaveLog.Keeping := by
  refine keeping_bind keeping_closeLog fun d hp => ?_
  have hjournal : d.Keeps (if d.has .journal then d.remove .journal else d) := by
    split
    · exact keeps_remove hp .journal
    · exact .refl d
  refine hjournal.trans ?_
  generalize (if d.has .journal then d.remove .journal else d) = d' at hjournal ⊢
  have hp' : d'.place ≠ [] := hjournal.place ▸ hp
  dsimp only
  split
  · next db h =>
    refine keeps_replaceContent hp' ?_ _
    rw [database, h]
    exact .refl db
  · exact .refl d'

theorem keeping_takeLog : takeLog.Keeping :=
  keeping_bind (fun d hp => keeps_replaceContent hp (.refl d.database) .wal) keeping_openLog

theorem keeping_changeMode (mode : JournalMode) : (changeMode mode).Keeping := by
  intro d hp
  rw [changeMode.eq_def]
  split_ifs
  · exact .refl d
  · split
    · exact .refl d
    · exact keeping_leaveLog d hp
    · exact keeping_takeLog d hp
    · exact .refl d

/-- **Entering a disk keeps what is stored**, however far it gets. -/
theorem keeping_enter (mode : JournalMode) : (enter mode).Keeping :=
  keeping_bind keeping_awaitLock <| keeping_bind keeping_settleJournal <|
    keeping_bind keeping_settleLog <| keeping_bind keeping_readFile (keeping_changeMode mode)

/-- Leaving a disk keeps what is stored. -/
theorem keeps_leave (hp : d.place ≠ []) : ∃ d', d.leave = d'.files ∧ d.Keeps d' := by
  refine ⟨left d.closeLog, ?_, keeping_closeLog d hp⟩
  rw [leave]
  cases d.closeLog <;> rfl

/-! ### Opening and changing -/

/-- The disk with the file that a path names, as the files have it. -/
def named (files : FileTree) (path : List UInt8) (access : Access) : Disk where
  files
  place := Place.ofPath files.directory path
  access
  log := .closed

/-- Opening a file creates it at most. -/
theorem of_open? {files : FileTree} {path : List UInt8} {access : Access}
    (h : Disk.open? files path access = some d) :
    (named files path access).place ≠ [] ∧ (named files path access).Keeps d := by
  rw [Disk.open?.eq_def] at h
  obtain ⟨p, hp, h⟩ := Option.bind_eq_some_iff.mp h
  obtain ⟨rfl, hplace⟩ := FileTree.eq_ofPath_of_fileNamed? hp
  refine ⟨hplace, ?_⟩
  split at h
  · cases h
  · split at h
    · cases h
      exact .refl _
    · next hmissing =>
      split at h
      · cases h
        have hblank : (named files path access).database = .blank := by
          rw [database_eq]
          exact FileTree.databaseAt_of_missing (Option.not_isSome_iff_eq_none.mp hmissing)
        have hcreated : ((named files path access).fill .nothing).database = .blank := by
          rw [database, content_fill]
          rfl
        exact ⟨spares_fill _ .nothing, hblank.trans hcreated.symm ▸ .refl _⟩
      · cases h

/-- A database that may be changed can be changed to any other. -/
theorem store_of_free (hfree : d.writing = .free) {db : Database} {mode : JournalMode}
    (hcontent : d.content = .database db mode) (database : Database) :
    ∃ d', d.store database = .ok d' := by
  rw [store, if_neg (by simp [hfree])]
  split
  · next hclosed =>
    have hcan : (d.access.canWrite && d.canHave .journal) = true := by
      rw [writing, hclosed] at hfree
      cases hwrite : d.access.canWrite <;> cases hjournal : d.canHave .journal <;>
        simp [hwrite, hjournal] at hfree ⊢
    have hnode : d.files.node? d.place ≠ some .device := by
      intro hdevice
      rw [content, FileTree.content?, hdevice] at hcontent
      cases hcontent
    exact ⟨_, if_pos (by rw [hcan]; simpa using hnode)⟩
  · exact ⟨_, rfl⟩

/-- What a changed database is changed to. -/
theorem of_store {database : Database} (hp : d.place ≠ []) (h : d.store database = .ok d') :
    d.Spares d' ∧ ∃ mode, d'.content = .database database mode := by
  rw [store] at h
  split at h
  · cases h
  · split at h
    · rw [replaceContent] at h
      split at h
      · cases h
        exact ⟨(keeps_remove hp .journal).toSpares.trans (spares_fill _ _), _, content_fill _ _⟩
      · cases h
    · cases h
      exact ⟨(keeps_put hp .log rfl).toSpares.trans (spares_fill _ _), _, content_fill _ _⟩

theorem eq_of_store_error {database : Database} (h : d.store database = .error d') : d' = d := by
  rw [store] at h
  split at h
  · cases h
    rfl
  · split at h
    · rw [replaceContent] at h
      split at h
      · cases h
      · cases h
        rfl
    · cases h

end Disk

end RunLedger
