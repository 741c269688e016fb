import RunLedger.CommandLine.Run
import RunLedger.Proofs.Disk
import RunLedger.Proofs.Trace

/-!
# The database of a command and the files around it

A command finds its database in the file that its configuration names, or makes a new one in memory.
Opening the database, changing it and closing it leave in that file what is stored in the end,
whatever was beside the file, and no file comes to store anything that no calls lead to.

## Main definitions

* `FileTree.StoresReachable`: what files store is what calls lead to.
* `Config.place?`, `Config.databaseIn`: where the database of a configuration is, and what it is.
* `FileTree.Holds`: files store a database.

## Main results

* `Reachable.withLayout_eq`: calls do not change the version of the layout.
* `CommandLine.openLocation_cases`: what becomes of opening the database of a file.
* `CommandLine.of_openDatabase_error`: a database that cannot be opened stays as it was.
* `CommandLine.of_openDatabase`: what an open database is, and what is stored once it is closed.
-/

namespace RunLedger

open Database

/-- The version of the layout stays the newest. -/
theorem Reachable.withLayout_eq {db : Database} (h : Reachable db) :
    db.withLayout newestSchema = db := by
  obtain ⟨steps, rfl⟩ := h
  let upToDate (db : Database) : Prop := db.withLayout newestSchema = db
  refine Operation.performAll_invariant (I := upToDate)
    (fun operation call db answer db' hdb hyields => ?_) steps rfl
  have hoverlooks : operation.run.Overlooks (withLayout newestSchema) := operation.overlooks_layout
  replace hoverlooks := hoverlooks call db
  rw [hdb, show operation.run.perform call db = (.ok answer, db') from hyields] at hoverlooks
  exact (Prod.ext_iff.mp hoverlooks).2.symm

/-- Every database in the files is one that calls lead to, but for the version of its layout. -/
def FileTree.StoresReachable (t : FileTree) : Prop :=
  ∀ p db mode, t.node? p = some (.file (.database db mode)) →
    Reachable (db.withLayout newestSchema)

/-- Files without databases store nothing that no calls lead to. -/
theorem FileTree.storesReachable_of_all {t : FileTree}
    (h : t.nodes.values.all (fun node => !node.holdsDatabase) = true) : t.StoresReachable := by
  intro p db mode hnode
  have hmem : Node.file (.database db mode) ∈ t.nodes.values :=
    List.mem_map.mpr ⟨_, Table.mem_entries_iff.mpr hnode, rfl⟩
  cases List.all_eq_true.mp h _ hmem

/-- Where nothing is stored, a database begins. -/
theorem FileTree.StoresReachable.databaseAt {t : FileTree} (h : t.StoresReachable) (p : Place) :
    Reachable ((t.databaseAt p).withLayout newestSchema) := by
  rw [FileTree.databaseAt, FileTree.content?]
  split
  · next db mode hcontent =>
    split at hcontent
    · next content hnode =>
      cases hcontent
      exact h p db mode hnode
    · cases hcontent
    · cases hcontent
  · exact .empty

/-- What is done with one database concerns what its file stores. -/
theorem Disk.Spares.storesReachable {d d' : Disk} (h : d.Spares d')
    (hbefore : d.files.StoresReachable) (hafter : Reachable (d'.database.withLayout newestSchema)) :
    d'.files.StoresReachable := by
  intro p db mode hnode
  by_cases hp : p = d.place
  · subst hp
    rw [Disk.database_eq, h.place, FileTree.databaseAt_of_node? hnode] at hafter
    exact hafter
  · exact hbefore p db mode (h.others p db mode hp hnode)

/-- The place of the file that keeps the database of a configuration, if one does. -/
def Config.place? (config : Config) (files : FileTree) : Option Place :=
  match Location.ofPath? config.path with
  | some (.file path _) => some (Place.ofPath files.directory path)
  | _ => none

/-- The database of a configuration as the files have it: a new one if none is stored. -/
def Config.databaseIn (config : Config) (files : FileTree) : Database :=
  match config.place? files with
  | some p => files.databaseAt p
  | none => .blank

/-- The database of a configuration is one that calls lead to. -/
theorem FileTree.StoresReachable.databaseIn {files : FileTree} (h : files.StoresReachable)
    (config : Config) : Reachable ((config.databaseIn files).withLayout newestSchema) := by
  rw [Config.databaseIn]
  split
  · exact h.databaseAt _
  · exact .empty

/-- What the files store at a place, if one is given, is the content of a database. -/
def FileTree.Holds (files : FileTree) (place? : Option Place) (db : Database) : Prop :=
  ∀ p, place? = some p → (files.databaseAt p).SameContent db

namespace CommandLine

open Disk

variable {config : Config} {files files' : FileTree} {d : Disk}

theorem holds_databaseIn (config : Config) (files : FileTree) :
    files.Holds (config.place? files) (config.databaseIn files) := by
  intro p hp
  rw [Config.databaseIn, hp]
  exact .refl _

/-! ### Bringing the layout up to date -/

/-- A file without a database counts as one with an old layout. -/
theorem exists_content_of_not_isOutdated (h : d.database.isOutdated = false) :
    ∃ db mode, d.content = .database db mode := by
  cases hcontent : d.content with
  | database db mode => exact ⟨db, mode, rfl⟩
  | text | binary =>
    rw [Disk.database, hcontent] at h
    cases h

theorem eq_withLayout_of_migrated {db db' : Database} (h : db.migrated = .ok db') :
    db.schemaVersion ≤ newestSchema ∧ db' = db.withLayout newestSchema := by
  rw [Database.migrated] at h
  split at h
  · cases h
  · next hnewer =>
    cases h
    exact ⟨not_lt.mp hnewer, rfl⟩

theorem ne_waitTooLong_of_migrated {db : Database} {e : StoreError} (h : db.migrated = .error e) :
    e ≠ .waitTooLong := by
  rw [Database.migrated] at h
  split at h
  · cases h
    intro hwait
    cases hwait
  · cases h

/-- **Opening a database keeps what it stores**, and one that is open has the newest layout. That it
cannot be waited for is found out before. -/
theorem of_enterDisk (mode : JournalMode) (hp : d.place ≠ []) :
    match enterDisk mode d with
    | .ok d' => d.Keeps d' ∧ ∃ db mode, d'.content = .database db mode ∧
        db.schemaVersion = newestSchema
    | .error (e, d') => d.Keeps d' ∧ e ≠ .waitTooLong := by
  have hentered := keeping_enter mode d hp
  rw [enterDisk]
  cases henter : d.enter mode with
  | error d₁ =>
    rw [henter] at hentered
    exact ⟨hentered, nofun⟩
  | ok d₁ =>
    rw [henter] at hentered
    replace hentered : d.Keeps d₁ := hentered
    have hp₁ : d₁.place ≠ [] := hentered.place ▸ hp
    simp only [Except.mapError, bind, Except.bind]
    cases hmigrated : d₁.database.migrated with
    | error e => exact ⟨hentered, ne_waitTooLong_of_migrated hmigrated⟩
    | ok db =>
      obtain ⟨hversion, rfl⟩ := eq_withLayout_of_migrated hmigrated
      cases houtdated : d₁.database.isOutdated with
      | false =>
        obtain ⟨db, mode', hcontent⟩ := exists_content_of_not_isOutdated houtdated
        rw [database_of_content hcontent] at hversion houtdated
        refine ⟨hentered, db, mode', hcontent, le_antisymm hversion ?_⟩
        exact not_lt.mp (of_decide_eq_false houtdated)
      | true =>
        simp only [if_true]
        cases hstore : d₁.store (d₁.database.withLayout newestSchema) with
        | error d₂ =>
          obtain rfl := eq_of_store_error hstore
          exact ⟨hentered, nofun⟩
        | ok d₂ =>
          obtain ⟨hspares, mode', hcontent⟩ := of_store hp₁ hstore
          have hkeeps : d₁.Keeps d₂ := by
            refine ⟨hspares, ?_⟩
            rw [database_of_content hcontent]
            exact (SameContent.withLayout _ _).symm
          exact ⟨hentered.trans hkeeps, _, mode', hcontent, rfl⟩

/-! ### Databases in files -/

/-- **What becomes of opening the database of a file**: it is opened with its layout up to date, or
it is left as it was. -/
theorem openLocation_cases (config : Config) (files : FileTree) (path : List UInt8)
    (access : Access) :
    (∃ e, openLocation config files (.file path access) = .error (e, files) ∧ e ≠ .waitTooLong) ∨
      ∃ d, (named files path access).Keeps d ∧ d.place ≠ [] ∧
        ((∃ e, openLocation config files (.file path access) = .error (e, d.leave) ∧
            (e = .waitTooLong → config.canWait = false)) ∨
          openLocation config files (.file path access) = .ok (.onDisk d) ∧
            ∃ db mode, d.content = .database db mode ∧ db.schemaVersion = newestSchema) := by
  rw [openLocation]
  cases hopen : Disk.open? files path access with
  | none => exact .inl ⟨_, rfl, nofun⟩
  | some d =>
    right
    obtain ⟨hp, hopened⟩ := of_open? hopen
    have hplace : d.place ≠ [] := hopened.place ▸ hp
    cases hwait : config.canWait with
    | false => exact ⟨d, hopened, hplace, .inl ⟨_, rfl, fun _ => rfl⟩⟩
    | true =>
      simp only [Bool.not_true, Bool.false_eq_true, if_false]
      have hentered := of_enterDisk config.journalMode hplace
      cases henter : enterDisk config.journalMode d with
      | ok d' =>
        rw [henter] at hentered
        exact ⟨d', hopened.trans hentered.1, hentered.1.place ▸ hplace, .inr ⟨rfl, hentered.2⟩⟩
      | error failure =>
        obtain ⟨e, d'⟩ := failure
        rw [henter] at hentered
        exact ⟨d', hopened.trans hentered.1, hentered.1.place ▸ hplace,
          .inl ⟨e, rfl, fun h => absurd h hentered.2⟩⟩

section InFile

variable {path : List UInt8} {access : Access}
  (hlocation : Location.ofPath? config.path = some (.file path access))

include hlocation

theorem place?_of_file : config.place? files = some (named files path access).place := by
  rw [Config.place?, hlocation]
  rfl

theorem databaseIn_of_file : config.databaseIn files = (named files path access).database := by
  rw [Config.databaseIn, place?_of_file hlocation, database_eq]
  rfl

variable (hplace : d.place ≠ []) (hfiles : files.StoresReachable)

include hplace hfiles

/-- What is stored when a disk is left. -/
theorem holds_leave (hspares : (named files path access).Spares d) {db : Database}
    (hd : d.database.SameContent db) (hdb : Reachable (db.withLayout newestSchema)) :
    d.leave.StoresReachable ∧ d.leave.Holds (config.place? files) db := by
  obtain ⟨d', hleave, hkeeps⟩ := keeps_leave hplace
  have hcontent : d'.database.SameContent db := hkeeps.content.symm.trans hd
  have hall := hspares.trans hkeeps.toSpares
  rw [hleave]
  refine ⟨hall.storesReachable hfiles (hcontent ▸ hdb), fun p hp => ?_⟩
  rw [place?_of_file hlocation] at hp
  rwa [← Option.some.inj hp, ← hall.place, ← database_eq]

/-- What is stored once a database on a disk is changed, if it can be, and closed. -/
theorem holds_update (hspares : (named files path access).Spares d) {db₀ : Database}
    {mode : JournalMode} (hcontent : d.content = .database db₀ mode) {db : Database}
    (hwriting : d.writing ≠ .free → db = d.database)
    (hdb : Reachable (db.withLayout newestSchema)) :
    (((Opened.onDisk d).update db).filesAfter files).StoresReachable ∧
      (((Opened.onDisk d).update db).filesAfter files).Holds (config.place? files) db := by
  by_cases hsame : db = d.database
  · have hself : (Opened.onDisk d).update db = .onDisk d := if_pos hsame
    rw [hself]
    exact holds_leave hlocation hplace hfiles hspares (hsame ▸ .refl _) hdb
  · have hfree : d.writing = .free := by
      by_contra hdenied
      exact hsame (hwriting hdenied)
    obtain ⟨d', hstore⟩ := store_of_free hfree hcontent db
    obtain ⟨hspares', mode', hcontent'⟩ := of_store hplace hstore
    have hchanged : (Opened.onDisk d).update db = .onDisk d' := by
      have hchange : ¬ db = (Opened.onDisk d).database := hsame
      rw [Opened.update, if_neg hchange]
      simp only [Opened.onDisk, hstore]
    rw [hchanged]
    refine holds_leave hlocation (hspares'.place ▸ hplace) hfiles (hspares.trans hspares') ?_ hdb
    rw [database_of_content hcontent']
    exact .refl db

end InFile

/-! ### Databases of configurations -/

/-- A configuration is validated before its database is looked for. -/
theorem openDatabase_eq (config : Config) (files : FileTree) :
    openDatabase config files =
      match config.validate with
      | .error e => .error (e, files)
      | .ok _ =>
        match Location.ofPath? config.path with
        | some location => openLocation config files location
        | none => .error (.openFailed config.path, files) := by
  rw [openDatabase]
  cases config.validate <;> rfl

theorem ne_waitTooLong_of_validate {e : StoreError} (h : config.validate = .error e) :
    e ≠ .waitTooLong := by
  rw [Config.validate] at h
  split_ifs at h <;> cases h <;> nofun

/-- **A database that cannot be opened stays as it was.** If it could not have been waited for, the
waiting time is too long to be kept. -/
theorem of_openDatabase_error (hfiles : files.StoresReachable) {e : StoreError}
    (h : openDatabase config files = .error (e, files')) :
    files'.StoresReachable ∧ files'.Holds (config.place? files) (config.databaseIn files) ∧
      (e = .waitTooLong → config.canWait = false) := by
  have hsame := holds_databaseIn config files
  rw [openDatabase_eq] at h
  split at h
  · next hinvalid =>
    cases h
    exact ⟨hfiles, hsame, fun h => absurd h (ne_waitTooLong_of_validate hinvalid)⟩
  · split at h
    · next location hlocation =>
      cases location with
      | memory writes sharing =>
        rw [openLocation] at h
        split_ifs at h with hwait
        · cases h
          exact ⟨hfiles, hsame, fun _ => by simpa using hwait⟩
        · cases h
          exact ⟨hfiles, hsame, nofun⟩
      | file path access =>
        rcases openLocation_cases config files path access with
          ⟨e, hopen, hwait⟩ | ⟨d, hkeeps, hplace, ⟨e, hopen, hwait⟩ | ⟨hopen, -⟩⟩
        · cases hopen.symm.trans h
          exact ⟨hfiles, hsame, fun h => absurd h hwait⟩
        · cases hopen.symm.trans h
          rw [databaseIn_of_file hlocation]
          obtain ⟨hreachable, hleft⟩ := holds_leave hlocation hplace hfiles hkeeps.toSpares
            hkeeps.content.symm (database_eq _ ▸ hfiles.databaseAt _)
          exact ⟨hreachable, hleft, hwait⟩
        · cases hopen.symm.trans h
    · cases h
      exact ⟨hfiles, hsame, nofun⟩

/-- **What an open database is, and what is stored once it is closed**: it is the one that the files
have, with its layout up to date, and after a change that could be made they store the changed one.
-/
theorem of_openDatabase (hfiles : files.StoresReachable) {o : Opened}
    (h : openDatabase config files = .ok o) :
    o.database = (config.databaseIn files).withLayout newestSchema ∧
      ∀ db, (o.writing ≠ .free → db = o.database) → Reachable db →
        ((o.update db).filesAfter files).StoresReachable ∧
          ((o.update db).filesAfter files).Holds (config.place? files) db := by
  rw [openDatabase_eq] at h
  split at h
  · cases h
  · split at h
    · next location hlocation =>
      cases location with
      | memory writes sharing =>
        have hplace : config.place? files = none := by rw [Config.place?, hlocation]
        rw [openLocation] at h
        split_ifs at h
        cases h
        refine ⟨?_, fun db _ _ => ?_⟩
        · rw [Config.databaseIn, hplace]
          rfl
        · have hclosed : (Opened.inMemory.update db).filesAfter files = files := by
            rw [Opened.update]
            split <;> rfl
          rw [hclosed, hplace]
          exact ⟨hfiles, nofun⟩
      | file path access =>
        rcases openLocation_cases config files path access with ⟨e, hopen, -⟩ |
          ⟨d, hkeeps, hplace, ⟨e, hopen, -⟩ | ⟨hopen, db₀, mode, hcontent, hversion⟩⟩
        · cases hopen.symm.trans h
        · cases hopen.symm.trans h
        · cases hopen.symm.trans h
          refine ⟨?_, fun db hwriting hdb => ?_⟩
          · rw [databaseIn_of_file hlocation]
            exact hkeeps.content.eq_withLayout (database_of_content hcontent ▸ hversion)
          · exact holds_update hlocation hplace hfiles hkeeps.toSpares hcontent hwriting
              (hdb.withLayout_eq.symm ▸ hdb)
    · cases h

/-- If an open database is not changed, the files go on to store what they have stored. -/
theorem unchanged_of_openDatabase (hfiles : files.StoresReachable) {o : Opened}
    (h : openDatabase config files = .ok o) :
    (o.filesAfter files).StoresReachable ∧
      (o.filesAfter files).Holds (config.place? files) (config.databaseIn files) := by
  obtain ⟨hdatabase, hclosed⟩ := of_openDatabase hfiles h
  have hself : o.update o.database = o := if_pos rfl
  have hafter := hclosed o.database (fun _ => rfl) (hdatabase ▸ hfiles.databaseIn config)
  rw [hself] at hafter
  refine ⟨hafter.1, fun p hp => (hafter.2 p hp).trans ?_⟩
  rw [hdatabase]
  exact .withLayout _ _

end CommandLine

end RunLedger
