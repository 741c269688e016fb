import RunLedger.Proofs.Metric.Effect
import RunLedger.Proofs.Work.Contention
import RunLedger.Session.Step

/-!
# Sessions on a file

If the configuration of a session names a file, all handles are open on the one database in it. As
long as a unit of work holds its write lock no step that is taken through any handle changes it: a
call that writes stalls, a call that only reads changes nothing anyway, and a handle can be opened
only on a database whose layout is up to date. A unit of work opened while another one is open does
not even begin. So an open unit of work is always the only one, and when it ends the lock is free.
A file that is used without locks has none to hold, and then the lock is free all the time.

## Main definitions

* `Session.OnFile`: all handles are open on the database in one file.
* `Session.Waits`: nothing has happened to the databases.
* `Session.Idle`: no unit of work is open either.

## Main results

* `Session.take_transaction_cases`: a unit of work does not begin, or takes its steps and ends.
* `Session.commit_of_get?`, `Session.OnFile.commit_of_changed`: when a unit of work can commit.
* `Session.OnFile.waits_takeAll`: steps taken while a unit of work is open change no database.
* `Session.Idle.take_transaction`: a unit of work commits its writes or leaves nothing.
* `Session.Idle.take`: a step leaves the lock free.
-/

namespace RunLedger

/-- How the layout is brought up to date. -/
theorem Volume.migrate_eq (v : Volume) (writing : Writing) :
    v.migrate writing =
      if Database.newestSchema < v.database.schemaVersion then
        .error (.unsupportedSchema v.database.schemaVersion Database.newestSchema)
      else if v.database.isOutdated && (v.locked || writing ≠ .free) then .error .statementFailed
      else .ok { v with
        database := { v.database with schemaVersion := Database.newestSchema } } := by
  rw [migrate, Database.migrated]
  split
  · rfl
  · rfl

/-- Bringing the layout up to date fails for internal reasons only. -/
theorem Volume.code_of_migrate_error {v : Volume} {writing : Writing} {e : StoreError}
    (h : v.migrate writing = .error e) : e.code = .internalError := by
  rw [migrate_eq] at h
  split at h
  · cases h
    rfl
  · split at h
    · cases h
      rfl
    · cases h

/-- What bringing the layout up to date takes, and what it changes. -/
theorem Volume.migrate_eq_ok_iff {v v' : Volume} {writing : Writing} :
    v.migrate writing = .ok v' ↔ v.database.schemaVersion ≤ Database.newestSchema ∧
      (v.database.schemaVersion < Database.newestSchema → v.locked = false ∧ writing = .free) ∧
      v' = { v with
        database := { v.database with schemaVersion := Database.newestSchema } } := by
  rw [migrate_eq, Database.isOutdated]
  split
  · next hnewer => exact iff_of_false nofun fun h => absurd h.1 (not_le.mpr hnewer)
  · next hnewer =>
    split
    · next hrefused =>
      simp only [Bool.and_eq_true, Bool.or_eq_true, decide_eq_true_eq] at hrefused
      refine iff_of_false nofun fun ⟨_, hfree, _⟩ => ?_
      obtain ⟨hlocked, hwriting⟩ := hfree hrefused.1
      rcases hrefused.2 with h | h
      · rw [hlocked] at h
        cases h
      · exact h hwriting
    · next hrefused =>
      simp only [Bool.and_eq_true, Bool.or_eq_true, decide_eq_true_eq, not_and, not_or] at hrefused
      refine ⟨fun h => ⟨not_lt.mp hnewer, fun hold => ?_, (Except.ok.inj h).symm⟩,
        fun ⟨_, _, h⟩ => h ▸ rfl⟩
      obtain ⟨hlocked, hwriting⟩ := hrefused hold
      exact ⟨by simpa using hlocked, by simpa using hwriting⟩

namespace Session

variable {s s' : Session} {n : Nat} {v : Volume}

/-- What it takes to open a database. -/
theorem openVolume_eq_ok_iff :
    s.openVolume = .ok (n, v) ↔ s.config.validate = .ok () ∧
      ∃ writing, s.target = .ok (n, writing) ∧ s.bars (s.kept n) = false ∧
        (s.kept n).migrate writing = .ok v := by
  constructor
  · intro h
    obtain ⟨_, hvalid, h⟩ := exists_of_bind_eq_ok h
    obtain ⟨⟨n', writing⟩, htarget, h⟩ := exists_of_bind_eq_ok h
    simp only at h
    split at h
    · cases h
    · next hbars =>
      obtain ⟨v', hmigrate, h⟩ := exists_of_bind_eq_ok h
      cases h
      exact ⟨hvalid, writing, htarget, by simpa using hbars, hmigrate⟩
  · rintro ⟨hvalid, writing, htarget, hbars, hmigrate⟩
    rw [openVolume, hvalid]
    change (s.target >>= _) = _
    rw [htarget]
    change (if s.bars (s.kept n) then _ else (s.kept n).migrate writing >>= _) = _
    rw [hbars, hmigrate]
    rfl

/-- While no unit of work is open everything can be read. -/
theorem bars_of_free (hfree : v.held = none) : s.bars v = false := by
  rw [bars, hfree]
  rfl

/-- The session after a handle is closed. -/
def closed (s : Session) (handle : String) : Session :=
  { s with handles := s.handles.erase handle }

/-- The session after a handle is opened on a database. -/
def opened (s : Session) (handle : String) (n : Nat) (v : Volume) : Session :=
  { s with volumes := s.volumes.insert n v, handles := (s.handles.erase handle).insert handle n }

theorem open_eq (s : Session) (handle : String) :
    s.open handle = match (s.closed handle).openVolume with
      | .ok (n, v) => (.ok (), s.opened handle n v)
      | .error e => (.error e, s.closed handle) := rfl

/-! ### Sessions on a file -/

/-- The configuration names a file, and all handles that are open are so on the database in it. -/
structure OnFile (s : Session) : Prop where
  location : ∃ path access, Location.ofPath? s.config.path = some (.file path access)
  handle : ∀ handle n, s.handles.get? handle = some n → n = 0 ∧ ∃ v, s.volumes.get? 0 = some v

theorem onFile_start {config : Config} {path : List UInt8} {access : Access}
    (h : Location.ofPath? config.path = some (.file path access)) (surroundings : FileTree)
    (wall : Int) : (start config surroundings wall).OnFile where
  location := ⟨path, access, h⟩
  handle _ _ h := nomatch h

theorem volume?_eq_some_iff {handle : String} :
    s.volume? handle = some (n, v) ↔
      s.handles.get? handle = some n ∧ s.volumes.get? n = some v := by
  simp only [volume?, Option.bind_eq_bind, Option.bind_eq_some_iff, Option.pure_def,
    Option.some.injEq, Prod.mk.injEq]
  constructor
  · rintro ⟨n', hn, v', hv, rfl, rfl⟩
    exact ⟨hn, hv⟩
  · rintro ⟨hn, hv⟩
    exact ⟨n, hn, v, hv, rfl, rfl⟩

theorem putVolume_eq_self (h : s.volumes.get? n = some v) : s.putVolume n v = s := by
  rw [putVolume, Table.insert_eq_self h]

namespace OnFile

variable (h : s.OnFile)

include h

theorem kept_eq (n : Nat) : s.kept n = (s.volumes.get? n).getD .blank := by
  obtain ⟨path, access, hfile⟩ := h.location
  rw [kept, inMemory, hfile]
  rfl

theorem kept_of_get? (hv : s.volumes.get? 0 = some v) : s.kept 0 = v := by
  rw [h.kept_eq, hv]
  rfl

/-- The database to open is the one in the file. -/
theorem eq_zero_of_target {writing : Writing} (htarget : s.target = .ok (n, writing)) : n = 0 := by
  obtain ⟨path, access, hfile⟩ := h.location
  rw [target, hfile] at htarget
  simp only at htarget
  cases hdisk : Disk.open? (s.files path access) path access with
  | none =>
    rw [hdisk] at htarget
    cases htarget
  | some d =>
    rw [hdisk] at htarget
    simp only at htarget
    split at htarget
    · cases htarget
    · obtain ⟨d', -, hd'⟩ := exists_of_bind_eq_ok htarget
      cases hd'
      rfl

/-- A handle is opened on the database in the file once its layout is up to date. -/
theorem of_openVolume (hopen : s.openVolume = .ok (n, v)) :
    n = 0 ∧ ∃ writing, (s.kept 0).migrate writing = .ok v := by
  obtain ⟨-, writing, htarget, -, hmigrate⟩ := openVolume_eq_ok_iff.mp hopen
  obtain rfl := h.eq_zero_of_target htarget
  exact ⟨rfl, writing, hmigrate⟩

/-- The database of a handle is the one in the file. -/
theorem of_volume? {handle : String} (hv : s.volume? handle = some (n, v)) :
    n = 0 ∧ s.volumes.get? 0 = some v := by
  obtain ⟨hn, hv⟩ := volume?_eq_some_iff.mp hv
  obtain rfl := (h.handle handle n hn).1
  exact ⟨rfl, hv⟩

/-- Contexts and databases may change, as long as the database in the file is there. -/
theorem of_handles_eq (hconfig : s'.config = s.config) (hhandles : s'.handles = s.handles)
    (hvolume : ∀ v, s.volumes.get? 0 = some v → ∃ v', s'.volumes.get? 0 = some v') : s'.OnFile where
  location := hconfig ▸ h.location
  handle handle n hn := by
    obtain ⟨rfl, v, hv⟩ := h.handle handle n (hhandles ▸ hn)
    exact ⟨rfl, hvolume v hv⟩

theorem putVolume (v : Volume) : (s.putVolume 0 v).OnFile :=
  h.of_handles_eq rfl rfl fun _ _ => ⟨v, Table.get?_insert_self ..⟩

theorem closed (handle : String) : (s.closed handle).OnFile where
  location := h.location
  handle other n hn := by
    rw [Session.closed, Table.get?_erase] at hn
    split at hn
    · cases hn
    · exact h.handle other n hn

theorem opened (handle : String) (v : Volume) : (s.opened handle 0 v).OnFile where
  location := h.location
  handle other n hn := by
    refine ⟨?_, v, Table.get?_insert_self ..⟩
    rw [Session.opened, Table.get?_insert] at hn
    split at hn
    · exact (Option.some.inj hn).symm
    · exact ((h.closed handle).handle other n hn).1

theorem kept_closed (handle : String) (n : Nat) : (s.closed handle).kept n = s.kept n := by
  rw [(h.closed handle).kept_eq, h.kept_eq]
  rfl

/-- Opening a handle fails, or it brings the layout of the database in the file up to date. -/
theorem open_cases (handle : String) :
    (∃ e, (s.closed handle).openVolume = .error e ∧
        s.open handle = (.error e, s.closed handle)) ∨
      ∃ writing v, (s.kept 0).migrate writing = .ok v ∧
        s.open handle = (.ok (), s.opened handle 0 v) := by
  rw [open_eq]
  cases hopen : (s.closed handle).openVolume with
  | error e => exact .inl ⟨e, rfl, rfl⟩
  | ok nv =>
    obtain ⟨n, v⟩ := nv
    obtain ⟨rfl, writing, hmigrate⟩ := (h.closed handle).of_openVolume hopen
    exact .inr ⟨writing, v, h.kept_closed handle 0 ▸ hmigrate, rfl⟩

theorem «open» (handle : String) : (s.open handle).2.OnFile := by
  rcases h.open_cases handle with ⟨e, -, hopen⟩ | ⟨writing, v, -, hopen⟩ <;> rw [hopen]
  · exact h.closed handle
  · exact h.opened handle v

end OnFile

/-! ### While a unit of work is open -/

/-- While a unit of work is open a layout is up to date or stays as it is. -/
theorem eq_of_migrate_of_locked {writing : Writing} {v' : Volume} (hlocked : v.locked = true)
    (hmigrate : v.migrate writing = .ok v') : v' = v := by
  obtain ⟨hle, hfree, rfl⟩ := Volume.migrate_eq_ok_iff.mp hmigrate
  have hversion : v.database.schemaVersion = Database.newestSchema := by
    refine le_antisymm hle (not_lt.mp fun hold => ?_)
    rw [(hfree hold).1] at hlocked
    cases hlocked
  rw [← hversion]

/-- A call that changes nothing in its database changes nothing. -/
theorem call_eq_self {α : Type} {family : Family} {entropy : Nat} {w : Work α}
    (hv : s.volumes.get? n = some v)
    (hw : (w.perform (s.callOn v family entropy) v.database).2 = v.database) :
    (s.call n v family entropy w).2 = s := by
  rw [call]
  rcases hresult : w.perform (s.callOn v family entropy) v.database with ⟨result, db⟩
  rw [hresult] at hw
  obtain rfl : db = v.database := hw
  exact putVolume_eq_self hv

theorem call_eq_self_of_stalls {α : Type} {w : Work α} (hw : w.Stalls)
    (hv : s.volumes.get? n = some v) (hlocked : v.locked = true) (family : Family) (entropy : Nat) :
    (s.call n v family entropy w).2 = s := by
  have hcall : (s.callOn v family entropy).locked = true := hlocked
  obtain ⟨e, he⟩ := hw _ v.database hcall
  exact call_eq_self hv (by rw [he])

/-- The first writes of a unit of work stall while another one is open. -/
theorem exists_error_of_locked (hlocked : v.locked = true) (family : Family) (operation : String)
    (writes : Work Unit) :
    ∃ e, (Work.start operation *> writes).perform (s.callOn v family 0) v.database =
      (.error e, v.database) := by
  have hcall : (s.callOn v family 0).locked = true := hlocked
  rw [seqRight_eq_bind]
  exact Work.stalls_bind (Work.stalls_start operation) (fun _ => writes) _ v.database hcall

/-- No unit of work begins while another one is open. -/
theorem begin_eq_of_locked (hlocked : v.locked = true) (n : Nat) (family : Family)
    (operation : String) (writes : Work Unit) (hold : Hold) :
    ∃ e, s.begin n v family operation writes hold = (.error e, s) := by
  obtain ⟨e, he⟩ := exists_error_of_locked (s := s) hlocked family operation writes
  exact ⟨e, by rw [begin, he]⟩

/-! ### Steps in parts -/

theorem take_openHandle_snd (s : Session) (handle : String) :
    (s.take (.openHandle handle)).2 = (s.open handle).2 := by
  rw [take]
  rcases s.open handle with ⟨_ | _, s'⟩
  · rfl
  · simp only [onVolume]
    cases s'.volume? handle <;> rfl

theorem onVolume_of_get? {handle : String} (hn : s.handles.get? handle = some n)
    (hv : s.volumes.get? n = some v) (f : Nat → Volume → Outcome × Session) :
    s.onVolume handle f = f n v := by
  rw [onVolume, volume?_eq_some_iff.mpr ⟨hn, hv⟩]

theorem onVolume_of_closed {handle : String} (hn : s.handles.get? handle = none)
    (f : Nat → Volume → Outcome × Session) : s.onVolume handle f = (.unknownName, s) := by
  rw [onVolume, volume?, hn]
  rfl

theorem callThrough_of_unknown {handle : String} {context : Option String}
    (h : s.handles.get? handle = none ∨ s.family? context = none) (entropy : Nat)
    (operation : Operation) :
    s.callThrough handle context entropy operation = (.unknownName, s) := by
  rcases h with hn | hfamily
  · exact onVolume_of_closed hn _
  · rw [callThrough, onVolume]
    cases s.volume? handle with
    | none => rfl
    | some nv => simp only [hfamily]

theorem callThrough_of_get? {handle : String} {context : Option String} {family : Family}
    (hn : s.handles.get? handle = some n) (hv : s.volumes.get? n = some v)
    (hfamily : s.family? context = some family) (entropy : Nat) (operation : Operation) :
    s.callThrough handle context entropy operation =
      (.ofAnswer (operation.run.perform (s.callOn v family entropy) v.database).1,
        (s.call n v family entropy operation.run).2) := by
  rw [callThrough, onVolume_of_get? hn hv]
  simp only [hfamily]
  rfl

theorem holding_of_unlocked (h : s.isolation = .unlocked) (n : Nat) (v : Volume) (hold : Hold) :
    s.holding n v hold = s :=
  if_pos h

theorem holding_of_ne_unlocked (h : s.isolation ≠ .unlocked) (n : Nat) (v : Volume) (hold : Hold) :
    s.holding n v hold = s.putVolume n { v with held := some hold } :=
  if_neg h

/-- Taking the write lock of a database changes nothing but that database. -/
theorem holding_eq (s : Session) (n : Nat) (v : Volume) (hold : Hold) :
    (s.holding n v hold).config = s.config ∧
      (s.holding n v hold).surroundings = s.surroundings ∧
      (s.holding n v hold).contexts = s.contexts := by
  rw [holding]
  split <;> exact ⟨rfl, rfl, rfl⟩

/-- A unit of work begins with its first writes, or not at all. -/
theorem begin_cases (s : Session) (n : Nat) (v : Volume) (family : Family) (operation : String)
    (writes : Work Unit) (hold : Hold) :
    (∃ e, s.begin n v family operation writes hold = (.error e, s)) ∨
      ∃ db, (Work.start operation *> writes).perform (s.callOn v family 0) v.database =
          (.ok (), db) ∧
        s.begin n v family operation writes hold = (.ok db, s.holding n v hold) := by
  rw [begin]
  rcases (Work.start operation *> writes).perform (s.callOn v family 0) v.database with
    ⟨e | _, db⟩
  · exact .inl ⟨e, rfl⟩
  · exact .inr ⟨db, rfl, rfl⟩

/-- A unit of work that cannot begin takes no steps. -/
theorem take_transaction_of_error {handle : String} {context : Option String} {operation : String}
    {models : List String} {family : Family} {e : StoreError}
    (hv : s.volume? handle = some (n, v)) (hfamily : s.family? context = some family)
    (hbegin : s.begin n v family operation (seedModels models) (holdOf models) = (.error e, s'))
    (inner : List Step) (cancel : Bool) (failure : Option StoreError) :
    s.take (.transaction handle context operation models inner cancel failure) =
      (.rolledBack e [], s') := by
  rw [take, hv, hfamily]
  simp only [hbegin]

theorem take_transaction_of_ok {handle : String} {context : Option String} {operation : String}
    {models : List String} {family : Family} {writes : Database}
    (hv : s.volume? handle = some (n, v)) (hfamily : s.family? context = some family)
    (hbegin : s.begin n v family operation (seedModels models) (holdOf models) = (.ok writes, s'))
    (inner : List Step) (cancel : Bool) (failure : Option StoreError) :
    s.take (.transaction handle context operation models inner cancel failure) =
      (s'.takeAll inner).2.conclude n (context.bind s'.contexts.number?) operation cancel failure
        v.database writes (s'.takeAll inner).1 := by
  rw [take, hv, hfamily]
  simp only [hbegin]

/-- **What a unit of work comes to**: it does not begin, or it takes its steps and ends. -/
theorem take_transaction_cases (s : Session) (handle : String) (context : Option String)
    (operation : String) (models : List String) (inner : List Step) (cancel : Bool)
    (failure : Option StoreError) :
    (∃ outcome, (∀ inner', outcome ≠ .committed inner') ∧
      s.take (.transaction handle context operation models inner cancel failure) = (outcome, s)) ∨
    ∃ n v family writes, s.volume? handle = some (n, v) ∧ s.family? context = some family ∧
      (Work.start operation *> seedModels models).perform (s.callOn v family 0) v.database =
        (.ok (), writes) ∧
      s.take (.transaction handle context operation models inner cancel failure) =
        ((s.holding n v (holdOf models)).takeAll inner).2.conclude n
          (context.bind (s.holding n v (holdOf models)).contexts.number?) operation cancel failure
          v.database writes ((s.holding n v (holdOf models)).takeAll inner).1 := by
  cases hhandle : s.volume? handle with
  | none => exact .inl ⟨.unknownName, nofun, by rw [take, hhandle]⟩
  | some nv =>
    obtain ⟨n, v⟩ := nv
    cases hfamily : s.family? context with
    | none => exact .inl ⟨.unknownName, nofun, by rw [take, hhandle, hfamily]⟩
    | some family =>
      rcases s.begin_cases n v family operation (seedModels models) (holdOf models) with
        ⟨e, hbegin⟩ | ⟨writes, hwrites, hbegin⟩
      · exact .inl ⟨.rolledBack e [], nofun, take_transaction_of_error hhandle hfamily hbegin ..⟩
      · exact .inr ⟨n, v, family, writes, rfl, rfl, hwrites,
          take_transaction_of_ok hhandle hfamily hbegin ..⟩

/-- Taking one more step. -/
theorem takeAll_concat (s : Session) (steps : List Step) (step : Step) :
    (s.takeAll (steps ++ [step])).2 = ((s.takeAll steps).2.take step).2 := by
  induction steps generalizing s with
  | nil => rfl
  | cons _ steps ih => exact ih _

/-- Nothing has happened to the databases. -/
structure Waits (s s' : Session) : Prop where
  config : s'.config = s.config
  volumes : s'.volumes = s.volumes
  onFile : s'.OnFile

theorem Waits.get? (h : s.Waits s') (hv : s.volumes.get? n = some v) :
    s'.volumes.get? n = some v :=
  h.volumes ▸ hv

namespace OnFile

variable (h : s.OnFile)

include h

theorem waits_self : s.Waits s := ⟨rfl, rfl, h⟩

theorem waits_of_handles_eq (hconfig : s'.config = s.config) (hvolumes : s'.volumes = s.volumes)
    (hhandles : s'.handles = s.handles) : s.Waits s' :=
  ⟨hconfig, hvolumes, h.of_handles_eq hconfig hhandles fun v hv => ⟨v, hvolumes ▸ hv⟩⟩

theorem waits_changeContexts (contexts : Option Contexts) :
    s.Waits (s.changeContexts contexts).2 := by
  cases contexts with
  | none => exact h.waits_self
  | some contexts => exact h.waits_of_handles_eq rfl rfl rfl

variable (hv : s.volumes.get? 0 = some v) (hlocked : v.locked = true)

include hv

/-- What is done with the database of a handle changes nothing if it changes nothing there. -/
theorem waits_onVolume {handle : String} {f : Nat → Volume → Outcome × Session}
    (hf : s.Waits (f 0 v).2) : s.Waits (s.onVolume handle f).2 := by
  rw [onVolume]
  cases hhandle : s.volume? handle with
  | none => exact h.waits_self
  | some nv =>
    obtain ⟨n, v'⟩ := nv
    obtain ⟨rfl, hv'⟩ := h.of_volume? hhandle
    obtain rfl := Option.some.inj (hv.symm.trans hv')
    exact hf

include hlocked

theorem waits_open (handle : String) : s.Waits (s.open handle).2 := by
  rcases h.open_cases handle with ⟨e, -, hopen⟩ | ⟨writing, v', hmigrate, hopen⟩ <;> rw [hopen]
  · exact ⟨rfl, rfl, h.closed handle⟩
  · rw [h.kept_of_get? hv] at hmigrate
    obtain rfl := eq_of_migrate_of_locked hlocked hmigrate
    exact ⟨rfl, Table.insert_eq_self hv, h.opened handle _⟩

theorem waits_migrate : s.Waits (s.migrate 0 v).2 := by
  rw [Session.migrate]
  cases hmigrate : s.schemaVersion v *> v.migrate .free with
  | error e => exact h.waits_self
  | ok v' =>
    obtain ⟨_, -, hmigrate⟩ := exists_of_bind_eq_ok hmigrate
    obtain rfl := eq_of_migrate_of_locked hlocked hmigrate
    simp only [putVolume_eq_self hv]
    exact h.waits_self

/-- A call changes nothing, since it stalls or only reads. -/
theorem waits_callThrough (handle : String) (context : Option String) (entropy : Nat)
    (operation : Operation) : s.Waits (s.callThrough handle context entropy operation).2 := by
  refine h.waits_onVolume hv ?_
  cases s.family? context with
  | none => exact h.waits_self
  | some family =>
    have hself : (s.call 0 v family entropy operation.run).2 = s := by
      cases hread : operation.isRead with
      | true => exact call_eq_self hv (Operation.fixes_of_isRead hread _ _)
      | false => exact call_eq_self_of_stalls (Operation.stalls_run hread) hv hlocked family entropy
    simp only [hself]
    exact h.waits_self

theorem waits_changeFaults (handle : String) (f : List Fault → List Fault) :
    s.Waits (s.changeFaults handle f).2 := by
  refine h.waits_onVolume hv ?_
  rw [if_pos hlocked]
  exact h.waits_self

/-- **A step taken while a unit of work is open changes no database.** A unit of work among them
does not begin, so it takes no steps of its own. -/
theorem waits_take (step : Step) : s.Waits (s.take step).2 := by
  cases step with
  | setClock | advance | newContext => exact h.waits_of_handles_eq rfl rfl rfl
  | readClock => exact h.waits_self
  | cloneContext name source => exact h.waits_changeContexts _
  | cancelContext name => exact h.waits_changeContexts _
  | inspectContext name =>
    rw [take]
    cases s.contexts.family? name <;> exact h.waits_self
  | checkContext name operation =>
    rw [take]
    cases s.contexts.family? name <;> exact h.waits_self
  | openHandle handle =>
    rw [take_openHandle_snd]
    exact h.waits_open hv hlocked handle
  | readSchema handle => exact h.waits_onVolume hv h.waits_self
  | migrate handle => exact h.waits_onVolume hv (h.waits_migrate hv hlocked)
  | readConfig handle => exact h.waits_onVolume hv h.waits_self
  | call handle context entropy operation =>
    cases operation with
    | error violation => exact h.waits_self
    | ok operation => exact h.waits_callThrough hv hlocked handle context entropy operation
  | adjust handle a =>
    refine h.waits_onVolume hv ?_
    have hstalls : a.run.Stalls := Work.stalls_transact Adjustment.name a.statement
    change s.Waits (s.call 0 v .background 0 a.run).2
    rw [call_eq_self_of_stalls hstalls hv hlocked]
    exact h.waits_self
  | setFault handle fault => exact h.waits_changeFaults hv hlocked handle _
  | clearFault handle kind table => exact h.waits_changeFaults hv hlocked handle _
  | listRows handle table =>
    refine h.waits_onVolume hv ?_
    have hstalls : (rows table).Stalls := Work.stalls_transact _ _
    change s.Waits (s.call 0 v .background 0 (rows table)).2
    rw [call_eq_self_of_stalls hstalls hv hlocked]
    exact h.waits_self
  | transaction handle context operation models inner cancel failure =>
    rcases s.take_transaction_cases handle context operation models inner cancel failure with
      ⟨outcome, -, htake⟩ | ⟨n, v', family, writes, hhandle, -, hwrites, -⟩
    · rw [htake]
      exact h.waits_self
    · obtain ⟨-, hv'⟩ := h.of_volume? hhandle
      obtain rfl := Option.some.inj (hv.symm.trans hv')
      obtain ⟨e, he⟩ := exists_error_of_locked hlocked family operation (seedModels models)
      cases he.symm.trans hwrites

/-- **Steps taken while a unit of work is open change no database.** -/
theorem waits_takeAll (steps : List Step) : s.Waits (s.takeAll steps).2 := by
  induction steps generalizing s with
  | nil => exact h.waits_self
  | cons step steps ih =>
    have hstep := h.waits_take hv hlocked step
    have hrest := ih hstep.onFile (hstep.volumes ▸ hv)
    exact ⟨hrest.config.trans hstep.config, hrest.volumes.trans hstep.volumes, hrest.onFile⟩

end OnFile

/-! ### While no unit of work is open -/

/-- The session is on a file, and no unit of work is open. -/
structure Idle (s : Session) (config : Config) : Prop where
  config : s.config = config
  onFile : s.OnFile
  free : ∀ v, s.volumes.get? 0 = some v → v.held = none

theorem idle_start {config : Config} {path : List UInt8} {access : Access}
    (h : Location.ofPath? config.path = some (.file path access)) (surroundings : FileTree)
    (wall : Int) : (start config surroundings wall).Idle config :=
  ⟨rfl, onFile_start h surroundings wall, fun _ h => nomatch h⟩

/-- What ending a unit of work makes of its database. -/
theorem volumes_finish {u : Volume} (h : s'.volumes = s.volumes.insert n u)
    (writes : Option Database) :
    (s'.finish n writes).volumes =
      s.volumes.insert n { u with database := writes.getD u.database, held := none } := by
  have hu : s'.volumes.get? n = some u := h ▸ Table.get?_insert_self ..
  rw [finish, Table.update_of_get? hu, h, Table.insert_insert]

/-- A unit of work commits if nobody else has written. -/
theorem commit_of_get? (hv : s.volumes.get? n = some v) (operation : String) (writes : Database) :
    s.commit n operation v.database writes = (.ok (), s.finish n (some writes)) := by
  have hsame : (s.volumes.get? n).all (fun u => u.database = v.database) = true := by
    rw [hv]
    exact decide_eq_true rfl
  rw [commit, hsame, Bool.or_true]
  rfl

/-- A unit of work that has written does not commit in a file where others have written. -/
theorem OnFile.commit_of_changed (h : s.OnFile) (hv : s.volumes.get? n = some v)
    {before writes : Database} (hothers : v.database ≠ before) (hwrites : writes ≠ before)
    (operation : String) :
    s.commit n operation before writes =
      (.error (.commitFailed operation), s.finish n none) := by
  obtain ⟨path, access, hfile⟩ := h.location
  have hchanged : (s.volumes.get? n).all (fun u => u.database = before) = false := by
    rw [hv]
    exact decide_eq_false hothers
  rw [commit, inMemory, hfile, hchanged, if_neg hwrites]
  rfl

/-- A unit of work is closed, whether it commits or not. -/
theorem commit_cases (s : Session) (n : Nat) (operation : String) (before writes : Database) :
    ∃ result writes', s.commit n operation before writes = (result, s.finish n writes') := by
  rw [commit]
  split
  · exact ⟨_, _, rfl⟩
  · split
    · exact ⟨_, _, rfl⟩
    · exact ⟨_, _, rfl⟩

/-- A unit of work that cancels its own context changes no database and no handle. -/
theorem cancel_eq (s : Session) (own : Option Nat) (cancel : Bool) :
    (if cancel then s.cancelOwn own else s).config = s.config ∧
      (if cancel then s.cancelOwn own else s).volumes = s.volumes ∧
      (if cancel then s.cancelOwn own else s).handles = s.handles := by
  cases cancel <;> cases own <;> exact ⟨rfl, rfl, rfl⟩

/-- A unit of work is closed when it ends. -/
theorem conclude_cases (s : Session) (n : Nat) (own : Option Nat) (operation : String)
    (cancel : Bool) (failure : Option StoreError) (before writes : Database)
    (inner : List Outcome) :
    ∃ writes', (s.conclude n own operation cancel failure before writes inner).2 =
      (if cancel then s.cancelOwn own else s).finish n writes' := by
  rw [conclude]
  cases (if cancel then s.cancelOwn own else s).verdict own operation cancel failure with
  | error e => exact ⟨none, rfl⟩
  | ok _ =>
    obtain ⟨result, writes', hcommit⟩ :=
      commit_cases (if cancel then s.cancelOwn own else s) n operation before writes
    simp only [hcommit]
    cases result <;> exact ⟨writes', rfl⟩

/-- The volumes of a session whose open unit of work may cancel its own context. -/
theorem get?_cancel (hv : s.volumes.get? n = some v) (own : Option Nat) (cancel : Bool) :
    (if cancel then s.cancelOwn own else s).volumes.get? n = some v := by
  rw [(s.cancel_eq own cancel).2.1, hv]

/-- If nobody else has written, a unit of work commits its writes, or it leaves nothing. -/
theorem conclude_of_get? (hv : s.volumes.get? n = some v) (own : Option Nat) (operation : String)
    (cancel : Bool) (failure : Option StoreError) (writes : Database) (inner : List Outcome) :
    s.conclude n own operation cancel failure v.database writes inner =
        (.committed inner, (if cancel then s.cancelOwn own else s).finish n (some writes)) ∨
      ∃ e, s.conclude n own operation cancel failure v.database writes inner =
        (.rolledBack e inner, (if cancel then s.cancelOwn own else s).finish n none) := by
  rw [conclude]
  cases (if cancel then s.cancelOwn own else s).verdict own operation cancel failure with
  | error e => exact .inr ⟨e, rfl⟩
  | ok _ => exact .inl (by simp only [commit_of_get? (get?_cancel hv own cancel)])

/-- Closing a unit of work leaves the lock free. -/
theorem OnFile.idle_finish (h : s.OnFile) (writes : Option Database) :
    (s.finish 0 writes).Idle s.config := by
  have hget : (s.finish 0 writes).volumes.get? 0 =
      (s.volumes.get? 0).map fun v =>
        { v with database := writes.getD v.database, held := none } :=
    Table.get?_update_self ..
  refine ⟨rfl, h.of_handles_eq rfl rfl fun v hv => ⟨_, by rw [hget, hv]; rfl⟩, fun v hv => ?_⟩
  rw [hget] at hv
  obtain ⟨_, -, rfl⟩ := Option.map_eq_some_iff.mp hv
  rfl

/-- The end of a unit of work leaves the lock free. -/
theorem OnFile.idle_conclude (h : s.OnFile) (own : Option Nat) (operation : String) (cancel : Bool)
    (failure : Option StoreError) (before writes : Database) (inner : List Outcome) :
    (s.conclude 0 own operation cancel failure before writes inner).2.Idle s.config := by
  obtain ⟨hconfig, hvolumes, hhandles⟩ := s.cancel_eq own cancel
  have honFile := h.of_handles_eq hconfig hhandles fun v hv => ⟨v, hvolumes ▸ hv⟩
  obtain ⟨writes', hend⟩ := conclude_cases s 0 own operation cancel failure before writes inner
  rw [hend, ← hconfig]
  exact honFile.idle_finish writes'

namespace Idle

variable {config : Config} (h : s.Idle config)

include h

/-- Contexts may change, and the database in the file, as long as the lock is free. -/
theorem of_handles_eq (hconfig : s'.config = s.config) (hhandles : s'.handles = s.handles)
    (hvolumes : s'.volumes = s.volumes ∨
      ∃ v, v.held = none ∧ s'.volumes = s.volumes.insert 0 v) : s'.Idle config := by
  rcases hvolumes with hvolumes | ⟨v, hfree, hvolumes⟩
  · exact ⟨hconfig.trans h.config, h.onFile.of_handles_eq hconfig hhandles
      fun v hv => ⟨v, hvolumes ▸ hv⟩, fun v hv => h.free v (hvolumes ▸ hv)⟩
  · have hv : s'.volumes.get? 0 = some v := hvolumes ▸ Table.get?_insert_self ..
    refine ⟨hconfig.trans h.config, h.onFile.of_handles_eq hconfig hhandles
      fun _ _ => ⟨v, hv⟩, fun v' hv' => ?_⟩
    rwa [← Option.some.inj (hv.symm.trans hv')]

theorem putVolume (hfree : v.held = none) : (s.putVolume 0 v).Idle config :=
  h.of_handles_eq rfl rfl (.inr ⟨v, hfree, rfl⟩)

theorem onVolume {handle : String} {f : Nat → Volume → Outcome × Session}
    (hf : ∀ v, s.volumes.get? 0 = some v → (f 0 v).2.Idle config) :
    (s.onVolume handle f).2.Idle config := by
  rw [Session.onVolume]
  cases hhandle : s.volume? handle with
  | none => exact h
  | some nv =>
    obtain ⟨n, v⟩ := nv
    obtain ⟨rfl, hv⟩ := h.onFile.of_volume? hhandle
    exact hf v hv

theorem kept_free : (s.kept 0).held = none := by
  rw [h.onFile.kept_eq]
  cases hv : s.volumes.get? 0 with
  | none => rfl
  | some v => exact h.free v hv

theorem call {α : Type} (hfree : v.held = none) (family : Family) (entropy : Nat) (w : Work α) :
    (s.call 0 v family entropy w).2.Idle config :=
  h.putVolume hfree

theorem changeContexts (contexts : Option Contexts) :
    (s.changeContexts contexts).2.Idle config := by
  cases contexts with
  | none => exact h
  | some contexts => exact h.of_handles_eq rfl rfl (.inl rfl)

theorem changeFaults (handle : String) (f : List Fault → List Fault) :
    (s.changeFaults handle f).2.Idle config := by
  refine h.onVolume fun v hv => ?_
  split
  · exact h
  · exact h.putVolume (h.free v hv)

theorem closed (handle : String) : (s.closed handle).Idle config :=
  ⟨h.config, h.onFile.closed handle, h.free⟩

theorem «open» (handle : String) : (s.open handle).2.Idle config := by
  rcases h.onFile.open_cases handle with ⟨e, -, hopen⟩ | ⟨writing, v, hmigrate, hopen⟩ <;>
    rw [hopen]
  · exact h.closed handle
  · obtain ⟨-, -, rfl⟩ := Volume.migrate_eq_ok_iff.mp hmigrate
    refine ⟨h.config, h.onFile.opened handle _, fun v hv => ?_⟩
    obtain rfl := Option.some.inj ((Table.get?_insert_self ..).symm.trans hv)
    exact h.kept_free

theorem migrate (hv : s.volumes.get? 0 = some v) : (s.migrate 0 v).2.Idle config := by
  rw [Session.migrate]
  cases hmigrate : s.schemaVersion v *> v.migrate .free with
  | error e => exact h
  | ok v' =>
    obtain ⟨_, -, hmigrate⟩ := exists_of_bind_eq_ok hmigrate
    obtain ⟨-, -, rfl⟩ := Volume.migrate_eq_ok_iff.mp hmigrate
    exact h.putVolume (h.free v hv)

/-- **A unit of work commits its writes or leaves nothing**, whatever steps it holds, if others are
locked out. -/
theorem take_transaction (hlocks : s.isolation ≠ .unlocked) {handle : String}
    {context : Option String} {operation : String} {models : List String} {inner : List Step}
    {cancel : Bool} {failure : Option StoreError} {outcome : Outcome}
    (hstep : s.take (.transaction handle context operation models inner cancel failure) =
      (outcome, s')) :
    (∃ v family writes inner', s.volumes.get? 0 = some v ∧ s.family? context = some family ∧
        (Work.start operation *> seedModels models).perform (s.callOn v family 0) v.database =
          (.ok (), writes) ∧
        outcome = .committed inner' ∧
        s'.volumes = s.volumes.insert 0 { v with database := writes }) ∨
      (∀ inner', outcome ≠ .committed inner') ∧ s'.volumes = s.volumes := by
  rcases s.take_transaction_cases handle context operation models inner cancel failure with
    ⟨outcome', hnever, htake⟩ | ⟨n, v, family, writes, hhandle, hfamily, hwrites, htake⟩
  · cases hstep.symm.trans htake
    exact .inr ⟨hnever, rfl⟩
  · obtain ⟨rfl, hv⟩ := h.onFile.of_volume? hhandle
    rw [holding_of_ne_unlocked hlocks] at htake
    have hwaits := (h.onFile.putVolume { v with held := some (holdOf models) }).waits_takeAll
      (Table.get?_insert_self ..) rfl inner
    have hvolumes (own : Option Nat) := (cancel_eq _ own cancel).2.1.trans hwaits.volumes
    have hfree := h.free v hv
    rcases conclude_of_get? (hwaits.get? (Table.get?_insert_self ..)) _ operation cancel failure
      writes _ with hend | ⟨e, hend⟩
    · cases (hstep.symm.trans htake).trans hend
      refine .inl ⟨v, family, writes, _, hv, hfamily, hwrites, rfl, ?_⟩
      rw [volumes_finish (hvolumes _), ← hfree]
      rfl
    · cases (hstep.symm.trans htake).trans hend
      refine .inr ⟨nofun, ?_⟩
      rw [volumes_finish (hvolumes _), ← hfree]
      exact Table.insert_eq_self hv

/-- A unit of work leaves the lock free. Where nothing is locked the steps that it holds have to
leave it free; elsewhere they change no database. -/
theorem transaction {inner : List Step} (hinner : (s.takeAll inner).2.Idle config) (handle : String)
    (context : Option String) (operation : String) (models : List String) (cancel : Bool)
    (failure : Option StoreError) :
    (s.take (.transaction handle context operation models inner cancel failure)).2.Idle
      config := by
  rcases s.take_transaction_cases handle context operation models inner cancel failure with
    ⟨outcome, -, htake⟩ | ⟨n, v, family, writes, hhandle, -, -, htake⟩ <;> rw [htake]
  · exact h
  · obtain ⟨rfl, -⟩ := h.onFile.of_volume? hhandle
    by_cases hlocks : s.isolation = .unlocked
    · rw [holding_of_unlocked hlocks]
      exact hinner.config ▸ hinner.onFile.idle_conclude ..
    · rw [holding_of_ne_unlocked hlocks]
      have hwaits := (h.onFile.putVolume { v with held := some (holdOf models) }).waits_takeAll
        (Table.get?_insert_self ..) rfl inner
      exact (hwaits.config.trans h.config) ▸ hwaits.onFile.idle_conclude ..

end Idle

mutual

/-- **A step leaves the lock free.** -/
theorem Idle.take {s : Session} {config : Config} (h : s.Idle config) (step : Step) :
    (s.take step).2.Idle config := by
  cases step with
  | setClock | advance | newContext => exact h.of_handles_eq rfl rfl (.inl rfl)
  | readClock => exact h
  | cloneContext name source => exact h.changeContexts _
  | cancelContext name => exact h.changeContexts _
  | inspectContext name =>
    rw [Session.take]
    cases s.contexts.family? name <;> exact h
  | checkContext name operation =>
    rw [Session.take]
    cases s.contexts.family? name <;> exact h
  | openHandle handle =>
    rw [take_openHandle_snd]
    exact h.open handle
  | readSchema handle => exact h.onVolume fun _ _ => h
  | migrate handle => exact h.onVolume fun v hv => h.migrate hv
  | readConfig handle => exact h.onVolume fun _ _ => h
  | call handle context entropy operation =>
    cases operation with
    | error violation => exact h
    | ok operation =>
      refine h.onVolume fun v hv => ?_
      cases s.family? context with
      | none => exact h
      | some family => exact h.call (h.free v hv) family entropy operation.run
  | adjust handle a => exact h.onVolume fun v hv => h.call (h.free v hv) .background 0 a.run
  | setFault handle fault => exact h.changeFaults handle _
  | clearFault handle kind table => exact h.changeFaults handle _
  | listRows handle table =>
    exact h.onVolume fun v hv => h.call (h.free v hv) .background 0 (rows table)
  | transaction handle context operation models inner cancel failure =>
    exact h.transaction (h.takeAll inner) handle context operation models cancel failure

/-- Steps leave the lock free. -/
theorem Idle.takeAll {s : Session} {config : Config} (h : s.Idle config) (steps : List Step) :
    (s.takeAll steps).2.Idle config := by
  cases steps with
  | nil => exact h
  | cons step steps => exact (h.take step).takeAll steps

end

end Session

end RunLedger
