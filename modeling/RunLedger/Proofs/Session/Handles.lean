import RunLedger.Proofs.Session.Mirror
import RunLedger.Proofs.Session.Reopening

/-!
# Handles keep nothing

On a file it does not matter through which handle an operation is made, nor when handles are closed
and opened again in between, nor when the layout of the tables is looked after: the operations come
to the same, and leave the same. An opening finds the layout up to date or brings it up to date,
also if its version was lowered before. A version that is newer than the newest is refused.

## Main results

* `Session.handles_keep_nothing`: two ways of taking the same operations come to the same, and what
  opening a handle and bringing the layout up to date come to.
-/

namespace RunLedger

open Database

namespace Session

variable {s : Session} {v : Volume}

/-! ### Opening handles and looking after the layout -/

/-- With a valid configuration a file cannot be opened for internal reasons only. -/
theorem OnFile.code_of_openVolume_error (h : s.OnFile) (hvalid : s.config.validate = .ok ())
    {e : StoreError} (hopen : s.openVolume = .error e) : e.code = .internalError := by
  obtain ⟨path, access, hfile⟩ := h.location
  rw [openVolume, hvalid] at hopen
  cases htarget : s.target with
  | error e' =>
    rw [htarget] at hopen
    cases hopen
    exact code_of_target_error hfile htarget
  | ok nw =>
    obtain ⟨n, writing⟩ := nw
    rw [htarget] at hopen
    change (if s.bars (s.kept n) then throw StoreError.statementFailed
      else (s.kept n).migrate writing >>= fun v => pure (n, v)) = .error e at hopen
    split at hopen
    · cases hopen
      rfl
    · cases hmigrate : (s.kept n).migrate writing with
      | error e' =>
        rw [hmigrate] at hopen
        cases hopen
        exact Volume.code_of_migrate_error hmigrate
      | ok v =>
        rw [hmigrate] at hopen
        cases hopen

namespace Idle

variable {config : Config} (h : s.Idle config) (hv : s.volumes.get? 0 = some v)

include h hv

theorem migrate_eq : s.migrate 0 v = match v.migrate .free with
    | .ok v => (.ok (), s.putVolume 0 v)
    | .error e => (.error e, s) := by
  have hversion : s.schemaVersion v = .ok v.database.schemaVersion := by
    rw [schemaVersion, bars_of_free (h.free v hv)]
    rfl
  rw [Session.migrate, hversion]
  rfl

/-- A layout that is not newer than the newest is brought up to date. -/
theorem take_migrate_of_le {handle : String} {n : Nat} (hn : s.handles.get? handle = some n)
    (hversion : v.database.schemaVersion ≤ newestSchema) :
    s.take (.migrate handle) = (.done, s.putVolume 0 (v.withLayout newestSchema)) := by
  obtain rfl := (h.onFile.handle handle n hn).1
  have hmigrate : v.migrate .free = .ok (v.withLayout newestSchema) := by
    refine Volume.migrate_eq_ok_iff.mpr ⟨hversion, fun _ => ⟨?_, rfl⟩, rfl⟩
    rw [Volume.locked, h.free v hv]
    rfl
  rw [Session.take, onVolume_of_get? hn hv, h.migrate_eq hv, hmigrate]
  rfl

/-- A layout that is newer than the newest stays as it is. -/
theorem take_migrate_of_newer {handle : String} {n : Nat} (hn : s.handles.get? handle = some n)
    (hversion : newestSchema < v.database.schemaVersion) :
    s.take (.migrate handle) =
      (.failed (.unsupportedSchema v.database.schemaVersion newestSchema), s) := by
  obtain rfl := (h.onFile.handle handle n hn).1
  rw [Session.take, onVolume_of_get? hn hv, h.migrate_eq hv, Volume.migrate_eq, if_pos hversion]
  rfl

/-- Opening a handle brings the layout up to date, if the file can be opened. -/
theorem take_openHandle_cases (handle : String) :
    (∃ e, (s.closed handle).openVolume = .error e ∧
        s.take (.openHandle handle) = (.failed e, s.closed handle)) ∨
      v.database.schemaVersion ≤ newestSchema ∧
        s.take (.openHandle handle) =
          (.number newestSchema, s.opened handle 0 (v.withLayout newestSchema)) := by
  rw [Session.take]
  rcases h.onFile.open_cases handle with ⟨e, hfailed, hopen⟩ | ⟨writing, v', hmigrate, hopen⟩ <;>
    rw [hopen]
  · exact .inl ⟨e, hfailed, rfl⟩
  · rw [h.onFile.kept_of_get? hv] at hmigrate
    obtain ⟨hversion, -, rfl⟩ := Volume.migrate_eq_ok_iff.mp hmigrate
    let s' := s.opened handle 0 (v.withLayout newestSchema)
    have hn : s'.handles.get? handle = some 0 := Table.get?_insert_self ..
    have hv' : s'.volumes.get? 0 = some (v.withLayout newestSchema) := Table.get?_insert_self ..
    exact .inr ⟨hversion, onVolume_of_get? hn hv' _⟩

end Idle

/-- A session that has just opened a file is what it is with the newest layout. -/
theorem mirrors_of_open_start {config : Config} {path : List UInt8} {access : Access}
    (hfile : Location.ofPath? config.path = some (.file path access)) {surroundings : FileTree}
    {wall : Int} {s₀ : Session}
    (hopen : (start config surroundings wall).open firstHandle = (.ok (), s₀)) :
    ∃ v, (start config surroundings wall).openVolume = .ok (0, v) ∧ s₀.Mirrors s₀ := by
  have hclosed : (start config surroundings wall).closed firstHandle =
      start config surroundings wall := rfl
  rw [open_eq, hclosed] at hopen
  cases hvolume : (start config surroundings wall).openVolume with
  | error e =>
    rw [hvolume] at hopen
    cases hopen
  | ok nv =>
    obtain ⟨n, v⟩ := nv
    obtain ⟨rfl, writing, hmigrate⟩ :=
      (onFile_start hfile surroundings wall).of_openVolume hvolume
    rw [hvolume] at hopen
    cases hopen
    refine ⟨v, rfl, rfl, rfl, Table.get?_insert_self .., v, Table.get?_insert_self .., ?_⟩
    obtain rfl := eq_withLayout_of_migrate hmigrate
    exact Table.get?_insert_self ..

/-- **Handles keep nothing.** Let the first handle be opened on a file. Then let operations be made
one after the other, in two ways that differ in the handles they are made through, in when handles
are opened again and the layout is brought up to date, and in when its version is set from outside.
If all handles are open when they are used, the operations come to the same, and leave the same but
for the version of the layout.

After any steps, a version that is not newer than the newest is the newest again when a handle is
opened or the layout is brought up to date, and all else stays. A version that is newer makes both
fail, and then nothing changes. -/
theorem handles_keep_nothing {config : Config} {path : List UInt8} {access : Access}
    (hfile : Location.ofPath? config.path = some (.file path access)) {surroundings : FileTree}
    {wall : Int} {s₀ : Session}
    (hopen : (start config surroundings wall).open firstHandle = (.ok (), s₀)) :
    (∀ steps steps' : List Step,
      steps.all Step.isSequential = true → steps'.all Step.isSequential = true →
      s₀.servesAll steps = true → s₀.servesAll steps' = true →
      Step.operations steps = Step.operations steps' →
      s₀.answers steps = s₀.answers steps' ∧
        ∃ v v', (s₀.takeAll steps).2.volumes.get? 0 = some v ∧
          (s₀.takeAll steps').2.volumes.get? 0 = some v' ∧
          v.withLayout newestSchema = v'.withLayout newestSchema) ∧
    ∀ steps,
      let s := (s₀.takeAll steps).2
      ∀ v handle, s.volumes.get? 0 = some v →
        (v.database.schemaVersion ≤ newestSchema →
          (s.take (.openHandle handle) =
              (.number newestSchema, s.opened handle 0 (v.withLayout newestSchema)) ∨
            ¬surroundings.HasRoom path ∧
              ∃ e, s.take (.openHandle handle) = (.failed e, s.closed handle)) ∧
          ∀ n, s.handles.get? handle = some n →
            s.take (.migrate handle) = (.done, s.putVolume 0 (v.withLayout newestSchema))) ∧
        (newestSchema < v.database.schemaVersion →
          (∃ e, e.code = .internalError ∧
            s.take (.openHandle handle) = (.failed e, s.closed handle)) ∧
          ∀ n, s.handles.get? handle = some n →
            ∃ e, e.code = .internalError ∧ s.take (.migrate handle) = (.failed e, s)) := by
  have hstart : s₀ = ((start config surroundings wall).open firstHandle).2 := by rw [hopen]
  have hidle : s₀.Idle config := hstart ▸ (idle_start hfile surroundings wall).open firstHandle
  have hsettings : s₀.settings = (config, surroundings) := hstart ▸ settings_open firstHandle
  obtain ⟨v₀, hvolume, hmirrors⟩ := mirrors_of_open_start hfile hopen
  refine ⟨fun steps steps' hsteps hsteps' hserves hserves' hsame => ?_, fun steps => ?_⟩
  · obtain ⟨hanswers, hleft⟩ := hmirrors.takeAll hidle hsteps hserves
    obtain ⟨hanswers', hleft'⟩ := hmirrors.takeAll hidle hsteps' hserves'
    rw [← hsame] at hanswers' hleft'
    obtain ⟨v, hv, hmirror⟩ := hleft.volume
    obtain ⟨v', hv', hmirror'⟩ := hleft'.volume
    exact ⟨hanswers.symm.trans hanswers', v, v', hv, hv',
      Option.some.inj (hmirror.symm.trans hmirror')⟩
  · intro s v handle hv
    have hidle : s.Idle config := hidle.takeAll steps
    have hsettings : s.settings = (config, surroundings) :=
      (settings_takeAll s₀ steps).trans hsettings
    have hclosed := hidle.closed handle
    refine ⟨fun hversion => ⟨?_, fun n hn => hidle.take_migrate_of_le hv hn hversion⟩,
      fun hversion => ⟨?_, fun n hn =>
        ⟨_, rfl, hidle.take_migrate_of_newer hv hn hversion⟩⟩⟩
    · rcases hidle.take_openHandle_cases hv handle with ⟨e, hopen, hfailed⟩ | ⟨-, hopened⟩
      · refine .inr ⟨fun hroom => ?_, e, hfailed⟩
        have hagain := openVolume_again hfile hroom (s := s.closed handle) hsettings hvolume
          hclosed (by rwa [hclosed.onFile.kept_of_get? hv])
        cases hopen.symm.trans hagain
      · exact .inl hopened
    · rcases hidle.take_openHandle_cases hv handle with ⟨e, hopen, hfailed⟩ | ⟨hle, -⟩
      · have hvalid := hclosed.config ▸ (openVolume_eq_ok_iff.mp hvolume).1
        exact ⟨e, hclosed.onFile.code_of_openVolume_error hvalid hopen, hfailed⟩
      · exact absurd hle (not_le.mpr hversion)

/-! ### A file that is opened again -/

/-- A session that has just opened a new file. -/
private def newFile : Session := ((start (.atPath "m.db") (.bare []) 0).open firstHandle).2

/-- A model is created, and it is read through another handle after the version of the layout was
lowered and the first handle was opened again. -/
private def withReopening : List Step :=
  [.call "a" none 0 (.ok (.createModel "m" none [])), .openHandle "b",
    .adjust "b" (.schemaVersion 1), .openHandle "a", .call "b" none 0 (.ok (.getModel "m")),
    .readSchema "a"]

/-- A model is created and read. -/
private def withoutReopening : List Step :=
  [.call "a" none 0 (.ok (.createModel "m" none [])), .call "a" none 0 (.ok (.getModel "m")),
    .readSchema "a"]

private theorem hasRoom_newFile : (FileTree.bare []).HasRoom (Text.bytes "m.db") where
  free node hnode := by
    have hnone : (FileTree.bare []).node? (Place.ofPath [] (Text.bytes "m.db")) = none := by
      decide +kernel
    cases hnone.symm.trans hnode
  beside c := by cases c <;> decide +kernel
  named := by decide +kernel

private theorem open_newFile :
    (start (.atPath "m.db") (.bare []) 0).open firstHandle = (.ok (), newFile) := by
  have hok : ((start (.atPath "m.db") (.bare []) 0).open firstHandle).1.toOption = some () := by
    decide +kernel
  refine Prod.ext ?_ rfl
  cases hopen : ((start (.atPath "m.db") (.bare []) 0).open firstHandle).1 with
  | error e =>
    rw [hopen] at hok
    cases hok
  | ok _ => rfl

/-- The model is read whether or not handles are opened again. The version is the newest again when
the handle is opened, and an opening fails if it was raised. -/
theorem handles_keep_nothing_reopened :
    let lowered := (newFile.takeAll (withReopening.take 3)).2
    let raised := (newFile.takeAll [.adjust "a" (.schemaVersion 3)]).2
    newFile.answers withReopening = newFile.answers withoutReopening ∧
      (lowered.volumes.get? 0).map (·.database.schemaVersion) = some 1 ∧
      (lowered.take (.openHandle "a")).1 = .number newestSchema ∧
      (raised.volumes.get? 0).map (·.database.schemaVersion) = some 3 ∧
      ∃ e, e.code = .internalError ∧ (raised.take (.openHandle "a")).1 = .failed e := by
  have hfile : Location.ofPath? (Config.atPath "m.db").path =
      some (.file (Text.bytes "m.db") .plain) := by
    decide +kernel
  obtain ⟨hanswers, hversions⟩ := handles_keep_nothing hfile open_newFile
  intro lowered raised
  have hlowered : (lowered.volumes.get? 0).map (·.database.schemaVersion) = some 1 := by
    decide +kernel
  have hraised : (raised.volumes.get? 0).map (·.database.schemaVersion) = some 3 := by
    decide +kernel
  refine ⟨(hanswers withReopening withoutReopening ?_ ?_ ?_ ?_ rfl).1, hlowered, ?_, hraised, ?_⟩
  · decide +kernel
  · decide +kernel
  · decide +kernel
  · decide +kernel
  · obtain ⟨v, hv, hversion⟩ := Option.map_eq_some_iff.mp hlowered
    have hle : v.database.schemaVersion ≤ newestSchema := hversion.symm ▸ by decide
    rcases ((hversions (withReopening.take 3) v "a" hv).1 hle).1 with hopened | ⟨hroom, -⟩
    · exact congrArg Prod.fst hopened
    · exact absurd hasRoom_newFile hroom
  · obtain ⟨v, hv, hversion⟩ := Option.map_eq_some_iff.mp hraised
    have hlt : newestSchema < v.database.schemaVersion := hversion.symm ▸ by decide
    obtain ⟨e, hcode, hfailed⟩ := ((hversions _ v "a" hv).2 hlt).1
    exact ⟨e, hcode, congrArg Prod.fst hfailed⟩

end Session

end RunLedger
