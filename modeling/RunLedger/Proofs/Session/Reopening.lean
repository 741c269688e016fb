import RunLedger.Proofs.Session.OnFile

/-!
# Opening a file again

Whoever could open a database in a new file can open it again, whatever is stored in it by then: the
path still names the file, it is still the only file there, and what kept its journal before can
keep it again.

## Main definitions

* `FileTree.HasRoom`: there is room for a new database under a path.
* `Disk.fresh`: a file that has just been opened, with nothing beside it.

## Main results

* `Disk.enter_again`: a database that was opened for writing in a new file can be so again.
* `Session.settings_take`: no step changes the configuration or what is around the file.
* `Session.openVolume_again`: opening a handle succeeds.
-/

namespace RunLedger

/-! ### Walking among more files -/

namespace Landscape

/-- What can be walked can be walked when more is there. -/
theorem walk_of_le {l l' : Landscape} (h : ∀ p entry, l p = some entry → l' p = some entry)
    {p q : Place} {parts : List Name} (hwalk : l.walk p parts = .ok q) :
    l'.walk p parts = .ok q := by
  have hentry {p : Place} {entry : Entry} (he : l.entry? p = some entry) :
      l'.entry? p = some entry := by
    unfold entry? at he ⊢
    split at he
    · next hp => rwa [if_pos hp]
    · next hp => rw [if_neg hp, h p entry he]
  fun_induction l.walk p parts with
  | case1 | case3 | case4 => cases hwalk
  | case2 p entry he =>
    rw [walk.eq_def, hentry he]
    exact hwalk
  | case5 p part rest he hlength ih =>
    rw [walk.eq_def, hentry he]
    simp only [if_neg hlength]
    exact ih hwalk

end Landscape

namespace FileTree

variable {t : FileTree} {p : Place}

theorem node?_insert_self (t : FileTree) (p : Place) (node : Node) :
    (t.insert p node).node? p = some node :=
  Table.get?_insert_self ..

theorem node?_insert_of_ne (t : FileTree) {q : Place} (h : q ≠ p) (node : Node) :
    (t.insert p node).node? q = t.node? q :=
  Table.get?_insert_of_ne _ h _

/-- What is where does not depend on what files hold. -/
theorem landscape_insert_file (t : FileTree) (p : Place) (content other : Content) :
    (t.insert p (.file content)).landscape = (t.insert p (.file other)).landscape := by
  funext q
  rw [landscape, landscape]
  by_cases hq : q = p
  · subst hq
    rw [node?_insert_self, node?_insert_self]
    rfl
  · rw [node?_insert_of_ne t hq, node?_insert_of_ne t hq]

/-- What is found is found when a new file is there, also in the place of another file. -/
theorem find_insert {content content' : Content}
    (h : ∀ node, t.node? p = some node → node = .file content) {path : List UInt8} {q : Place}
    (hfind : t.find path = .ok q) : (t.insert p (.file content')).find path = .ok q := by
  rw [find, Landscape.find] at hfind ⊢
  split at hfind
  · cases hfind
  · next hempty =>
    split at hfind
    · cases hfind
    · next hlong =>
      rw [if_neg hempty, if_neg hlong]
      refine Landscape.walk_of_le (fun r entry hr => ?_) hfind
      rw [landscape] at hr ⊢
      by_cases hrp : r = p
      · subst hrp
        obtain ⟨node, hnode, rfl⟩ := Option.map_eq_some_iff.mp hr
        rw [node?_insert_self, h node hnode]
        rfl
      · rwa [node?_insert_of_ne t hrp]

/-- There is room for a new database at the place that a path names: nothing is there but perhaps an
empty file, nothing is beside it, and the path still names the place when the file is there. -/
structure HasRoom (t : FileTree) (path : List UInt8) : Prop where
  free : ∀ node, t.node? (Place.ofPath t.directory path) = some node → node = .file .nothing
  beside : ∀ c : Companion, t.node? (c.place (Place.ofPath t.directory path)) = none
  named : (t.insert (Place.ofPath t.directory path) (.file .nothing)).fileNamed? path =
    some (Place.ofPath t.directory path)

theorem eq_ofPath_of_fileNamed? {path : List UInt8} (h : t.fileNamed? path = some p) :
    p = Place.ofPath t.directory path ∧ p ≠ [] := by
  rw [fileNamed?, Landscape.fileNamed?] at h
  split at h
  · next hroom =>
    obtain rfl := Option.some.inj h
    refine ⟨rfl, fun hp => ?_⟩
    simp [hp, Landscape.entry?] at hroom
  · cases h

end FileTree

/-! ### What is beside a file -/

namespace Companion

/-- A companion has the name of the file, with its own ending. -/
theorem place_concat (c : Companion) (p : Place) (name : Name) :
    c.place (p ++ [name]) = p ++ [name ++ Text.bytes c.ending] := by
  rw [place, List.dropLast_concat, List.getLast?_concat]
  rfl

theorem place_ne (c : Companion) {p : Place} (hp : p ≠ []) : c.place p ≠ p := by
  obtain ⟨q, name, rfl⟩ := List.eq_nil_or_concat' p |>.resolve_left hp
  rw [place_concat]
  intro h
  have hending := List.append_right_eq_self.mp (List.singleton_inj.mp (List.append_cancel_left h))
  cases c <;> exact absurd hending (by decide +kernel)

theorem place_index_ne_place_log {p : Place} (hp : p ≠ []) : index.place p ≠ log.place p := by
  obtain ⟨q, name, rfl⟩ := List.eq_nil_or_concat' p |>.resolve_left hp
  rw [place_concat, place_concat]
  intro h
  have hending := List.append_cancel_left (List.singleton_inj.mp (List.append_cancel_left h))
  exact absurd hending (by decide +kernel)

end Companion

namespace Disk

variable {t : FileTree} {p : Place} {access : Access} {mode : JournalMode}

/-- A file that has just been opened. -/
def fresh (t : FileTree) (p : Place) (access : Access) (content : Content) : Disk where
  files := t.insert p (.file content)
  place := p
  access
  log := .closed

theorem content_fresh (t : FileTree) (p : Place) (access : Access) (content : Content) :
    (fresh t p access content).content = content := by
  have hnode : (fresh t p access content).files.node? (fresh t p access content).place =
      some (.file content) :=
    FileTree.node?_insert_self ..
  rw [Disk.content, FileTree.content?, hnode]
  rfl

theorem writing_fresh (t : FileTree) (p : Place) (access : Access) (content : Content) :
    (fresh t p access content).writing =
      if access.canWrite && (fresh t p access content).canHave .journal then .free
      else .refused := by
  rw [writing]
  change (if !access.canWrite then _ else
    if (fresh t p access content).canHave .journal then _ else _) = _
  cases access.canWrite <;> rfl

/-- The mode is changed only to a log. -/
theorem changeMode_fresh (t : FileTree) (p : Place) (access : Access) (content : Content)
    (mode : JournalMode) :
    (fresh t p access content).changeMode mode =
      if access.canLog = true ∧ mode = .wal then (fresh t p access content).takeLog
      else .ok (fresh t p access content) := by
  rw [changeMode.eq_def]
  change (if !access.canLog then Except.ok (fresh t p access content) else _) = _
  cases access.canLog <;> cases mode <;> rfl

section Beside

variable (hp : p ≠ []) (hbeside : ∀ c : Companion, t.node? (c.place p) = none)

include hp hbeside

theorem companion?_fresh (access : Access) (content : Content) (c : Companion) :
    (fresh t p access content).companion? c = none :=
  (FileTree.node?_insert_of_ne t (c.place_ne hp) _).trans (hbeside c)

theorem canHave_fresh (access : Access) (content other : Content) (c : Companion) :
    (fresh t p access content).canHave c = (fresh t p access other).canHave c := by
  rw [canHave, canHave, companion?_fresh hp hbeside, companion?_fresh hp hbeside]
  rfl

/-- Nothing has to be settled if nothing is beside the file. -/
theorem enter_fresh (access : Access) (content : Content) (mode : JournalMode) :
    (fresh t p access content).enter mode =
      (fresh t p access content).readFile >>= changeMode mode := by
  have hnone := companion?_fresh hp hbeside access content
  have hhas (c : Companion) : (fresh t p access content).has c = false := by
    rw [has, hnone]
  have hlock : (fresh t p access content).awaitLock = .ok (fresh t p access content) := by
    simp [awaitLock, hnone]
  have hjournal : (fresh t p access content).settleJournal = .ok (fresh t p access content) := by
    simp [settleJournal, hhas]
  have hlog : (fresh t p access content).settleLog = .ok (fresh t p access content) := by
    simp [settleLog, hhas]
  rw [enter, hlock]
  change ((fresh t p access content).settleJournal >>= fun d => settleLog d >>= fun d =>
    readFile d >>= changeMode mode) = _
  rw [hjournal]
  change ((fresh t p access content).settleLog >>= fun d => readFile d >>= changeMode mode) = _
  rw [hlog]
  rfl

/-- A log is opened unless its index would have to be there already. -/
theorem openLog_fresh (content : Content) (hlog : access.canLog = true) :
    (fresh t p access content).openLog =
      let d := (fresh t p access content).put .log .nothing
      if !access.hasIndexFile then .ok { d with log := .writing }
      else if access.fixedIndex then .error { d with log := .noIndex }
      else .ok { d.put .index .binary with log := .writing } := by
  have hindex : ((fresh t p access content).put .log .nothing).companion? .index = none :=
    (FileTree.node?_insert_of_ne _ (Companion.place_index_ne_place_log hp) _).trans
      (companion?_fresh hp hbeside access content .index)
  rw [openLog, companion?_fresh hp hbeside]
  change (if !access.canLog then _ else _) = _
  rw [hlog]
  change ((fresh t p access content).put .log .nothing).openIndex = _
  rw [openIndex, hindex]
  rfl

/-- The file is written anew where it and a journal beside it can be written. -/
theorem replaceContent_fresh (access : Access) (content new : Content) :
    (fresh t p access content).replaceContent new =
      if access.canWrite && (fresh t p access content).canHave .journal then
        .ok (fresh t p access new)
      else .error (fresh t p access content) := by
  have hplace : (fresh t p access content).files.node? (fresh t p access content).place =
      some (.file content) :=
    FileTree.node?_insert_self t p _
  have hjournal : (t.insert p (.file content)).node? (Companion.journal.place p) = none :=
    companion?_fresh hp hbeside access content .journal
  have hremove : (fresh t p access content).remove .journal = fresh t p access content := by
    have hfiles : (t.insert p (.file content)).removeFile (Companion.journal.place p) =
        t.insert p (.file content) := by
      rw [FileTree.removeFile, hjournal]
    exact congrArg (fun files => ({ fresh t p access content with files } : Disk)) hfiles
  have hfill : (fresh t p access content).fill new = fresh t p access new := by
    have hfiles : (t.insert p (.file content)).insert p (.file new) = t.insert p (.file new) :=
      congrArg (fun nodes => ({ t with nodes } : FileTree)) (Table.insert_insert ..)
    exact congrArg (fun files => ({ fresh t p access content with files } : Disk)) hfiles
  rw [replaceContent, hplace, hremove, hfill]
  change (if access.canWrite && (fresh t p access content).canHave .journal && true then _ else _) =
    _
  rw [Bool.and_true]

/-- What it takes to have opened a database for writing in a new file. -/
theorem of_enter_new {d : Disk} (h : (fresh t p access .nothing).enter mode = .ok d)
    (hwriting : d.writing = .free) :
    (access.canWrite && (fresh t p access .nothing).canHave .journal) = true ∧
      (access.canLog = true → mode = .wal →
        (access.hasIndexFile && access.fixedIndex) = false) := by
  have hread : (fresh t p access .nothing).readFile = .ok (fresh t p access .nothing) := by
    rw [readFile, content_fresh]
    rfl
  rw [enter_fresh hp hbeside, hread] at h
  change (fresh t p access .nothing).changeMode mode = .ok d at h
  rw [changeMode_fresh] at h
  split at h
  · next hlog =>
    obtain ⟨d', hd', h⟩ := exists_of_bind_eq_ok h
    rw [replaceContent_fresh hp hbeside] at hd'
    split at hd'
    · next hcan =>
      cases hd'
      refine ⟨hcan, fun _ _ => ?_⟩
      rw [openLog_fresh hp hbeside _ hlog.1] at h
      simp only at h
      split at h
      · next hindex => simp [show access.hasIndexFile = false by simpa using hindex]
      · split at h
        · cases h
        · next hfixed => simp [show access.fixedIndex = false by simpa using hfixed]
    · cases hd'
  · next hlog =>
    cases h
    rw [writing_fresh] at hwriting
    split at hwriting
    · next hcan => exact ⟨hcan, fun h h' => absurd ⟨h, h'⟩ hlog⟩
    · cases hwriting

/-- And that is enough to open it for writing again. -/
theorem enter_again
    (hcan : (access.canWrite && (fresh t p access .nothing).canHave .journal) = true)
    (hindex : access.canLog = true → mode = .wal →
      (access.hasIndexFile && access.fixedIndex) = false) (db : Database) :
    ∃ d, (fresh t p access (.database db (if access.canLog then mode else .delete))).enter mode =
      .ok d ∧ d.writing = .free := by
  let content : Content := .database db (if access.canLog then mode else .delete)
  change ∃ d, (fresh t p access content).enter mode = .ok d ∧ d.writing = .free
  rw [enter_fresh hp hbeside]
  by_cases hlog : access.canLog = true ∧ mode = .wal
  · obtain ⟨hlog, rfl⟩ := hlog
    -- The log is opened as the file is read, so the mode need not be changed.
    have hread : (fresh t p access content).readFile = (fresh t p access content).openLog := by
      rw [readFile, content_fresh]
      simp only [content, hlog, if_true]
      change (if true && true && !access.fixed then _ else _) = _
      have hfixed : access.fixed = false := by
        simp only [Access.canLog, Bool.and_eq_true, Bool.not_eq_true'] at hlog
        exact hlog.1.2
      rw [hfixed]
      rfl
    obtain ⟨d, haccess, hwriting, hopen⟩ : ∃ d : Disk, d.access = access ∧ d.log = .writing ∧
        (fresh t p access content).openLog = .ok d := by
      rw [openLog_fresh hp hbeside content hlog]
      have hindex := hindex hlog rfl
      cases hfile : access.hasIndexFile with
      | false => exact ⟨_, rfl, rfl, rfl⟩
      | true =>
        rw [hfile, Bool.true_and] at hindex
        rw [hindex]
        exact ⟨_, rfl, rfl, rfl⟩
    refine ⟨d, ?_, ?_⟩
    · rw [hread, hopen]
      change d.changeMode .wal = _
      simp only [changeMode.eq_def, haccess, hlog, hwriting]
      rfl
    · rw [writing, haccess, hwriting, (Bool.and_eq_true_iff.mp hcan).1]
      rfl
  · have hread : (fresh t p access content).readFile = .ok (fresh t p access content) := by
      have hmode : content = .database db .delete := by
        simp only [content]
        split
        · next h =>
          cases mode with
          | wal => exact absurd ⟨h, rfl⟩ hlog
          | delete => rfl
        · rfl
      rw [readFile, content_fresh, hmode]
      rfl
    refine ⟨fresh t p access content, ?_, ?_⟩
    · rw [hread]
      change (fresh t p access content).changeMode mode = _
      rw [changeMode_fresh, if_neg hlog]
    · rw [writing_fresh, canHave_fresh hp hbeside access content .nothing, if_pos hcan]

end Beside

end Disk

namespace FileTree.HasRoom

variable {t : FileTree} {path : List UInt8} {access : Access}

/-- The file is empty, and it is created if it is not there. -/
theorem open?_new (hroom : t.HasRoom path) {d : Disk}
    (hopen : Disk.open? t path access = some d) :
    Place.ofPath t.directory path ≠ [] ∧
      d = .fresh t (Place.ofPath t.directory path) access .nothing := by
  rw [Disk.open?.eq_def] at hopen
  obtain ⟨p, hp, hopen⟩ := Option.bind_eq_some_iff.mp hopen
  obtain ⟨rfl, hp⟩ := eq_ofPath_of_fileNamed? hp
  refine ⟨hp, ?_⟩
  split at hopen
  · cases hopen
  · split at hopen
    · next hthere =>
      obtain ⟨node, hnode⟩ := Option.isSome_iff_exists.mp hthere
      have hsame : t.insert (Place.ofPath t.directory path) (.file .nothing) = t :=
        congrArg (fun nodes => ({ t with nodes } : FileTree))
          (Table.insert_eq_self (hroom.free node hnode ▸ hnode))
      rw [Disk.fresh, hsame]
      exact (Option.some.inj hopen).symm
    · split at hopen
      · exact (Option.some.inj hopen).symm
      · cases hopen

/-- The file is opened as it is. -/
theorem open?_again (hroom : t.HasRoom path) {d : Disk}
    (hopen : Disk.open? t path access = some d) (content : Content) :
    Disk.open? (t.insert (Place.ofPath t.directory path) (.file content)) path access =
      some (.fresh t (Place.ofPath t.directory path) access content) := by
  have hnamed : (t.insert (Place.ofPath t.directory path) (.file content)).fileNamed? path =
      some (Place.ofPath t.directory path) := by
    rw [← hroom.named, fileNamed?, fileNamed?, landscape_insert_file t _ content .nothing]
    rfl
  have hlike : ∀ obstacle, access.likeness.map
      (t.insert (Place.ofPath t.directory path) (.file content)).find ≠
        some (.error obstacle) := by
    intro obstacle
    cases hlikeness : access.likeness with
    | none => nofun
    | some other =>
      cases hfind : t.find other with
      | error o =>
        rw [Disk.open?.eq_def] at hopen
        obtain ⟨p, -, hopen⟩ := Option.bind_eq_some_iff.mp hopen
        simp [hlikeness, hfind] at hopen
      | ok q => simp [find_insert hroom.free hfind]
  rw [Disk.open?.eq_def, hnamed]
  -- By `hlike` the second case of the match is left.
  simp only [Option.bind_eq_bind, Option.bind_some, node?_insert_self, Option.isSome_some, if_true]
  rfl

end FileTree.HasRoom

/-! ### Sessions -/

namespace Session

variable {s s₀ : Session}

/-- What a session never changes: its configuration, and what is around its file. -/
def settings (s : Session) : Config × FileTree := (s.config, s.surroundings)

theorem settings_onVolume {handle : String} {f : Nat → Volume → Outcome × Session}
    (hf : ∀ n v, (f n v).2.settings = s.settings) :
    (s.onVolume handle f).2.settings = s.settings := by
  rw [onVolume]
  cases s.volume? handle with
  | none => rfl
  | some nv => exact hf nv.1 nv.2

theorem settings_changeContexts (contexts : Option Contexts) :
    (s.changeContexts contexts).2.settings = s.settings := by
  cases contexts <;> rfl

theorem settings_changeFaults (handle : String) (f : List Fault → List Fault) :
    (s.changeFaults handle f).2.settings = s.settings :=
  settings_onVolume fun _ _ => by split <;> rfl

theorem settings_open (handle : String) : (s.open handle).2.settings = s.settings := by
  rw [open_eq]
  cases (s.closed handle).openVolume <;> rfl

theorem settings_migrate (n : Nat) (v : Volume) : (s.migrate n v).2.settings = s.settings := by
  rw [migrate]
  cases s.schemaVersion v *> v.migrate .free <;> rfl

theorem settings_conclude (n : Nat) (own : Option Nat) (operation : String) (cancel : Bool)
    (failure : Option StoreError) (before writes : Database) (inner : List Outcome) :
    (s.conclude n own operation cancel failure before writes inner).2.settings = s.settings := by
  have hown : (if cancel then s.cancelOwn own else s).settings = s.settings := by
    cases cancel <;> cases own <;> rfl
  obtain ⟨writes', hend⟩ := conclude_cases s n own operation cancel failure before writes inner
  rw [hend]
  exact hown

mutual

/-- No step changes the settings. -/
theorem settings_take (s : Session) : (step : Step) → (s.take step).2.settings = s.settings
  | .setClock _ | .advance _ | .readClock | .newContext _ _ => rfl
  | .cloneContext _ _ => settings_changeContexts _
  | .cancelContext _ => settings_changeContexts _
  | .inspectContext name => by
    rw [take]
    cases s.contexts.family? name <;> rfl
  | .checkContext name _ => by
    rw [take]
    cases s.contexts.family? name <;> rfl
  | .openHandle handle => by
    rw [take_openHandle_snd]
    exact settings_open handle
  | .readSchema _ => settings_onVolume fun _ _ => rfl
  | .migrate _ => settings_onVolume settings_migrate
  | .readConfig _ => settings_onVolume fun _ _ => rfl
  | .call _ _ _ (.error _) => rfl
  | .call _ context _ (.ok _) => settings_onVolume fun _ _ => by cases s.family? context <;> rfl
  | .adjust _ _ => settings_onVolume fun _ _ => rfl
  | .setFault _ _ => settings_changeFaults _ _
  | .clearFault _ _ _ => settings_changeFaults _ _
  | .listRows _ _ => settings_onVolume fun _ _ => rfl
  | .transaction handle context operation models inner cancel failure => by
    rcases s.take_transaction_cases handle context operation models inner cancel failure with
      ⟨outcome, -, htake⟩ | ⟨n, v, family, writes, -, -, -, htake⟩ <;> rw [htake]
    obtain ⟨hconfig, hsurroundings, -⟩ := s.holding_eq n v (holdOf models)
    rw [settings_conclude, settings_takeAll _ inner, settings, hconfig, hsurroundings, settings]

/-- No steps change the settings. -/
theorem settings_takeAll (s : Session) :
    (steps : List Step) → (s.takeAll steps).2.settings = s.settings
  | [] => rfl
  | step :: steps => (settings_takeAll (s.take step).2 steps).trans (settings_take s step)

end

/-- How the file of a session is opened. -/
theorem target_of_file {path : List UInt8} {access : Access}
    (hfile : Location.ofPath? s.config.path = some (.file path access)) :
    s.target = match Disk.open? (s.files path access) path access with
      | none => .error (.openFailed s.config.path)
      | some d =>
        if !s.config.canWait then .error .waitTooLong
        else match d.enter s.config.journalMode with
          | .error _ => .error .statementFailed
          | .ok d' => .ok (0, d'.writing) := by
  rw [target, hfile]
  simp only
  cases Disk.open? (s.files path access) path access with
  | none => rfl
  | some d =>
    cases s.config.canWait with
    | false => rfl
    | true => cases h : d.enter s.config.journalMode <;> simp [h] <;> rfl

/-- What it takes to open the file of a session. -/
theorem target_eq_ok_iff {path : List UInt8} {access : Access}
    (hfile : Location.ofPath? s.config.path = some (.file path access)) {writing : Writing} :
    s.target = .ok (0, writing) ↔
      s.config.canWait = true ∧ ∃ d d', Disk.open? (s.files path access) path access = some d ∧
        d.enter s.config.journalMode = .ok d' ∧ d'.writing = writing := by
  rw [target_of_file hfile]
  cases Disk.open? (s.files path access) path access with
  | none => simp
  | some d =>
    cases s.config.canWait with
    | false => simp
    | true => cases h : d.enter s.config.journalMode <;> simp [h]

/-- Opening the file fails for internal reasons only. -/
theorem code_of_target_error {path : List UInt8} {access : Access}
    (hfile : Location.ofPath? s.config.path = some (.file path access)) {e : StoreError}
    (htarget : s.target = .error e) : e.code = .internalError := by
  rw [target_of_file hfile] at htarget
  split at htarget
  · cases htarget
    rfl
  · split at htarget
    · cases htarget
      rfl
    · split at htarget
      · cases htarget
        rfl
      · cases htarget

section Again

variable {config : Config} {surroundings : FileTree} {wall : Int} {path : List UInt8}
  {access : Access} (hfile : Location.ofPath? config.path = some (.file path access))
  (hroom : surroundings.HasRoom path) (hsettings : s.settings = (config, surroundings))

include hfile hroom hsettings

/-- A file that could be opened for writing where there was room can be opened so again. -/
theorem target_again (htarget : (start config surroundings wall).target = .ok (0, .free)) :
    s.target = .ok (0, .free) := by
  obtain ⟨rfl, rfl⟩ := Prod.mk.inj hsettings
  obtain ⟨hwait, d, d', hopen, henter, hwriting⟩ :=
    (target_eq_ok_iff (s := start s.config s.surroundings wall) hfile).mp htarget
  change Disk.open? s.surroundings path access = some d at hopen
  refine (target_eq_ok_iff hfile).mpr ⟨hwait, ?_⟩
  cases hv : s.volumes.get? 0 with
  | none =>
    have hfiles : s.files path access = s.surroundings := by
      rw [files, hv]
    exact ⟨d, d', hfiles ▸ hopen, henter, hwriting⟩
  | some v =>
    obtain ⟨hp, rfl⟩ := hroom.open?_new hopen
    obtain ⟨hcan, hindex⟩ := Disk.of_enter_new hp hroom.beside henter hwriting
    obtain ⟨d, henter, hwriting⟩ := Disk.enter_again hp hroom.beside hcan hindex v.database
    have hfiles : s.files path access =
        s.surroundings.insert (Place.ofPath s.surroundings.directory path) (.file
          (.database v.database (if access.canLog then s.config.journalMode else .delete))) := by
      rw [files, hv]
    rw [hfiles, hroom.open?_again hopen]
    exact ⟨_, d, rfl, henter, hwriting⟩

/-- **The database can be opened again** that was opened where there was room, as long as no unit of
work is open and its layout is not newer than the newest. -/
theorem openVolume_again {v : Volume}
    (hopen : (start config surroundings wall).openVolume = .ok (0, v)) (hidle : s.Idle config)
    (hversion : (s.kept 0).database.schemaVersion ≤ Database.newestSchema) :
    s.openVolume = .ok (0, { s.kept 0 with
      database := { (s.kept 0).database with schemaVersion := Database.newestSchema } }) := by
  obtain ⟨hvalid, writing, htarget, -, hmigrate⟩ := openVolume_eq_ok_iff.mp hopen
  -- What is there first is a new database, so it must have been opened for writing.
  obtain rfl : writing = .free := by
    have hblank : (start config surroundings wall).kept 0 = .blank :=
      (onFile_start hfile surroundings wall).kept_eq 0
    rw [hblank] at hmigrate
    exact ((Volume.migrate_eq_ok_iff.mp hmigrate).2.1 (by decide)).2
  have hlocked : (s.kept 0).locked = false := by
    rw [Volume.locked, hidle.kept_free]
    rfl
  refine openVolume_eq_ok_iff.mpr ⟨hidle.config ▸ hvalid, .free,
    target_again hfile hroom hsettings htarget, bars_of_free hidle.kept_free, ?_⟩
  exact Volume.migrate_eq_ok_iff.mpr ⟨hversion, fun _ => ⟨hlocked, rfl⟩, rfl⟩

end Again

end Session

end RunLedger
