import RunLedger.Operation
import RunLedger.Proofs.Work.Success

/-!
# What readers of the registry find

A version is found if its model is there, a version is stored under its number and that version is
not deleted; it is read if its status is known. Every reader of the registry is settled by these
conditions: by number, by alias, and by stage.

## Main definitions

* `ModelRecord.IsLive`: a version is stored under a number and is not deleted.
* `VersionRecord.IsReadable`: the status of a version is known.

## Main results

* `Registry.loadVersion_eq_ok_iff`: reading a version by its number.
* `Registry.run_loadVersion_of_not_isLive`: a version that is not live is not found.
* `Registry.mem_loadLatest_iff`: the versions that are listed as the highest ones of their stages.
* `Registry.exists_loadLatest`, `Registry.exists_loadVersion`: readers that succeed.
* `Aliases.resolve_eq_ok_iff`: reading a version by an alias.
* `Operation.yields_getModel`, `Operation.yields_getVersion`, …: when the calls that read succeed.
-/

namespace RunLedger

open Work Registry

/-- Whether a version that is not deleted is stored under the number. -/
def ModelRecord.IsLive (m : ModelRecord) (version : Int) : Prop :=
  ∃ v, m.versions.get? version = some v ∧ v.stage.isDeleted = false

/-- Whether the stored status is the spelling of one. -/
def VersionRecord.IsReadable (v : VersionRecord) : Prop :=
  ∃ status, VersionStatus.ofStored? v.status = some status

namespace VersionRecord

variable {v : VersionRecord} {name : String} {version : Int} {entity : ModelVersion}

theorem exists_entity? (h : v.IsReadable) (name : String) (version : Int) :
    ∃ entity, v.entity? name version = some entity := by
  obtain ⟨status, hstatus⟩ := h
  exact ⟨_, by rw [entity?, hstatus, Option.map_some]⟩

theorem isReadable_of_entity? (h : v.entity? name version = some entity) : v.IsReadable := by
  obtain ⟨status, hstatus, -⟩ := Option.map_eq_some_iff.mp h
  exact ⟨status, hstatus⟩

theorem version_of_entity? (h : v.entity? name version = some entity) :
    entity.version = version := by
  obtain ⟨status, -, rfl⟩ := Option.map_eq_some_iff.mp h
  rfl

theorem stage_of_entity? (h : v.entity? name version = some entity) : entity.stage = v.stage := by
  obtain ⟨status, -, rfl⟩ := Option.map_eq_some_iff.mp h
  rfl

theorem tags_of_entity? (h : v.entity? name version = some entity) : entity.tags = [] := by
  obtain ⟨status, -, rfl⟩ := Option.map_eq_some_iff.mp h
  rfl

end VersionRecord

namespace ModelRecord

variable {m : ModelRecord} {version : Int} {v : VersionRecord} {aliasName : String}

theorem mem_aliasesOf : aliasName ∈ m.aliasesOf version ↔
    m.aliases.get? aliasName = some version := by
  rw [aliasesOf, Table.mem_keys_iff]
  simp [Table.get?_filter, Option.filter_eq_some_iff]

theorem mem_aliasBindings : ⟨aliasName, version⟩ ∈ m.aliasBindings ↔
    m.aliases.get? aliasName = some version := by
  simp [aliasBindings, ← Table.mem_entries_iff]

/-- Whether a version is the highest of its stage. -/
theorem isHighest_iff : m.isHighest version v = true ↔
    ∀ w u, m.versions.get? w = some u → u.stage = v.stage → w ≤ version := by
  simp [isHighest, Table.mem_entries_iff, imp_iff_not_or]

/-- Among the highest versions of their stages none is deleted. -/
theorem mem_latestVersions : (version, v) ∈ m.latestVersions.entries ↔
    m.versions.get? version = some v ∧ v.stage.isDeleted = false ∧
      m.isHighest version v = true := by
  rw [Table.mem_entries_iff, latestVersions, Table.get?_filter]
  simp [Option.filter_eq_some_iff]

end ModelRecord

namespace Registry

variable {db : Database} {name : String} {version : Int} {m : ModelRecord} {v : VersionRecord}

/-! ### Models and versions by name -/

theorem run_requireModel (name : String) (db : Database) :
    (requireModel name).run db = match db.models.get? name with
      | some m => .ok m
      | none => .error (.modelNotFound name) := by
  change (match db.models.get? name with
    | some m => (pure m : Query ModelRecord)
    | none => throw (StoreError.modelNotFound name)).run db = _
  cases db.models.get? name <;> rfl

@[simp] theorem requireModel_eq_ok_iff :
    (requireModel name).run db = .ok m ↔ db.models.get? name = some m := by
  rw [run_requireModel]
  cases db.models.get? name <;> simp

theorem findVersion?_eq_some_iff :
    findVersion? db name version = some (m, v) ↔
      db.models.get? name = some m ∧ m.versions.get? version = some v ∧
        v.stage.isDeleted = false := by
  simp only [findVersion?, Option.bind_eq_bind, Option.bind_eq_some_iff]
  constructor
  · rintro ⟨m', hm, v', hv, h⟩
    split at h
    · cases h
    · next hlive =>
      obtain ⟨rfl, rfl⟩ := Prod.mk.inj (Option.some.inj h)
      exact ⟨hm, hv, by simpa using hlive⟩
  · rintro ⟨hm, hv, hlive⟩
    exact ⟨m, hm, v, hv, by simp [hlive]⟩

theorem findVersion?_eq_none (hm : db.models.get? name = some m) (h : ¬ m.IsLive version) :
    findVersion? db name version = none := by
  refine Option.eq_none_iff_forall_ne_some.mpr ?_
  rintro ⟨m', v⟩ hfound
  obtain ⟨hm', hv, hlive⟩ := findVersion?_eq_some_iff.mp hfound
  obtain rfl := Option.some.inj (hm.symm.trans hm')
  exact h ⟨v, hv, hlive⟩

theorem decode_eq_ok_iff {entity : ModelVersion} :
    (decode name version v).run db = .ok entity ↔ v.entity? name version = some entity := by
  unfold decode
  cases v.entity? name version with
  | none => exact iff_of_false nofun nofun
  | some e =>
    exact ⟨fun h => congrArg some (Except.ok.inj h), fun h => congrArg _ (Option.some.inj h)⟩

theorem run_requireVersion (name : String) (version : Int) (db : Database) :
    (requireVersion name version).run db = match findVersion? db name version with
      | some (m, v) =>
        match v.entity? name version with
        | some entity => .ok (m, v, entity)
        | none => .error .statementFailed
      | none => .error (.versionNotFound name version) := by
  change (match findVersion? db name version with
    | some (m, v) => (do return (m, v, ← decode name version v) :
        Query (ModelRecord × VersionRecord × ModelVersion))
    | none => throw (StoreError.versionNotFound name version)).run db = _
  rcases findVersion? db name version with _ | ⟨m, v⟩
  · rfl
  · simp only [decode]
    cases v.entity? name version <;> rfl

theorem requireVersion_eq_ok_iff {entity : ModelVersion} :
    (requireVersion name version).run db = .ok (m, v, entity) ↔
      findVersion? db name version = some (m, v) ∧ v.entity? name version = some entity := by
  rw [run_requireVersion]
  rcases findVersion? db name version with _ | ⟨m', v'⟩
  · simp
  · simp only [Option.some.injEq, Prod.mk.injEq]
    constructor
    · intro h
      split at h
      · next e hentity =>
        obtain ⟨rfl, rfl, rfl⟩ := by simpa using h
        exact ⟨⟨rfl, rfl⟩, hentity⟩
      · cases h
    · rintro ⟨⟨rfl, rfl⟩, hentity⟩
      rw [hentity]

/-- What it takes to find a version and to read it. -/
theorem of_requireVersion {entity : ModelVersion}
    (h : (requireVersion name version).run db = .ok (m, v, entity)) :
    db.models.get? name = some m ∧ m.versions.get? version = some v ∧
      v.stage.isDeleted = false ∧ v.IsReadable := by
  obtain ⟨hfound, hentity⟩ := requireVersion_eq_ok_iff.mp h
  obtain ⟨hm, hv, hlive⟩ := findVersion?_eq_some_iff.mp hfound
  exact ⟨hm, hv, hlive, VersionRecord.isReadable_of_entity? hentity⟩

theorem exists_requireVersion (hm : db.models.get? name = some m)
    (hv : m.versions.get? version = some v) (hlive : v.stage.isDeleted = false)
    (hread : v.IsReadable) :
    ∃ entity, (requireVersion name version).run db = .ok (m, v, entity) := by
  obtain ⟨entity, hentity⟩ := VersionRecord.exists_entity? hread name version
  exact ⟨entity, requireVersion_eq_ok_iff.mpr
    ⟨findVersion?_eq_some_iff.mpr ⟨hm, hv, hlive⟩, hentity⟩⟩

theorem run_requireVersion_of_not_isLive (hm : db.models.get? name = some m)
    (h : ¬ m.IsLive version) :
    (requireVersion name version).run db = .error (.versionNotFound name version) := by
  rw [run_requireVersion, findVersion?_eq_none hm h]

/-! ### Versions with what they own -/

/-- **Reading a version by its number.** -/
theorem loadVersion_eq_ok_iff {answer : ModelVersion} :
    (loadVersion name version).run db = .ok answer ↔
      ∃ m v entity, findVersion? db name version = some (m, v) ∧
        v.entity? name version = some entity ∧
        answer = { entity with tags := readTags v.tags, aliases := m.aliasesOf version } := by
  rw [loadVersion, Query.bind_eq_ok_iff, Prod.exists]
  refine exists_congr fun m => ?_
  rw [Prod.exists]
  refine exists_congr fun v => exists_congr fun entity => ?_
  rw [requireVersion_eq_ok_iff, and_assoc]
  refine and_congr_right fun _ => and_congr_right fun _ => ?_
  exact ⟨fun h => (Except.ok.inj h).symm, fun h => congrArg Except.ok h.symm⟩

theorem run_loadVersion_of_not_isLive (hm : db.models.get? name = some m)
    (h : ¬ m.IsLive version) :
    (loadVersion name version).run db = .error (.versionNotFound name version) := by
  change ((requireVersion name version).run db >>= _) = _
  rw [run_requireVersion_of_not_isLive hm h]
  rfl

theorem version_of_loadVersion {answer : ModelVersion}
    (h : (loadVersion name version).run db = .ok answer) : answer.version = version := by
  obtain ⟨m, v, entity, -, hentity, hanswer⟩ := loadVersion_eq_ok_iff.mp h
  rw [hanswer]
  change entity.version = version
  exact VersionRecord.version_of_entity? hentity

/-- A live version with a known status is read with its aliases. -/
theorem exists_loadVersion (hm : db.models.get? name = some m)
    (hv : m.versions.get? version = some v) (hlive : v.stage.isDeleted = false)
    (hread : v.IsReadable) :
    ∃ answer, (loadVersion name version).run db = .ok answer ∧
      answer.aliases = m.aliasesOf version := by
  obtain ⟨entity, hentity⟩ := VersionRecord.exists_entity? hread name version
  exact ⟨_, loadVersion_eq_ok_iff.mpr
    ⟨m, v, entity, findVersion?_eq_some_iff.mpr ⟨hm, hv, hlive⟩, hentity, rfl⟩, rfl⟩

/-! ### The highest versions of the stages -/

/-- **The versions that are listed** are the highest ones of their stages, each with its aliases but
without its tags. -/
theorem mem_loadLatest_iff {versions : List ModelVersion} {answer : ModelVersion}
    (h : (loadLatest name m).run db = .ok versions) :
    answer ∈ versions ↔
      ∃ v entity, (answer.version, v) ∈ m.latestVersions.entries ∧
        v.entity? name answer.version = some entity ∧
        answer = { entity with aliases := m.aliasesOf answer.version } := by
  constructor
  · intro hanswer
    obtain ⟨⟨version, v⟩, hmem, hread⟩ := Query.exists_of_mem_mapM h hanswer
    obtain ⟨entity, hentity, hanswer⟩ := Query.bind_eq_ok_iff.mp hread
    obtain rfl := Except.ok.inj hanswer
    rw [decode_eq_ok_iff] at hentity
    obtain rfl : entity.version = version := VersionRecord.version_of_entity? hentity
    exact ⟨v, entity, hmem, hentity, rfl⟩
  · rintro ⟨v, entity, hmem, hentity, hanswer⟩
    obtain ⟨listed, hlisted, hread⟩ := Query.exists_mem_mapM h hmem
    obtain ⟨entity', hentity', hread⟩ := Query.bind_eq_ok_iff.mp hread
    obtain rfl := Option.some.inj ((decode_eq_ok_iff.mp hentity').symm.trans hentity)
    rw [hanswer, Except.ok.inj hread]
    exact hlisted

/-- The highest versions are listed if the status of every version is known. -/
theorem exists_loadLatest (h : ∀ version v, m.versions.get? version = some v → v.IsReadable)
    (name : String) (db : Database) : ∃ versions, (loadLatest name m).run db = .ok versions := by
  refine Query.exists_mapM ?_
  rintro ⟨version, v⟩ hmem
  obtain ⟨hv, -⟩ := ModelRecord.mem_latestVersions.mp hmem
  obtain ⟨entity, hentity⟩ := VersionRecord.exists_entity? (h version v hv) name version
  exact ⟨_, Query.bind_eq_ok_iff.mpr ⟨entity, decode_eq_ok_iff.mpr hentity, rfl⟩⟩

/-- **Reading a model.** -/
theorem loadModel_eq_ok_iff {answer : RegisteredModel} :
    (loadModel name).run db = .ok answer ↔
      ∃ m versions, db.models.get? name = some m ∧ (loadLatest name m).run db = .ok versions ∧
        answer = { name, creationTime := m.creationTime, lastUpdatedTime := m.lastUpdatedTime,
                   description := m.description, tags := readTags m.tags,
                   aliases := m.aliasBindings, latestVersions := versions } := by
  rw [loadModel, Query.bind_eq_ok_iff]
  refine exists_congr fun m => ?_
  rw [requireModel_eq_ok_iff, Query.bind_eq_ok_iff, exists_and_left]
  refine and_congr_right fun _ => exists_congr fun versions => and_congr_right fun _ => ?_
  exact ⟨fun h => (Except.ok.inj h).symm, fun h => congrArg Except.ok h.symm⟩

theorem exists_loadModel (hm : db.models.get? name = some m)
    (h : ∀ version v, m.versions.get? version = some v → v.IsReadable) :
    ∃ answer, (loadModel name).run db = .ok answer := by
  obtain ⟨versions, hversions⟩ := exists_loadLatest h name db
  exact ⟨_, loadModel_eq_ok_iff.mpr ⟨m, versions, hm, hversions, rfl⟩⟩

end Registry

/-! ### Aliases -/

namespace Aliases

variable {db : Database} {name aliasName : String} {answer : ModelVersion}

/-- **Reading a version by an alias.** -/
theorem resolve_eq_ok_iff :
    (resolve name aliasName).run db = .ok answer ↔
      ∃ m version, db.models.get? name = some m ∧ m.aliases.get? aliasName = some version ∧
        (loadVersion name version).run db = .ok answer := by
  rw [resolve, Query.bind_eq_ok_iff]
  refine exists_congr fun m => ?_
  rw [requireModel_eq_ok_iff, exists_and_left]
  refine and_congr_right fun _ => ?_
  cases m.aliases.get? aliasName with
  | none => exact iff_of_false nofun (by simp)
  | some version => simp

end Aliases

/-- **Listing the highest versions in some stages.** -/
theorem Versions.latestIn_eq_ok_iff {db : Database} {name : String} {stages : List VersionStage}
    {answer : List ModelVersion} :
    (latestIn name stages).run db = .ok answer ↔
      ∃ m versions, db.models.get? name = some m ∧ (loadLatest name m).run db = .ok versions ∧
        answer = versions.filter fun v => stages.isEmpty || stages.contains v.stage := by
  rw [latestIn, Query.bind_eq_ok_iff]
  refine exists_congr fun m => ?_
  rw [requireModel_eq_ok_iff, Query.bind_eq_ok_iff, exists_and_left]
  refine and_congr_right fun _ => exists_congr fun versions => and_congr_right fun _ => ?_
  exact ⟨fun h => (Except.ok.inj h).symm, fun h => congrArg Except.ok h.symm⟩

/-! ### Calls that only read -/

namespace Operation

variable {call : Call} {db db' : Database} {name aliasName : String} {version : Int}

theorem yields_getModel {model : RegisteredModel} :
    (getModel name).run.Yields call db (.model model) db' ↔
      call.pulse .entry = none ∧ call.hidden .models = false ∧
        (loadModel name).run db = .ok model ∧ db' = db :=
  yields_map_consult fun _ _ => Answer.model.inj

theorem yields_getVersion {v : ModelVersion} :
    (getVersion name version).run.Yields call db (.version v) db' ↔
      call.pulse .entry = none ∧ call.hidden .versions = false ∧
        (loadVersion name version).run db = .ok v ∧ db' = db :=
  yields_map_consult fun _ _ => Answer.version.inj

theorem yields_latestVersions {stages : List VersionStage} {versions : List ModelVersion} :
    (latestVersions name stages).run.Yields call db (.versions versions) db' ↔
      call.pulse .entry = none ∧ call.hidden .models = false ∧
        (Versions.latestIn name stages).run db = .ok versions ∧ db' = db :=
  yields_map_consult fun _ _ => Answer.versions.inj

theorem yields_getByAlias {v : ModelVersion} :
    (getByAlias name aliasName).run.Yields call db (.version v) db' ↔
      Rules.aliasName aliasName = .ok () ∧ call.pulse .entry = none ∧
        call.hidden .models = false ∧ (Aliases.resolve name aliasName).run db = .ok v ∧
        db' = db := by
  rw [run, yields_map]
  constructor
  · rintro ⟨w, hw, hv⟩
    obtain rfl := Answer.version.inj hv
    obtain ⟨_, hrule, hw⟩ := yields_ensure_bind.mp hw
    exact ⟨hrule, (yields_consult _ _ _).mp hw⟩
  · rintro ⟨hrule, h⟩
    exact ⟨v, yields_ensure_bind.mpr ⟨(), hrule, (yields_consult _ _ _).mpr h⟩, rfl⟩

end Operation

end RunLedger
