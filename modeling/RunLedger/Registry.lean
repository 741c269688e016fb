import RunLedger.Distinct
import RunLedger.Experiments
import RunLedger.Rules

/-!
# The registry of models

Reading registered models and their versions, and the statements by which the calls change them. A
soft-deleted version stays stored but is found by no reader. A version whose stored status is
unknown cannot be read.

## Main definitions

* `VersionRecord.entity?`: a version as it is answered, without tags and aliases.
* `ModelRecord.latestVersions`: the highest version in each stage.
* `Registry.requireModel`, `Registry.requireVersion`: a model or a version, or the reason there is
  none.
* `Registry.loadModel`, `Registry.loadVersion`: the same with everything it owns.
* `Registry.touch`, `Registry.putModel`, `Registry.alterModel`, `Registry.alterVersion`: statements
  on one row.
-/

namespace RunLedger

/-- A version as it is answered, without tags and aliases, if its status is known. -/
def VersionRecord.entity? (v : VersionRecord) (name : String) (version : Int) :
    Option ModelVersion :=
  (VersionStatus.ofStored? v.status).map fun status =>
    { name, version, creationTime := v.creationTime, lastUpdatedTime := v.lastUpdatedTime,
      description := v.description, userId := v.userId, stage := v.stage, source := v.source,
      runId := v.runId, runLink := v.runLink, status, statusMessage := v.statusMessage,
      tags := [], aliases := [] }

namespace ModelRecord

/-- The aliases bound to a version, in order. -/
def aliasesOf (m : ModelRecord) (version : Int) : List String :=
  (m.aliases.filter fun _ bound => bound == version).keys

/-- The aliases with the versions they stand for, in order. -/
def aliasBindings (m : ModelRecord) : List AliasBinding :=
  m.aliases.entries.map fun (name, version) => { name, version }

/-- Whether no version with a higher number is in the stage of `v`. -/
def isHighest (m : ModelRecord) (version : Int) (v : VersionRecord) : Bool :=
  m.versions.entries.all fun (w, u) => !(u.stage == v.stage && version < w)

/-- The highest version in each stage but that of deleted ones, by number. -/
def latestVersions (m : ModelRecord) : Table Int VersionRecord :=
  m.versions.filter fun version v => !v.stage.isDeleted && m.isHighest version v

end ModelRecord

namespace Registry

open Work

/-- The record of the model with the given name. -/
def requireModel (name : String) : Query ModelRecord := do
  match (← read).models.get? name with
  | some m => return m
  | none => throw (.modelNotFound name)

/-- Reads a stored version. -/
def decode (name : String) (version : Int) (v : VersionRecord) : Query ModelVersion :=
  match v.entity? name version with
  | some entity => return entity
  | none => throw .statementFailed

/-- The record of a version that is not deleted, if there is one. -/
def findVersion? (db : Database) (name : String) (version : Int) :
    Option (ModelRecord × VersionRecord) := do
  let m ← db.models.get? name
  let v ← m.versions.get? version
  if v.stage.isDeleted then none else some (m, v)

/-- A version that is not deleted, with the records of its model and of itself. -/
def requireVersion (name : String) (version : Int) :
    Query (ModelRecord × VersionRecord × ModelVersion) := do
  match findVersion? (← read) name version with
  | some (m, v) => return (m, v, ← decode name version v)
  | none => throw (.versionNotFound name version)

/-- A version with its tags and aliases. -/
def loadVersion (name : String) (version : Int) : Query ModelVersion := do
  let (m, v, entity) ← requireVersion name version
  return { entity with tags := readTags v.tags, aliases := m.aliasesOf version }

/-- The highest version in each stage, with its aliases. -/
def loadLatest (name : String) (m : ModelRecord) : Query (List ModelVersion) :=
  m.latestVersions.entries.mapM fun (version, v) => do
    return { (← decode name version v) with aliases := m.aliasesOf version }

/-- A model with its tags, its aliases and the highest version in each stage. -/
def loadModel (name : String) : Query RegisteredModel := do
  let m ← requireModel name
  let latestVersions ← loadLatest name m
  return { name, creationTime := m.creationTime, lastUpdatedTime := m.lastUpdatedTime,
           description := m.description, tags := readTags m.tags,
           aliases := m.aliasBindings, latestVersions }

/-- Stores the record of a model. -/
def putModel (name : String) (m : ModelRecord) : Work Unit :=
  modify fun db => { db with models := db.models.insert name m }

/-- Stores the record of a version of a model. -/
def putVersion (name : String) (version : Int) (v : VersionRecord) : Work Unit :=
  modify fun db =>
    { db with models := db.models.update name fun m =>
                { m with versions := m.versions.insert version v } }

/-- Changes the columns of a model. -/
def alterModel (name : String) (f : ModelRecord → ModelRecord) : Work Unit := do
  let m ← ask (requireModel name)
  attempt .update .models [(f m).row name]
  putModel name (f m)

/-- The time of the last change of a model, after a change at `now`: past the time before. -/
def bumped (now last : Int) : Int := max now (last + 1)

/-- Notes a change of a model. -/
def touch (name : String) : Work Unit := do
  let now := (← read).now
  alterModel name fun m => { m with lastUpdatedTime := bumped now m.lastUpdatedTime }

/-- Changes the columns of the versions of a model that have a property. -/
def alterVersions (name : String) (p : Int → VersionRecord → Bool)
    (f : VersionRecord → VersionRecord) : Work Unit := do
  let m ← ask (requireModel name)
  attempt .update .versions
    ((m.versions.filter p).entries.map fun (version, v) => (f v).row name version)
  putModel name
    { m with versions := m.versions.map fun version v => if p version v then f v else v }

/-- Changes the columns of one version. -/
def alterVersion (name : String) (version : Int) (f : VersionRecord → VersionRecord) : Work Unit :=
  alterVersions name (fun w _ => w == version) f

end Registry

end RunLedger
