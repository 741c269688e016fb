import RunLedger.Models

/-!
# Versions of registered models

The versions of a model are numbered upwards from one, and a number is never given out twice: a
deleted version stays stored, redacted, in a stage of its own. A version can move to a stage and
archive the other versions there.

## Main definitions

* `NewVersion`: what a new version is created from.
* `VersionRecord.redacted`: what is left of a deleted version.
* `Versions.create`, `Versions.get`, `Versions.latest`, `Versions.update`, `Versions.transition`,
  `Versions.delete`: the calls.
* `Versions.setTag`, `Versions.deleteTag`: the calls for tags.
-/

namespace RunLedger

/-- What a new version is created from. -/
structure NewVersion where
  /-- Where its files are. -/
  source : String
  /-- The run that made it. -/
  runId : Option String
  /-- Where that run can be seen. -/
  runLink : Option String
  /-- What it is. -/
  description : Option String
  /-- Who created it. -/
  userId : Option String
  /-- Its tags; of those with one key the last one stays. -/
  tags : List Tag
deriving DecidableEq

namespace VersionRecord

/-- Stands for the source of a deleted version. -/
def redactedSource : String := "REDACTED-SOURCE-PATH"

/-- Stands for the run of a deleted version. -/
def redactedRunId : String := "REDACTED-RUN-ID"

/-- Stands for the link to the run of a deleted version. -/
def redactedRunLink : String := "REDACTED-RUN-LINK"

/-- What is left of a version deleted at `now`. -/
def redacted (v : VersionRecord) (now : Int) : VersionRecord :=
  { v with
    stage := .deletedInternal, runId := some redactedRunId, runLink := some redactedRunLink,
    source := redactedSource, userId := none, description := none, statusMessage := none,
    lastUpdatedTime := now }

end VersionRecord

namespace Versions

open Work Registry

/-- The number of the next version. -/
def nextNumber (m : ModelRecord) : Int :=
  match m.versions.keys.getLast? with
  | some n => n + 1
  | none => 1

/-- The number of the next version, which must have at most 64 bits. -/
def requireNext (name : String) : Query Int := do
  let next := nextNumber (← requireModel name)
  if inInt64 next then return next else throw .statementFailed

/-- Inserts the record of a new version. -/
def insertNew (name : String) (version : Int) (v : VersionRecord) : Work Unit := do
  attempt .insert .versions [v.row name version]
  putVersion name version v

/-- Sets one tag of a version. -/
def putTag (name : String) (version : Int) (key value : String) : Work Unit := do
  let (_, v, _) ← ask (requireVersion name version)
  attemptUpsert .versionTags (versionTagRow name version key (some value)) (v.tags.contains key)
  putVersion name version { v with tags := v.tags.insert key (some value) }

/-- Creates the next version of a model. -/
def create (name : String) (new : NewVersion) : Work ModelVersion := do
  ensure (Models.checkTagKeys new.tags)
  within "error creating model version" <| transact "create_model_version" do
    let version ← ask (requireNext name)
    let now := (← read).now
    insertNew name version
      { creationTime := now, lastUpdatedTime := now, description := new.description,
        userId := new.userId, stage := .none, source := new.source, runId := new.runId,
        runLink := new.runLink, status := VersionStatus.ready.stored, statusMessage := none,
        tags := .empty }
    new.tags.forM fun tag => putTag name version tag.key tag.value
    touch name
    ask (loadVersion name version)

/-- The version with the given number. -/
def get (name : String) (version : Int) : Work ModelVersion :=
  consult "get_model_version" .versions (loadVersion name version)

/-- The highest version in each of the given stages, or in each stage if none is given. -/
def latestIn (name : String) (stages : List VersionStage) : Query (List ModelVersion) := do
  let versions ← loadLatest name (← requireModel name)
  return versions.filter fun v => stages.isEmpty || stages.contains v.stage

/-- The highest version in each of the given stages, or in each stage if none is given. -/
def latest (name : String) (stages : List VersionStage) : Work (List ModelVersion) :=
  consult "get_latest_versions" .models (latestIn name stages)

/-- Replaces the description of a version. -/
def update (name : String) (version : Int) (description : Option String) : Work ModelVersion :=
  within "error updating model version" <| transact "update_model_version" do
    let _ ← ask (requireVersion name version)
    let now := (← read).now
    alterVersion name version fun v => { v with description, lastUpdatedTime := now }
    ask (loadVersion name version)

/-- A version can be moved to any stage that a caller may name, and the other versions of that stage
can be archived if it is an active one. -/
def checkTransition (stage : VersionStage) (archiveExisting : Bool) : Except RuleViolation Unit :=
  if stage.isDeleted then .error (.invalidStage stage.stored)
  else if archiveExisting && !stage.isActive then .error (.archiveRequiresActiveStage stage)
  else .ok ()

/-- Archives the versions in a stage, except one. -/
def archiveOthers (name : String) (version : Int) (stage : VersionStage) : Work Unit := do
  checkpoint "transition_model_version_stage" (.inside 0)
  let now := (← read).now
  alterVersions name (fun w v => w != version && v.stage == stage) fun v =>
    { v with stage := .archived, lastUpdatedTime := now }

/-- Moves a version to a stage and, if asked to, archives the other versions there. -/
def transition (name : String) (version : Int) (stage : VersionStage) (archiveExisting : Bool) :
    Work ModelVersion := do
  ensure (checkTransition stage archiveExisting)
  within "error transitioning model version stage" <| transact "transition_model_version_stage" do
    let _ ← ask (requireVersion name version)
    let now := (← read).now
    touch name
    alterVersion name version fun v => { v with stage, lastUpdatedTime := now }
    if archiveExisting then archiveOthers name version stage
    ask (loadVersion name version)

/-- Deletes a version: its aliases go, its number stays taken, and what it held is redacted. -/
def delete (name : String) (version : Int) : Work Unit :=
  within "error deleting model version" <| transact "delete_model_version" do
    let _ ← ask (requireModel name)
    let _ ← ask (requireVersion name version)
    let now := (← read).now
    touch name
    let m ← ask (requireModel name)
    attempt .delete .aliases ((m.aliasesOf version).map fun aliasName =>
      aliasRow name aliasName version)
    putModel name { m with aliases := m.aliases.filter fun _ bound => bound != version }
    checkpoint "delete_model_version" (.inside 0)
    alterVersion name version fun v => v.redacted now

/-- Sets a tag of a version. -/
def setTag (name : String) (version : Int) (key value : String) : Work Unit := do
  ensure (Rules.tagKey key)
  transact "set_model_version_tag" do
    putTag name version key value

/-- Deletes a tag of a version; deleting a tag that is not set changes nothing. -/
def deleteTag (name : String) (version : Int) (key : String) : Work Unit := do
  ensure (Rules.tagKey key)
  transact "delete_model_version_tag" do
    let (_, v, _) ← ask (requireVersion name version)
    attempt .delete .versionTags ((v.tags.filter fun k _ => k == key).entries.map
      fun (k, value) => versionTagRow name version k value)
    putVersion name version { v with tags := v.tags.erase key }

end Versions

end RunLedger
