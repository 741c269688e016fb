import RunLedger.Models
import RunLedger.MetricLog

/-!
# Direct changes of stored rows

Other programs can write to a database as well, and leave it in states that no call of the ledger
leads to. An adjustment is such a change, as a unit of work of its own. It changes rows by one
statement and answers with their number.

## Main definitions

* `Adjustment`: the changes.
* `Adjustment.run`: carries one out.
* `seedModels`: inserts bare models.
-/

namespace RunLedger

/-- A direct change of stored rows. -/
inductive Adjustment
  /-- Sets the version of the layout. -/
  | schemaVersion (version : Int)
  /-- Sets the stage of an experiment. -/
  | experimentStage (id : Int) (stage : String)
  /-- Sets the status of a run and when it ended. -/
  | runEnd (id status : String) (endTime : Option Int)
  /-- Sets the status of a version and the remark on it. -/
  | versionStatus (name : String) (version : Int) (status : String) (remark : Option String)
  /-- Moves a version to another number. -/
  | versionNumber (name : String) (version newVersion : Int)
  /-- Removes the values of all tags of a table. -/
  | missingTags (table : TableName)
  /-- Removes the values of all observations of logged models. -/
  | missingModelValues
  /-- Deletes all latest points. -/
  | noLatest
deriving DecidableEq

namespace Adjustment

open Work

/-- What an adjustment is called where it cannot start. -/
def name : String := "raw"

/-- The version of the layout is a cell of 32 bits; a number that does not fit is stored as zero. -/
def storedSchema (version : Int) : Int :=
  if -2147483648 ≤ version && version ≤ 2147483647 then version else 0

/-- Sets the stage of an experiment. The stage must be one of the two, and the name of an active
experiment must be free. -/
def setExperimentStage (id : Int) (e : ExperimentRecord) (stage : String) : Work Int := do
  match LifecycleStage.ofStored? stage with
  | none => throw .statementFailed
  | some stage =>
    let others := (← get).experiments.erase id
    if stage = .active && others.values.any fun o => o.stage == .active && o.name == e.name then
      throw .statementFailed
    let e := { e with stage }
    attempt .update .experiments [e.row id]
    Experiments.put id e
    return 1

/-- Moves a version to another number. The number must be free, and a version with tags stays where
it is. -/
def moveVersion (name : String) (m : ModelRecord) (version newVersion : Int) (v : VersionRecord) :
    Work Int := do
  attempt .update .versions [v.row name newVersion]
  if newVersion != version && (m.versions.contains newVersion || !v.tags.entries.isEmpty) then
    throw .statementFailed
  Registry.putModel name
    { m with versions := (m.versions.erase version).insert newVersion v }
  return 1

/-- Changes the rows of a version, if it is there. -/
def setVersionStatus (name : String) (version : Int) (status : String) (remark : Option String) :
    Work Int := do
  match ((← get).models.get? name).bind fun m => m.versions.get? version with
  | none => return 0
  | some _ =>
    Registry.alterVersion name version fun v => { v with status, statusMessage := remark }
    return 1

/-- The tags of a table without their values. -/
def blankValues (tags : Table String (Option String)) : Table String (Option String) :=
  tags.map fun _ _ => none

/-- The database with the values of all tags of a table removed. -/
def withoutValues (db : Database) : TableName → Database
  | .experimentTags =>
    { db with experiments := db.experiments.map fun _ e => { e with tags := blankValues e.tags } }
  | .modelTags =>
    { db with models := db.models.map fun _ m => { m with tags := blankValues m.tags } }
  | .versionTags =>
    { db with models := db.models.map fun _ m =>
                { m with versions := m.versions.map fun _ v =>
                    { v with tags := blankValues v.tags } } }
  | _ => db

/-- Changes the database by one statement on all rows of a table. -/
def replaceRows (kind : StatementKind) (table : TableName) (f : Database → Database) :
    Work Int := do
  let before ← get
  attempt kind table (match kind with
    | .delete => before.rows table
    | _ => (f before).rows table)
  set (f before)
  return (before.rows table).length

/-- The statement of an adjustment. -/
def statement : Adjustment → Work Int
  | schemaVersion version => do
    modify fun db => { db with schemaVersion := storedSchema version }
    return 0
  | experimentStage id stage => do
    match (← get).experiments.get? id with
    | none => return 0
    | some e => setExperimentStage id e stage
  | runEnd id status endTime => do
    match (← get).runs.get? id with
    | none => return 0
    | some _ =>
      Runs.alter id fun r => { r with status, endTime }
      return 1
  | versionStatus name version status remark => setVersionStatus name version status remark
  | versionNumber name version newVersion => do
    match ((← get).models.get? name).bind fun m => (m.versions.get? version).map (m, ·) with
    | none => return 0
    | some (m, v) => moveVersion name m version newVersion v
  | missingTags table => replaceRows .update table fun db => withoutValues db table
  | missingModelValues =>
    replaceRows .update .modelMetrics fun db =>
      { db with modelMetrics := db.modelMetrics.map fun e => { e with value := none } }
  | noLatest =>
    replaceRows .delete .latest fun db =>
      { db with runs := db.runs.map fun _ r => { r with latest := .empty } }

/-- Carries an adjustment out as a unit of work and answers with the number of rows changed. -/
def run (a : Adjustment) : Work Int := transact name a.statement

end Adjustment

/-- Inserts a bare model, both times one. -/
def seedModel (name : String) : Work Unit := do
  let m : ModelRecord :=
    { creationTime := 1, lastUpdatedTime := 1, description := none, tags := .empty,
      versions := .empty, aliases := .empty }
  Work.attempt .insert .models [m.row name]
  if (← get).models.contains name then throw .statementFailed
  Registry.putModel name m

/-- Inserts bare models one after the other. -/
def seedModels (names : List String) : Work Unit := names.forM seedModel

end RunLedger
