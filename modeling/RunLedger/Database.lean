import RunLedger.Config
import RunLedger.Metric.Winner

/-!
# The database of a ledger

Experiments, runs and registered models are kept in tables, each record together with what belongs
to it alone: its tags, the latest point of each metric key of a run, the versions and aliases of a
model. The observations of all runs are kept in the order in which they were accepted, once in the
history of their run and, if they are tied to a logged model, once more in the list of that model.

A tag value and a value in the list of a logged model can be missing.

## Main definitions

* `ExperimentRecord`, `RunRecord`, `VersionRecord`, `ModelRecord`: the records.
* `HistoryEntry`, `ModelEntry`: one observation in either list.
* `Database`.
* `HistoryEntry.sameSlot`, `ModelEntry.sameSlot`: entries of which only the first is kept.
-/

namespace RunLedger

/-- An experiment as it is stored. -/
structure ExperimentRecord where
  /-- Its name. -/
  name : String
  /-- Where its runs put artifacts. -/
  artifactLocation : String
  /-- Whether it accepts runs. -/
  stage : LifecycleStage
  /-- When it was created. -/
  creationTime : Int
  /-- When it was last changed. -/
  lastUpdateTime : Int
  /-- Its tags. -/
  tags : Table String (Option String)
deriving DecidableEq

/-- A run as it is stored. -/
structure RunRecord where
  /-- The experiment it belongs to. -/
  experimentId : Int
  /-- Its name. -/
  name : String
  /-- Who started it. -/
  userId : Option String
  /-- How far it has come. -/
  status : String
  /-- When it started. -/
  startTime : Int
  /-- When it ended. -/
  endTime : Option Int
  /-- When it was deleted, while it is. -/
  deletedTime : Option Int
  /-- Whether it accepts metrics. -/
  stage : LifecycleStage
  /-- Where it puts artifacts. -/
  artifactUri : String
  /-- Its tags. -/
  tags : Table String String
  /-- The latest point of each metric key. -/
  latest : Table String Point
deriving DecidableEq

/-- An observation in the history of a run. -/
structure HistoryEntry where
  /-- The run. -/
  runId : String
  /-- What was measured. -/
  key : String
  /-- Step, timestamp and value. -/
  point : Point
  /-- The logged model measured. -/
  modelId : Option String
  /-- The dataset measured on. -/
  datasetName : Option String
  /-- The version of that dataset. -/
  datasetDigest : Option String
deriving DecidableEq

/-- An observation in the list of a logged model. -/
structure ModelEntry where
  /-- The logged model. -/
  modelId : String
  /-- What was measured. -/
  name : String
  /-- When it was measured. -/
  timestamp : Int
  /-- At which step of the run. -/
  step : Int
  /-- The value measured. -/
  value : Option Binary64
  /-- The experiment of the run. -/
  experimentId : Int
  /-- The run. -/
  runId : String
  /-- The dataset measured on. -/
  datasetName : Option String
  /-- The version of that dataset. -/
  datasetDigest : Option String
deriving DecidableEq

/-- A version of a registered model as it is stored. Its status is free text. -/
structure VersionRecord where
  /-- When it was created. -/
  creationTime : Int
  /-- When it was last changed. -/
  lastUpdatedTime : Int
  /-- What it is. -/
  description : Option String
  /-- Who created it. -/
  userId : Option String
  /-- The stage it is in. -/
  stage : VersionStage
  /-- Where its files are. -/
  source : String
  /-- The run that made it. -/
  runId : Option String
  /-- Where that run can be seen. -/
  runLink : Option String
  /-- How far its registration has come. -/
  status : String
  /-- A remark on the status. -/
  statusMessage : Option String
  /-- Its tags. -/
  tags : Table String (Option String)
deriving DecidableEq

/-- A registered model as it is stored. -/
structure ModelRecord where
  /-- When it was created. -/
  creationTime : Int
  /-- When it was last changed. -/
  lastUpdatedTime : Int
  /-- What it is. -/
  description : Option String
  /-- Its tags. -/
  tags : Table String (Option String)
  /-- Its versions by number, soft-deleted ones included. -/
  versions : Table Int VersionRecord
  /-- Its aliases, each with the version it stands for. -/
  aliases : Table String Int
deriving DecidableEq

/-- Everything a ledger stores. -/
structure Database where
  /-- The version of the layout of the tables. -/
  schemaVersion : Int
  /-- The experiments by id. -/
  experiments : Table Int ExperimentRecord
  /-- The id handed out last; it never goes back. -/
  lastExperimentId : Int
  /-- The runs by id. -/
  runs : Table String RunRecord
  /-- The observations of all runs in the order of their acceptance. -/
  history : List HistoryEntry
  /-- The observations of all logged models in the order of their acceptance. -/
  modelMetrics : List ModelEntry
  /-- The registered models by name. -/
  models : Table String ModelRecord
deriving DecidableEq

namespace Database

/-- The newest layout of the tables, and the one this ledger works with. -/
def newestSchema : Int := 2

/-- A database in which nothing is stored. -/
def empty : Database where
  schemaVersion := newestSchema
  experiments := .empty
  lastExperimentId := 0
  runs := .empty
  history := []
  modelMetrics := []
  models := .empty

instance : Inhabited Database := ⟨empty⟩

/-- A database whose tables are not laid out yet. -/
def blank : Database := { empty with schemaVersion := 0 }

/-- Whether the layout of the tables is older than the newest. -/
def isOutdated (db : Database) : Bool := db.schemaVersion < newestSchema

/-- Brings the layout of the tables up to date; the rows stay as they are. -/
def migrated (db : Database) : Except StoreError Database :=
  if newestSchema < db.schemaVersion then
    .error (.unsupportedSchema db.schemaVersion newestSchema)
  else .ok { db with schemaVersion := newestSchema }

end Database

namespace HistoryEntry

/-- Entries of one run and key with equal points take one place in the history; which model and
dataset they are tied to plays no part. -/
def sameSlot (e f : HistoryEntry) : Bool :=
  e.runId == f.runId && e.key == f.key && e.point == f.point

theorem sameSlot_iff {e f : HistoryEntry} :
    e.sameSlot f = true ↔ e.runId = f.runId ∧ e.key = f.key ∧ e.point = f.point := by
  simp only [sameSlot, Bool.and_eq_true, beq_iff_eq, and_assoc]

end HistoryEntry

namespace ModelEntry

/-- Entries take one place in the list of a logged model if they agree in all but the experiment,
where a missing dataset field counts as an empty one. A missing value agrees with no value. -/
def sameSlot (e f : ModelEntry) : Bool :=
  e.modelId == f.modelId && e.name == f.name && e.timestamp == f.timestamp && e.step == f.step
    && e.runId == f.runId && e.value.isSome && e.value == f.value
    && e.datasetName.getD "" == f.datasetName.getD ""
    && e.datasetDigest.getD "" == f.datasetDigest.getD ""

/-- Entries that take one place are of one logged model. -/
theorem modelId_eq_of_sameSlot {e f : ModelEntry} (h : e.sameSlot f = true) :
    e.modelId = f.modelId := by
  simp only [sameSlot, Bool.and_eq_true, beq_iff_eq, and_assoc] at h
  exact h.1

end ModelEntry

end RunLedger
