import RunLedger.Database

/-!
# The database as rows

Statements and listings see the database as twelve tables of rows, each row a list of named cells. A
record shows up as one row, and what belongs to it as rows of further tables that repeat its key.

## Main definitions

* `TableName`: the twelve tables.
* `Cell`, `Row`: what a row consists of.
* `ExperimentRecord.row`, `HistoryEntry.row`, …: the rows of each kind of record.
* `Database.rows`: all rows of a table, those of the two lists of observations in order of
  acceptance, the others by key.
-/

namespace RunLedger

/-- The tables that statements and listings see. -/
inductive TableName
  | experiments
  | experimentTags
  | runs
  | runTags
  | history
  | latest
  | modelMetrics
  | models
  | modelTags
  | versions
  | versionTags
  | aliases
deriving DecidableEq

namespace TableName

/-- All tables. -/
def all : List TableName :=
  [experiments, experimentTags, runs, runTags, history, latest, modelMetrics, models, modelTags,
    versions, versionTags, aliases]

/-- The name by which callers ask for a table. -/
def text : TableName → String
  | experiments => "experiments"
  | experimentTags => "experiment_tags"
  | runs => "runs"
  | runTags => "tags"
  | history => "metrics"
  | latest => "latest_metrics"
  | modelMetrics => "logged_model_metrics"
  | models => "registered_models"
  | modelTags => "registered_model_tags"
  | versions => "model_versions"
  | versionTags => "model_version_tags"
  | aliases => "registered_model_aliases"

/-- The table with the given name. -/
def ofText? (s : String) : Option TableName :=
  all.find? fun table => table.text == s

end TableName

/-- The content of one column of a row. -/
inductive Cell
  | null
  | int (n : Int)
  | text (s : String)
  | real (x : Binary64)
deriving DecidableEq

namespace Cell

/-- The cell of an optional text. -/
def optText : Option String → Cell
  | some s => text s
  | none => null

/-- The cell of an optional integer. -/
def optInt : Option Int → Cell
  | some n => int n
  | none => null

/-- The cell of an optional number. -/
def optReal : Option Binary64 → Cell
  | some x => real x
  | none => null

/-- The cell of a mark. -/
def flag (b : Bool) : Cell := int (if b then 1 else 0)

end Cell

/-- A row: its columns with their names. -/
abbrev Row := List (String × Cell)

/-- The row of a tag of an experiment. -/
def experimentTagRow (id : Int) (key : String) (value : Option String) : Row :=
  [("experiment_id", .int id), ("key", .text key), ("value", .optText value)]

/-- The row of a tag of a run. -/
def runTagRow (id : String) (key value : String) : Row :=
  [("run_uuid", .text id), ("key", .text key), ("value", .text value)]

/-- The row of the latest point of a metric key. -/
def latestRow (runId key : String) (p : Point) : Row :=
  [("run_uuid", .text runId), ("key", .text key), ("value", .real p.reading.value),
    ("timestamp", .int p.timestamp), ("step", .int p.step), ("is_nan", .flag p.reading.nan)]

/-- The row of a tag of a registered model. -/
def modelTagRow (name key : String) (value : Option String) : Row :=
  [("name", .text name), ("key", .text key), ("value", .optText value)]

/-- The row of a tag of a version. -/
def versionTagRow (name : String) (version : Int) (key : String) (value : Option String) : Row :=
  [("name", .text name), ("version", .int version), ("key", .text key),
    ("value", .optText value)]

/-- The row of an alias. -/
def aliasRow (name aliasName : String) (version : Int) : Row :=
  [("name", .text name), ("alias", .text aliasName), ("version", .int version)]

namespace ExperimentRecord

/-- The row of an experiment. -/
def row (e : ExperimentRecord) (id : Int) : Row :=
  [("experiment_id", .int id), ("name", .text e.name),
    ("artifact_location", .text e.artifactLocation), ("lifecycle_stage", .text e.stage.stored),
    ("creation_time", .int e.creationTime), ("last_update_time", .int e.lastUpdateTime)]

/-- The rows of its tags. -/
def tagRows (e : ExperimentRecord) (id : Int) : List Row :=
  e.tags.entries.map fun (key, value) => experimentTagRow id key value

end ExperimentRecord

namespace RunRecord

/-- The row of a run. -/
def row (r : RunRecord) (id : String) : Row :=
  [("run_uuid", .text id), ("name", .text r.name), ("user_id", .optText r.userId),
    ("status", .text r.status), ("start_time", .int r.startTime), ("end_time", .optInt r.endTime),
    ("deleted_time", .optInt r.deletedTime), ("lifecycle_stage", .text r.stage.stored),
    ("artifact_uri", .text r.artifactUri), ("experiment_id", .int r.experimentId)]

/-- The rows of its tags. -/
def tagRows (r : RunRecord) (id : String) : List Row :=
  r.tags.entries.map fun (key, value) => runTagRow id key value

/-- The rows of its latest points. -/
def latestRows (r : RunRecord) (id : String) : List Row :=
  r.latest.entries.map fun (key, p) => latestRow id key p

end RunRecord

/-- The row of an observation in the history. -/
def HistoryEntry.row (e : HistoryEntry) : Row :=
  [("key", .text e.key), ("value", .real e.point.reading.value),
    ("timestamp", .int e.point.timestamp), ("run_uuid", .text e.runId),
    ("step", .int e.point.step), ("is_nan", .flag e.point.reading.nan),
    ("model_id", .optText e.modelId), ("dataset_name", .optText e.datasetName),
    ("dataset_digest", .optText e.datasetDigest)]

/-- The row of an observation in the list of a logged model. -/
def ModelEntry.row (e : ModelEntry) : Row :=
  [("model_id", .text e.modelId), ("metric_name", .text e.name),
    ("metric_timestamp_ms", .int e.timestamp), ("metric_step", .int e.step),
    ("metric_value", .optReal e.value), ("experiment_id", .int e.experimentId),
    ("run_id", .text e.runId), ("dataset_name", .optText e.datasetName),
    ("dataset_digest", .optText e.datasetDigest)]

namespace VersionRecord

/-- The row of a version. -/
def row (v : VersionRecord) (name : String) (version : Int) : Row :=
  [("name", .text name), ("version", .int version), ("creation_time", .int v.creationTime),
    ("last_updated_time", .int v.lastUpdatedTime), ("description", .optText v.description),
    ("user_id", .optText v.userId), ("current_stage", .text v.stage.stored),
    ("source", .text v.source), ("run_id", .optText v.runId), ("run_link", .optText v.runLink),
    ("status", .text v.status), ("status_message", .optText v.statusMessage)]

/-- The rows of its tags. -/
def tagRows (v : VersionRecord) (name : String) (version : Int) : List Row :=
  v.tags.entries.map fun (key, value) => versionTagRow name version key value

end VersionRecord

namespace ModelRecord

/-- The row of a registered model. -/
def row (m : ModelRecord) (name : String) : Row :=
  [("name", .text name), ("creation_time", .int m.creationTime),
    ("last_updated_time", .int m.lastUpdatedTime), ("description", .optText m.description)]

/-- The rows of its tags. -/
def tagRows (m : ModelRecord) (name : String) : List Row :=
  m.tags.entries.map fun (key, value) => modelTagRow name key value

/-- The rows of its versions. -/
def versionRows (m : ModelRecord) (name : String) : List Row :=
  m.versions.entries.map fun (version, v) => v.row name version

/-- The rows of the tags of its versions. -/
def versionTagRows (m : ModelRecord) (name : String) : List Row :=
  m.versions.entries.flatMap fun (version, v) => v.tagRows name version

/-- The rows of its aliases. -/
def aliasRows (m : ModelRecord) (name : String) : List Row :=
  m.aliases.entries.map fun (aliasName, version) => aliasRow name aliasName version

end ModelRecord

/-- All rows of a table. -/
def Database.rows (db : Database) : TableName → List Row
  | .experiments => db.experiments.entries.map fun (id, e) => e.row id
  | .experimentTags => db.experiments.entries.flatMap fun (id, e) => e.tagRows id
  | .runs => db.runs.entries.map fun (id, r) => r.row id
  | .runTags => db.runs.entries.flatMap fun (id, r) => r.tagRows id
  | .history => db.history.map HistoryEntry.row
  | .latest => db.runs.entries.flatMap fun (id, r) => r.latestRows id
  | .modelMetrics => db.modelMetrics.map ModelEntry.row
  | .models => db.models.entries.map fun (name, m) => m.row name
  | .modelTags => db.models.entries.flatMap fun (name, m) => m.tagRows name
  | .versions => db.models.entries.flatMap fun (name, m) => m.versionRows name
  | .versionTags => db.models.entries.flatMap fun (name, m) => m.versionTagRows name
  | .aliases => db.models.entries.flatMap fun (name, m) => m.aliasRows name

end RunLedger
