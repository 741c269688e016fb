import RunLedger.Config
import RunLedger.Database
import RunLedger.Json.Entity

/-!
# Snapshots of a database

A database is kept in a file as one JSON value: an object with one member, whose name marks the file
and whose value lists the mode of the journal and the parts of the database in the order of their
declaration. Records are arrays of their parts, tables are arrays of keys with their values, and
floating-point numbers are written as the natural number that their bits spell, so that a reader
finds exactly what was written.

## Main definitions

* `Database.toSnapshot`, `Database.ofSnapshot?`: the JSON value of a database.
* `Database.toText`, `Database.ofText?`: the content of its file.
-/

namespace RunLedger

namespace Snapshot

open Json

/-- The JSON value of a table. -/
def ofTable {κ ρ : Type} [Ord κ] (key : κ → Json) (value : ρ → Json) (t : Table κ ρ) : Json :=
  .array (t.entries.map fun (k, v) => .array [key k, value v])

/-- The table that a JSON value denotes. -/
def table? {κ ρ : Type} [Ord κ] [Std.TransOrd κ] [Std.LawfulEqOrd κ] (key? : Json → Option κ)
    (value? : Json → Option ρ) : Json → Option (Table κ ρ)
  | .array items => do
    let entries ← items.mapM fun item =>
      match item with
      | .array [k, v] => do return (← key? k, ← value? v)
      | _ => none
    return entries.foldl (fun t (k, v) => t.insert k v) .empty
  | _ => none

/-- The list that a JSON value denotes. -/
def list? {α : Type} (item? : Json → Option α) : Json → Option (List α)
  | .array items => items.mapM item?
  | _ => none

/-- The JSON value of an optional text. -/
def ofOptText : Option String → Json := ofOption ofString

/-- The optional text that a JSON value denotes. -/
def optText? : Json → Option (Option String) := nullable? text?

/-- The JSON value of a floating-point number. -/
def ofReal (x : Binary64) : Json := ofInt x.toBits

/-- The floating-point number that a JSON value denotes. -/
def real? (j : Json) : Option Binary64 := (nat64? j).map Binary64.ofBits

/-- The JSON value of a point. -/
def ofPoint (p : Point) : Json :=
  .array [ofInt p.step, ofInt p.timestamp, ofReal p.reading.value, .bool p.reading.nan]

/-- The point that a JSON value denotes. -/
def point? : Json → Option Point
  | .array [step, timestamp, value, nan] => do
    return { step := ← int64? step, timestamp := ← int64? timestamp,
             reading := { value := ← real? value, nan := ← bool? nan } }
  | _ => none

/-- The JSON value of an experiment. -/
def ofExperiment (e : ExperimentRecord) : Json :=
  .array [ofString e.name, ofString e.artifactLocation, JsonCodec.encode e.stage,
    ofInt e.creationTime, ofInt e.lastUpdateTime, ofTable ofString ofOptText e.tags]

/-- The experiment that a JSON value denotes. -/
def experiment? : Json → Option ExperimentRecord
  | .array [name, location, stage, creation, update, tags] => do
    return { name := ← text? name, artifactLocation := ← text? location,
             stage := ← JsonCodec.decode? stage, creationTime := ← int64? creation,
             lastUpdateTime := ← int64? update, tags := ← table? text? optText? tags }
  | _ => none

/-- The JSON value of a run. -/
def ofRun (r : RunRecord) : Json :=
  .array [ofInt r.experimentId, ofString r.name, ofOptText r.userId, ofString r.status,
    ofInt r.startTime, ofOption ofInt r.endTime, ofOption ofInt r.deletedTime,
    JsonCodec.encode r.stage, ofString r.artifactUri, ofTable ofString ofString r.tags,
    ofTable ofString ofPoint r.latest]

/-- The run that a JSON value denotes. -/
def run? : Json → Option RunRecord
  | .array [experimentId, name, userId, status, start, ended, deleted, stage, uri, tags, latest] =>
    do
    return { experimentId := ← int64? experimentId, name := ← text? name,
             userId := ← optText? userId, status := ← text? status, startTime := ← int64? start,
             endTime := ← nullable? int64? ended, deletedTime := ← nullable? int64? deleted,
             stage := ← JsonCodec.decode? stage, artifactUri := ← text? uri,
             tags := ← table? text? text? tags, latest := ← table? text? point? latest }
  | _ => none

/-- The JSON value of an observation in the history. -/
def ofHistoryEntry (e : HistoryEntry) : Json :=
  .array [ofString e.runId, ofString e.key, ofPoint e.point, ofOptText e.modelId,
    ofOptText e.datasetName, ofOptText e.datasetDigest]

/-- The observation in the history that a JSON value denotes. -/
def historyEntry? : Json → Option HistoryEntry
  | .array [runId, key, point, modelId, datasetName, datasetDigest] => do
    return { runId := ← text? runId, key := ← text? key, point := ← point? point,
             modelId := ← optText? modelId, datasetName := ← optText? datasetName,
             datasetDigest := ← optText? datasetDigest }
  | _ => none

/-- The JSON value of an observation of a logged model. -/
def ofModelEntry (e : ModelEntry) : Json :=
  .array [ofString e.modelId, ofString e.name, ofInt e.timestamp, ofInt e.step,
    ofOption ofReal e.value, ofInt e.experimentId, ofString e.runId, ofOptText e.datasetName,
    ofOptText e.datasetDigest]

/-- The observation of a logged model that a JSON value denotes. -/
def modelEntry? : Json → Option ModelEntry
  | .array [modelId, name, timestamp, step, value, experimentId, runId, datasetName,
      datasetDigest] => do
    return { modelId := ← text? modelId, name := ← text? name, timestamp := ← int64? timestamp,
             step := ← int64? step, value := ← nullable? real? value,
             experimentId := ← int64? experimentId, runId := ← text? runId,
             datasetName := ← optText? datasetName, datasetDigest := ← optText? datasetDigest }
  | _ => none

/-- The JSON value of a version. -/
def ofVersion (v : VersionRecord) : Json :=
  .array [ofInt v.creationTime, ofInt v.lastUpdatedTime, ofOptText v.description,
    ofOptText v.userId, JsonCodec.encode v.stage, ofString v.source, ofOptText v.runId,
    ofOptText v.runLink, ofString v.status, ofOptText v.statusMessage,
    ofTable ofString ofOptText v.tags]

/-- The version that a JSON value denotes. -/
def version? : Json → Option VersionRecord
  | .array [creation, update, description, userId, stage, source, runId, runLink, status, remark,
      tags] => do
    return { creationTime := ← int64? creation, lastUpdatedTime := ← int64? update,
             description := ← optText? description, userId := ← optText? userId,
             stage := ← JsonCodec.decode? stage, source := ← text? source,
             runId := ← optText? runId, runLink := ← optText? runLink, status := ← text? status,
             statusMessage := ← optText? remark, tags := ← table? text? optText? tags }
  | _ => none

/-- The JSON value of a registered model. -/
def ofModel (m : ModelRecord) : Json :=
  .array [ofInt m.creationTime, ofInt m.lastUpdatedTime, ofOptText m.description,
    ofTable ofString ofOptText m.tags, ofTable ofInt ofVersion m.versions,
    ofTable ofString ofInt m.aliases]

/-- The registered model that a JSON value denotes. -/
def model? : Json → Option ModelRecord
  | .array [creation, update, description, tags, versions, aliases] => do
    return { creationTime := ← int64? creation, lastUpdatedTime := ← int64? update,
             description := ← optText? description, tags := ← table? text? optText? tags,
             versions := ← table? int64? version? versions,
             aliases := ← table? text? int64? aliases }
  | _ => none

/-- The name of the member that marks a file as a database. -/
def mark : String := "run ledger"

end Snapshot

namespace Database

open Json Snapshot

/-- The JSON value of a database with a journal. -/
def toSnapshot (db : Database) (mode : JournalMode) : Json :=
  Json.ofFields [(mark, .array [JsonCodec.encode mode, ofInt db.schemaVersion,
    ofTable ofInt ofExperiment db.experiments, ofInt db.lastExperimentId,
    ofTable ofString ofRun db.runs, .array (db.history.map ofHistoryEntry),
    .array (db.modelMetrics.map ofModelEntry), ofTable ofString ofModel db.models])]

/-- The database and the mode of its journal that a JSON value denotes. -/
def ofSnapshot? (j : Json) : Option (Database × JournalMode) := do
  let fields ← record? [mark] j
  match ← fields.at? 0 with
  | .array [mode, schema, experiments, lastId, runs, history, modelMetrics, models] =>
    let db : Database :=
      { schemaVersion := ← int64? schema, experiments := ← table? int64? experiment? experiments,
        lastExperimentId := ← int64? lastId, runs := ← table? text? run? runs,
        history := ← list? historyEntry? history,
        modelMetrics := ← list? modelEntry? modelMetrics, models := ← table? text? model? models }
    return (db, ← JsonCodec.decode? mode)
  | _ => none

/-- The content of the file of a database. -/
def toText (db : Database) (mode : JournalMode) : String := String.ofList (db.toSnapshot mode).print

/-- The database in a file with the mode of its journal, if the file holds one. -/
def ofText? (s : String) : Option (Database × JournalMode) :=
  (Json.parse? s.toList).bind ofSnapshot?

end Database

end RunLedger
