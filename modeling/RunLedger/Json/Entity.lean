import RunLedger.Entity
import RunLedger.Json.Codec

/-!
# Entities in JSON

The JSON form of every entity. Fields are written in the order listed; missing optional values are
`null`, except the model and dataset fields of a metric, which are left out. Lists of tags, aliases
and versions may be missing when an entity is read, and so may the step of a metric.

## Main definitions

* The `JsonCodec` instances of the stages, the status, `Tag`, `AliasBinding`, `Metric`,
  `ModelMetric`, `Experiment`, `Run`, `ModelVersion` and `RegisteredModel`.
-/

namespace RunLedger

open Json

instance : JsonCodec LifecycleStage where
  encode stage := ofString stage.stored
  decode? := enum? LifecycleStage.ofStored?

instance : JsonCodec VersionStage where
  encode stage := ofString stage.stored
  decode? := enum? VersionStage.ofStored?

instance : JsonCodec VersionStatus where
  encode status := ofString status.stored
  decode? := enum? VersionStatus.ofStored?

namespace Tag

/-- The JSON form of a tag. -/
def toJson (tag : Tag) : Json :=
  ofFields [("key", ofString tag.key), ("value", ofString tag.value)]

/-- The tag that a JSON value denotes. -/
def ofJson? (j : Json) : Option Tag := do
  let fields ← record? ["key", "value"] j
  let key ← fields.required? 0 text?
  let value ← fields.required? 1 text?
  some { key, value }

instance : JsonCodec Tag := ⟨toJson, ofJson?⟩

end Tag

namespace AliasBinding

/-- The JSON form of an alias. -/
def toJson (binding : AliasBinding) : Json :=
  ofFields [("alias", ofString binding.name), ("version", ofInt binding.version)]

/-- The alias that a JSON value denotes. -/
def ofJson? (j : Json) : Option AliasBinding := do
  let fields ← record? ["alias", "version"] j
  let name ← fields.required? 0 text?
  let version ← fields.required? 1 int64?
  some { name, version }

instance : JsonCodec AliasBinding := ⟨toJson, ofJson?⟩

end AliasBinding

namespace Metric

/-- The JSON form of a metric. -/
def toJson (m : Metric) : Json :=
  let association (name : String) : Option String → List (String × Json)
    | none => []
    | some s => [(name, ofString s)]
  ofFields ([("key", ofString m.key), ("value", ofBinary64 m.value),
      ("timestamp", ofInt m.timestamp), ("step", ofInt m.step)]
    ++ association "model_id" m.modelId ++ association "dataset_name" m.datasetName
    ++ association "dataset_digest" m.datasetDigest)

/-- The metric that a JSON value denotes. -/
def ofJson? (j : Json) : Option Metric := do
  let fields ← record? ["key", "value", "timestamp", "step", "model_id", "dataset_name",
    "dataset_digest"] j
  let key ← fields.required? 0 text?
  let value ← fields.required? 1 binary64?
  let timestamp ← fields.required? 2 int64?
  let step ← fields.defaulted? 3 0 int64?
  let modelId ← fields.defaulted? 4 none (nullable? text?)
  let datasetName ← fields.defaulted? 5 none (nullable? text?)
  let datasetDigest ← fields.defaulted? 6 none (nullable? text?)
  some { key, value, timestamp, step, modelId, datasetName, datasetDigest }

instance : JsonCodec Metric := ⟨toJson, ofJson?⟩

end Metric

namespace ModelMetric

/-- The JSON form of an observation of a logged model. -/
def toJson (m : ModelMetric) : Json :=
  ofFields [("model_id", ofString m.modelId), ("metric_name", ofString m.name),
    ("metric_timestamp_ms", ofInt m.timestamp), ("metric_step", ofInt m.step),
    ("metric_value", ofBinary64 m.value), ("experiment_id", ofInt m.experimentId),
    ("run_id", ofString m.runId), ("dataset_name", ofOption ofString m.datasetName),
    ("dataset_digest", ofOption ofString m.datasetDigest)]

/-- The observation of a logged model that a JSON value denotes. -/
def ofJson? (j : Json) : Option ModelMetric := do
  let fields ← record? ["model_id", "metric_name", "metric_timestamp_ms", "metric_step",
    "metric_value", "experiment_id", "run_id", "dataset_name", "dataset_digest"] j
  let modelId ← fields.required? 0 text?
  let name ← fields.required? 1 text?
  let timestamp ← fields.required? 2 int64?
  let step ← fields.required? 3 int64?
  let value ← fields.required? 4 binary64?
  let experimentId ← fields.required? 5 int64?
  let runId ← fields.required? 6 text?
  let datasetName ← fields.optional? 7 text?
  let datasetDigest ← fields.optional? 8 text?
  some { modelId, name, timestamp, step, value, experimentId, runId, datasetName, datasetDigest }

instance : JsonCodec ModelMetric := ⟨toJson, ofJson?⟩

end ModelMetric

namespace Experiment

/-- The JSON form of an experiment. -/
def toJson (e : Experiment) : Json :=
  ofFields [("experiment_id", ofInt e.id), ("name", ofString e.name),
    ("artifact_location", ofString e.artifactLocation),
    ("lifecycle_stage", JsonCodec.encode e.stage), ("creation_time", ofInt e.creationTime),
    ("last_update_time", ofInt e.lastUpdateTime), ("tags", JsonCodec.encode e.tags)]

/-- The experiment that a JSON value denotes. -/
def ofJson? (j : Json) : Option Experiment := do
  let fields ← record? ["experiment_id", "name", "artifact_location", "lifecycle_stage",
    "creation_time", "last_update_time", "tags"] j
  let id ← fields.required? 0 int64?
  let name ← fields.required? 1 text?
  let artifactLocation ← fields.required? 2 text?
  let stage ← fields.required? 3 JsonCodec.decode?
  let creationTime ← fields.required? 4 int64?
  let lastUpdateTime ← fields.required? 5 int64?
  let tags ← fields.defaulted? 6 [] JsonCodec.decode?
  some { id, name, artifactLocation, stage, creationTime, lastUpdateTime, tags }

instance : JsonCodec Experiment := ⟨toJson, ofJson?⟩

end Experiment

namespace Run

/-- The JSON form of a run. -/
def toJson (r : Run) : Json :=
  ofFields [("run_id", ofString r.id), ("experiment_id", ofInt r.experimentId),
    ("run_name", ofString r.name), ("user_id", ofOption ofString r.userId),
    ("status", ofString r.status), ("start_time", ofInt r.startTime),
    ("end_time", ofOption ofInt r.endTime), ("artifact_uri", ofString r.artifactUri),
    ("lifecycle_stage", JsonCodec.encode r.stage),
    ("deleted_time", ofOption ofInt r.deletedTime)]

/-- The run that a JSON value denotes. -/
def ofJson? (j : Json) : Option Run := do
  let fields ← record? ["run_id", "experiment_id", "run_name", "user_id", "status", "start_time",
    "end_time", "artifact_uri", "lifecycle_stage", "deleted_time"] j
  let id ← fields.required? 0 text?
  let experimentId ← fields.required? 1 int64?
  let name ← fields.required? 2 text?
  let userId ← fields.optional? 3 text?
  let status ← fields.required? 4 text?
  let startTime ← fields.required? 5 int64?
  let endTime ← fields.optional? 6 int64?
  let artifactUri ← fields.required? 7 text?
  let stage ← fields.required? 8 JsonCodec.decode?
  let deletedTime ← fields.optional? 9 int64?
  some { id, experimentId, name, userId, status, startTime, endTime, artifactUri, stage,
         deletedTime }

instance : JsonCodec Run := ⟨toJson, ofJson?⟩

end Run

namespace ModelVersion

/-- The JSON form of a model version. -/
def toJson (v : ModelVersion) : Json :=
  ofFields [("name", ofString v.name), ("version", ofInt v.version),
    ("creation_time", ofInt v.creationTime), ("last_updated_time", ofInt v.lastUpdatedTime),
    ("description", ofOption ofString v.description), ("user_id", ofOption ofString v.userId),
    ("current_stage", JsonCodec.encode v.stage), ("source", ofString v.source),
    ("run_id", ofOption ofString v.runId), ("run_link", ofOption ofString v.runLink),
    ("status", JsonCodec.encode v.status),
    ("status_message", ofOption ofString v.statusMessage), ("tags", JsonCodec.encode v.tags),
    ("aliases", JsonCodec.encode v.aliases)]

/-- The model version that a JSON value denotes. -/
def ofJson? (j : Json) : Option ModelVersion := do
  let fields ← record? ["name", "version", "creation_time", "last_updated_time", "description",
    "user_id", "current_stage", "source", "run_id", "run_link", "status", "status_message",
    "tags", "aliases"] j
  let name ← fields.required? 0 text?
  let version ← fields.required? 1 int64?
  let creationTime ← fields.required? 2 int64?
  let lastUpdatedTime ← fields.required? 3 int64?
  let description ← fields.optional? 4 text?
  let userId ← fields.optional? 5 text?
  let stage ← fields.required? 6 JsonCodec.decode?
  let source ← fields.required? 7 text?
  let runId ← fields.optional? 8 text?
  let runLink ← fields.optional? 9 text?
  let status ← fields.required? 10 JsonCodec.decode?
  let statusMessage ← fields.optional? 11 text?
  let tags ← fields.defaulted? 12 [] JsonCodec.decode?
  let aliases ← fields.defaulted? 13 [] JsonCodec.decode?
  some { name, version, creationTime, lastUpdatedTime, description, userId, stage, source, runId,
         runLink, status, statusMessage, tags, aliases }

instance : JsonCodec ModelVersion := ⟨toJson, ofJson?⟩

end ModelVersion

namespace RegisteredModel

/-- The JSON form of a registered model. -/
def toJson (m : RegisteredModel) : Json :=
  ofFields [("name", ofString m.name), ("creation_time", ofInt m.creationTime),
    ("last_updated_time", ofInt m.lastUpdatedTime),
    ("description", ofOption ofString m.description), ("tags", JsonCodec.encode m.tags),
    ("aliases", JsonCodec.encode m.aliases),
    ("latest_versions", JsonCodec.encode m.latestVersions)]

/-- The registered model that a JSON value denotes. -/
def ofJson? (j : Json) : Option RegisteredModel := do
  let fields ← record? ["name", "creation_time", "last_updated_time", "description", "tags",
    "aliases", "latest_versions"] j
  let name ← fields.required? 0 text?
  let creationTime ← fields.required? 1 int64?
  let lastUpdatedTime ← fields.required? 2 int64?
  let description ← fields.optional? 3 text?
  let tags ← fields.defaulted? 4 [] JsonCodec.decode?
  let aliases ← fields.defaulted? 5 [] JsonCodec.decode?
  let latestVersions ← fields.defaulted? 6 [] JsonCodec.decode?
  some { name, creationTime, lastUpdatedTime, description, tags, aliases, latestVersions }

instance : JsonCodec RegisteredModel := ⟨toJson, ofJson?⟩

end RegisteredModel

end RunLedger
