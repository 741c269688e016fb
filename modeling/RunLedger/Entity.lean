import RunLedger.Binary64
import RunLedger.Stage

/-!
# Entities

What the ledger answers with: experiments and their runs, metric observations, and registered
models with their versions, tags and aliases. Times are milliseconds since the epoch.

## Main definitions

* `Tag`, `AliasBinding`: a key with its value, an alias with its version.
* `Experiment`, `Run`.
* `Metric`, `ModelMetric`: an observation as a client logs it, and as a logged model lists it.
* `ModelVersion`, `RegisteredModel`.
* `isPrompt`: the tag that makes a registered model a prompt.
-/

namespace RunLedger

/-- A key and its value. -/
structure Tag where
  /-- The key. -/
  key : String
  /-- The value. -/
  value : String
deriving DecidableEq

/-- An experiment: a named place for runs and their artifacts. -/
structure Experiment where
  /-- Its number. -/
  id : Int
  /-- Its name, unique among active experiments. -/
  name : String
  /-- Where its runs put artifacts. -/
  artifactLocation : String
  /-- Whether it accepts runs. -/
  stage : LifecycleStage
  /-- When it was created. -/
  creationTime : Int
  /-- When it was last changed. -/
  lastUpdateTime : Int
  /-- Its tags, by key. -/
  tags : List Tag
deriving DecidableEq

/-- A run of an experiment. -/
structure Run where
  /-- Its identifier: 32 hexadecimal digits. -/
  id : String
  /-- The experiment it belongs to. -/
  experimentId : Int
  /-- Its name. -/
  name : String
  /-- Who started it. -/
  userId : Option String
  /-- How far it has come. -/
  status : String
  /-- When it started. -/
  startTime : Int
  /-- When it ended. -/
  endTime : Option Int
  /-- Where it puts artifacts. -/
  artifactUri : String
  /-- Whether it accepts metrics. -/
  stage : LifecycleStage
  /-- When it was deleted, while it is. -/
  deletedTime : Option Int
deriving DecidableEq

/-- One metric observation as a client logs it. The model and dataset fields tie it to a logged
model. -/
structure Metric where
  /-- What was measured. -/
  key : String
  /-- The value measured. -/
  value : Binary64
  /-- When it was measured. -/
  timestamp : Int
  /-- At which step of the run. -/
  step : Int
  /-- The logged model measured. -/
  modelId : Option String
  /-- The dataset measured on. -/
  datasetName : Option String
  /-- The version of that dataset. -/
  datasetDigest : Option String
deriving DecidableEq

/-- An observation as a logged model lists it. -/
structure ModelMetric where
  /-- The logged model. -/
  modelId : String
  /-- What was measured. -/
  name : String
  /-- When it was measured. -/
  timestamp : Int
  /-- At which step of the run. -/
  step : Int
  /-- The value measured. -/
  value : Binary64
  /-- The experiment of the run. -/
  experimentId : Int
  /-- The run. -/
  runId : String
  /-- The dataset measured on. -/
  datasetName : Option String
  /-- The version of that dataset. -/
  datasetDigest : Option String
deriving DecidableEq

/-- A name bound to one version of a model. -/
structure AliasBinding where
  /-- The alias. -/
  name : String
  /-- The version it stands for. -/
  version : Int
deriving DecidableEq

/-- A version of a registered model. -/
structure ModelVersion where
  /-- The model. -/
  name : String
  /-- Its number within the model. -/
  version : Int
  /-- When it was created. -/
  creationTime : Int
  /-- When it was last changed. -/
  lastUpdatedTime : Int
  /-- What it is. -/
  description : Option String
  /-- Who created it. -/
  userId : Option String
  /-- The stage it is in. -/
  stage : VersionStage
  /-- Where its files are. -/
  source : String
  /-- The run that made it. -/
  runId : Option String
  /-- Where that run can be seen. -/
  runLink : Option String
  /-- How far its registration has come. -/
  status : VersionStatus
  /-- A remark on the status. -/
  statusMessage : Option String
  /-- Its tags, by key. -/
  tags : List Tag
  /-- The aliases bound to it, in order. -/
  aliases : List String
deriving DecidableEq

/-- A registered model with what it owns. -/
structure RegisteredModel where
  /-- Its name. -/
  name : String
  /-- When it was created. -/
  creationTime : Int
  /-- When it was last changed. -/
  lastUpdatedTime : Int
  /-- What it is. -/
  description : Option String
  /-- Its tags, by key. -/
  tags : List Tag
  /-- Its aliases, in order. -/
  aliases : List AliasBinding
  /-- The highest version in each stage, deleted ones left out. -/
  latestVersions : List ModelVersion
deriving DecidableEq

/-- The key of the tag that makes a registered model a prompt. -/
def promptTagKey : String := "mlflow.prompt.is_prompt"

/-- Whether tags make their registered model a prompt. -/
def isPrompt (tags : List Tag) : Bool :=
  tags.any fun tag =>
    tag.key == promptTagKey && Text.sameLetters tag.value.toList "true".toList

end RunLedger
