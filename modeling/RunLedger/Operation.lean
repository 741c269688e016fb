import RunLedger.Aliases
import RunLedger.MetricLog
import RunLedger.Versions

/-!
# Operations

Every call that the ledger offers, as a value, so that sequences of calls can be written down, and
what each call answers with.

## Main definitions

* `Operation`: the calls with their arguments.
* `Operation.isRead`: the calls that only read.
* `Answer`: what calls answer with.
* `Operation.run`: carries a call out.
-/

namespace RunLedger

/-- A call to the ledger. -/
inductive Operation
  | createExperiment (name : String) (location : Option String) (tags : List Tag)
  | getExperiment (id : Int)
  | createRun (experimentId : Int) (name : String) (userId : Option String) (startTime : Int)
      (tags : List Tag)
  | getRun (id : String)
  | deleteRun (id : String)
  | restoreRun (id : String)
  | logMetrics (runId : String) (metrics : List Metric)
  | metricHistory (runId key : String)
  | latestMetrics (runId : String)
  | rebuildLatest (runId : String)
  | modelMetrics (modelId : String)
  | createModel (name : String) (description : Option String) (tags : List Tag)
  | getModel (name : String)
  | updateModel (name : String) (description : Option String)
  | renameModel (name newName : String)
  | deleteModel (name : String)
  | setModelTag (name key value : String)
  | deleteModelTag (name key : String)
  | setAlias (name aliasName : String) (version : Int)
  | deleteAlias (name aliasName : String)
  | getByAlias (name aliasName : String)
  | createVersion (name : String) (new : NewVersion)
  | getVersion (name : String) (version : Int)
  | latestVersions (name : String) (stages : List VersionStage)
  | updateVersion (name : String) (version : Int) (description : Option String)
  | transition (name : String) (version : Int) (stage : VersionStage) (archiveExisting : Bool)
  | deleteVersion (name : String) (version : Int)
  | setVersionTag (name : String) (version : Int) (key value : String)
  | deleteVersionTag (name : String) (version : Int) (key : String)
deriving DecidableEq

/-- What a call answers with. -/
inductive Answer
  | nothing
  | number (n : Int)
  | experiment (e : Experiment)
  | run (r : Run)
  | metrics (ms : List Metric)
  | modelMetrics (ms : List ModelMetric)
  | model (m : RegisteredModel)
  | version (v : ModelVersion)
  | versions (vs : List ModelVersion)
deriving DecidableEq

namespace Operation

/-- The call that logs one observation is that of a batch of one. -/
def logMetric (runId : String) (metric : Metric) : Operation := logMetrics runId [metric]

/-- Whether a call only reads. -/
def isRead : Operation → Bool
  | getExperiment _ | getRun _ | metricHistory _ _ | latestMetrics _ | modelMetrics _ | getModel _
  | getByAlias _ _ | getVersion _ _ | latestVersions _ _ => true
  | _ => false

/-- Carries a call out. -/
def run : Operation → Work Answer
  | createExperiment name location tags => .number <$> Experiments.create name location tags
  | getExperiment id => .experiment <$> Experiments.get id
  | createRun experimentId name userId startTime tags =>
    .run <$> Runs.create experimentId name userId startTime tags
  | getRun id => .run <$> Runs.get id
  | deleteRun id => (fun _ => .nothing) <$> Runs.delete id
  | restoreRun id => (fun _ => .nothing) <$> Runs.restore id
  | logMetrics runId metrics => (fun _ => .nothing) <$> MetricLog.record runId metrics
  | metricHistory runId key => .metrics <$> MetricLog.history runId key
  | latestMetrics runId => .metrics <$> MetricLog.latest runId
  | rebuildLatest runId => (fun n => .number n) <$> MetricLog.rebuild runId
  | modelMetrics modelId => .modelMetrics <$> MetricLog.ofModel modelId
  | createModel name description tags => .model <$> Models.create name description tags
  | getModel name => .model <$> Models.get name
  | updateModel name description => .model <$> Models.update name description
  | renameModel name newName => .model <$> Models.rename name newName
  | deleteModel name => (fun _ => .nothing) <$> Models.delete name
  | setModelTag name key value => (fun _ => .nothing) <$> Models.setTag name key value
  | deleteModelTag name key => (fun _ => .nothing) <$> Models.deleteTag name key
  | setAlias name aliasName version => (fun _ => .nothing) <$> Aliases.set name aliasName version
  | deleteAlias name aliasName => (fun _ => .nothing) <$> Aliases.delete name aliasName
  | getByAlias name aliasName => .version <$> Aliases.get name aliasName
  | createVersion name new => .version <$> Versions.create name new
  | getVersion name version => .version <$> Versions.get name version
  | latestVersions name stages => .versions <$> Versions.latest name stages
  | updateVersion name version description => .version <$> Versions.update name version description
  | transition name version stage archiveExisting =>
    .version <$> Versions.transition name version stage archiveExisting
  | deleteVersion name version => (fun _ => .nothing) <$> Versions.delete name version
  | setVersionTag name version key value =>
    (fun _ => .nothing) <$> Versions.setTag name version key value
  | deleteVersionTag name version key =>
    (fun _ => .nothing) <$> Versions.deleteTag name version key

end Operation

end RunLedger
