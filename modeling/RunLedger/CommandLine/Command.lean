import RunLedger.CommandLine.Grammar
import RunLedger.Entity

/-!
# Commands

What a command line asks for: one of the commands with its arguments, and what is given for all
commands, the options and the environment variable for the database. Versions and stages stay text:
a command that names a bad one is carried out and fails.

## Main definitions

* `Command`: the commands with their arguments.
* `Command.ofGiven?`: the command of a path and the options given for it.
* `Invocation`: a command with what is given for all of them.
* `Invocation.ofLevels?`: the invocation of a command line that keeps to the grammar.
-/

namespace RunLedger.CommandLine

/-- A command with its arguments. -/
inductive Command
  | migrate
  | createExperiment (name : String) (location : Option String) (tags : List Tag)
  | getExperiment (id : Int)
  | createRun (experimentId : Int) (name : String) (user : Option String)
  | getRun (id : String)
  | deleteRun (id : String)
  | restoreRun (id : String)
  | logMetric (runId key : String) (value : Binary64) (step : Int) (timestamp : Option Int)
      (modelId : Option String)
  | logBatch (runId file : String)
  | metricHistory (runId key : String)
  | latestMetrics (runId : String)
  | rebuildLatest (runId : String)
  | modelMetrics (modelId : String)
  | createModel (name : String) (description : Option String) (tags : List Tag)
  | getModel (name : String)
  | updateModel (name : String) (description : Option String)
  | renameModel (name newName : String)
  | deleteModel (name : String)
  | setModelTag (name key value : String)
  | deleteModelTag (name key : String)
  | createVersion (name source : String) (runId runLink description : Option String)
  | getVersion (name version : String)
  | latestVersions (name : String) (stages : List String)
  | updateVersion (name version : String) (description : Option String)
  | transition (name version stage : String) (archiveExisting : Bool)
  | deleteVersion (name version : String)
  | setVersionTag (name version key value : String)
  | deleteVersionTag (name version key : String)
  | setAlias (name aliasName version : String)
  | getByAlias (name aliasName : String)
  | deleteAlias (name aliasName : String)
deriving DecidableEq

namespace Given

/-- The value of an option that is read as an integer. -/
def int? (g : Given) (name : String) : Option Int :=
  (g.value? name).bind fun v => Text.readInt64? v.toList

/-- The value of an option that is read as an integer, if it is given. -/
def optInt? (g : Given) (name : String) : Option (Option Int) :=
  match g.value? name with
  | some v => (Text.readInt64? v.toList).map some
  | none => some none

/-- The value of an option that is a path. -/
def path? (g : Given) (name : String) : Option String := (g.value? name).bind readPath?

/-- The tags given, in order. -/
def tags? (g : Given) : Option (List Tag) :=
  (g.all "tag").mapM fun text =>
    (TagText.split? text).map fun (key, value) => { key, value }

end Given

/-- The command of a path and the options given for it. -/
def Command.ofGiven? (path : List String) (g : Given) : Option Command := do
  match path with
  | ["migrate"] => return .migrate
  | ["experiment", "create"] =>
    return .createExperiment (← g.value? "name") (g.value? "artifact-location") (← g.tags?)
  | ["experiment", "get"] => return .getExperiment (← g.int? "id")
  | ["run", "create"] =>
    return .createRun (← g.int? "experiment-id") ((g.value? "name").getD "") (g.value? "user")
  | ["run", "get"] => return .getRun (← g.value? "run-id")
  | ["run", "delete"] => return .deleteRun (← g.value? "run-id")
  | ["run", "restore"] => return .restoreRun (← g.value? "run-id")
  | ["metric", "log"] =>
    return .logMetric (← g.value? "run-id") (← g.value? "key")
      (← (g.value? "value").bind fun v => Binary64.read? v.toList)
      ((← g.optInt? "step").getD 0) (← g.optInt? "timestamp") (g.value? "model-id")
  | ["metric", "log-batch"] => return .logBatch (← g.value? "run-id") (← g.path? "file")
  | ["metric", "history"] => return .metricHistory (← g.value? "run-id") (← g.value? "key")
  | ["metric", "latest"] => return .latestMetrics (← g.value? "run-id")
  | ["metric", "rebuild"] => return .rebuildLatest (← g.value? "run-id")
  | ["metric", "for-model"] => return .modelMetrics (← g.value? "model-id")
  | ["model", "create"] =>
    return .createModel (← g.value? "name") (g.value? "description") (← g.tags?)
  | ["model", "get"] => return .getModel (← g.value? "name")
  | ["model", "update"] => return .updateModel (← g.value? "name") (g.value? "description")
  | ["model", "rename"] => return .renameModel (← g.value? "name") (← g.value? "new-name")
  | ["model", "delete"] => return .deleteModel (← g.value? "name")
  | ["model", "set-tag"] =>
    return .setModelTag (← g.value? "name") (← g.value? "key") (← g.value? "value")
  | ["model", "delete-tag"] => return .deleteModelTag (← g.value? "name") (← g.value? "key")
  | ["version", "create"] =>
    return .createVersion (← g.value? "name") (← g.value? "source") (g.value? "run-id")
      (g.value? "run-link") (g.value? "description")
  | ["version", "get"] => return .getVersion (← g.value? "name") (← g.value? "version")
  | ["version", "latest"] => return .latestVersions (← g.value? "name") (g.all "stage")
  | ["version", "update"] =>
    return .updateVersion (← g.value? "name") (← g.value? "version") (g.value? "description")
  | ["version", "transition"] =>
    return .transition (← g.value? "name") (← g.value? "version") (← g.value? "stage")
      (g.has "archive-existing")
  | ["version", "delete"] => return .deleteVersion (← g.value? "name") (← g.value? "version")
  | ["version", "set-tag"] =>
    return .setVersionTag (← g.value? "name") (← g.value? "version") (← g.value? "key")
      (← g.value? "value")
  | ["version", "delete-tag"] =>
    return .deleteVersionTag (← g.value? "name") (← g.value? "version") (← g.value? "key")
  | ["alias", "set"] =>
    return .setAlias (← g.value? "name") (← g.value? "alias") (← g.value? "version")
  | ["alias", "get"] => return .getByAlias (← g.value? "name") (← g.value? "alias")
  | ["alias", "delete"] => return .deleteAlias (← g.value? "name") (← g.value? "alias")
  | _ => none

/-- A command with what is given for all commands. -/
structure Invocation where
  /-- The file with the configuration. -/
  configFile : Option String
  /-- The database. -/
  database : Option String
  /-- After how long the command is to be given up. -/
  timeoutMs : Option Nat
  /-- The command. -/
  command : Command
deriving DecidableEq

/-- The value of an option for all commands: that of the last level at which it is given. Each level
is read, and one that cannot be read refuses the command line. -/
def deepest? {α : Type} (levels : List (Option String)) (read? : String → Option α) :
    Option (Option α) := do
  let read ← levels.mapM fun level =>
    match level with
    | some text => (read? text).map some
    | none => some none
  return read.reverse.findSome? id

/-- The path of the database: that of the last level at which it is given, or else that of the
environment, which is read for each level at which none is given. -/
def databasePath? (levels : List Given) (environment : Option String) : Option (Option String) := do
  let given ← deepest? (levels.map (Given.value? · "db")) readPath?
  if levels.all fun g => g.has "db" then return given
  else
    match environment with
    | none => return given
    | some text => return given.or (some (← readPath? text))

/-- The invocation of a command line that keeps to the grammar. -/
def Invocation.ofLevels? (path : List String) (levels : List Given) (environment : Option String) :
    Option Invocation := do
  let configFile ← deepest? (levels.map (Given.value? · "config")) readPath?
  let database ← databasePath? levels environment
  let timeoutMs ← deepest? (levels.map (Given.value? · "timeout-ms")) readTimeout?
  let command ← Command.ofGiven? path (levels.getLast?.getD [])
  return { configFile, database, timeoutMs, command }

end RunLedger.CommandLine
