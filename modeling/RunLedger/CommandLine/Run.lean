import RunLedger.CommandLine.Command
import RunLedger.CommandLine.Opening
import RunLedger.Json.Entity
import RunLedger.Operation
import RunLedger.Rules

/-!
# Running a command

A command opens the database and carries out one call. It prints what the call answers with, or what
a second call, a reading one, then finds, or an acknowledgement. Whatever fails, the failure has a
code and a message, and what was written before the call that failed stays. A configuration whose
waiting time cannot be kept stops the program without a message. Files are read as the command finds
them: its configuration before the database is opened, a batch of metrics after that.

## Main definitions

* `Surroundings`: what a command takes from outside.
* `Failure`: why a command failed.
* `Request`, `Command.request`: the call of a command and what it prints.
* `Invocation.execute`: carries a command out.
* `Invocation.textFiles`, `Invocation.databaseFile?`: the files that a command needs.
* `Result`: what a command line comes to.
* `run`: a whole command line.
-/

namespace RunLedger.CommandLine

/-- What a command takes from outside. -/
structure Surroundings where
  /-- The reading of the wall clock. -/
  now : Int
  /-- Random bits. -/
  entropy : Nat
  /-- The path of the database in the environment. -/
  database : Option String
  /-- The files and directories. -/
  files : FileTree

/-- Why a command failed. -/
inductive Failure
  /-- A call to the ledger failed. -/
  | store (e : StoreError)
  /-- The database could not be opened. -/
  | opening (path : String) (e : StoreError)
  /-- A file could not be read. -/
  | unreadable (file : String) (problem : ReadProblem)
  /-- A file holds no configuration. -/
  | noConfig (file : String)
  /-- A file holds a configuration that cannot be used. -/
  | badConfig (file : String) (e : StoreError)
  /-- A file holds no list of metrics. -/
  | noMetrics (file : String)
deriving DecidableEq

namespace Failure

/-- The code of a failure. -/
def code : Failure → ErrorCode
  | store e | opening _ e | badConfig _ e => e.code
  | unreadable _ _ | noConfig _ | noMetrics _ => .internalError

/-- The wording of a failure. -/
def message : Failure → String
  | store e => e.message
  | opening path e => "failed to open store at " ++ path ++ ": " ++ e.message
  | unreadable file problem => "failed to read " ++ file ++ ": " ++ problem.message
  | noConfig file => "failed to load " ++ file ++ ": invalid store config"
  | badConfig file e => "failed to load " ++ file ++ ": " ++ e.message
  | noMetrics file => "failed to parse " ++ file

end Failure

/-- What a command prints after its call. -/
inductive Report
  /-- What the call answers with. -/
  | answer
  /-- What a reading call then answers with. -/
  | read (next : Answer → Operation)
  /-- An acknowledgement. -/
  | acknowledge (note : Answer → Json)

/-- A call and what is printed after it. -/
structure Request where
  /-- The call. -/
  operation : Operation
  /-- What is printed. -/
  report : Report

/-- The JSON form of an answer. -/
def answerJson : Answer → Json
  | .nothing => .null
  | .number n => .ofInt n
  | .experiment e => JsonCodec.encode e
  | .run r => JsonCodec.encode r
  | .metrics ms => JsonCodec.encode ms
  | .modelMetrics ms => JsonCodec.encode ms
  | .model m => JsonCodec.encode m
  | .version v => JsonCodec.encode v
  | .versions vs => JsonCodec.encode vs

/-- The number that a call answers with. -/
def answerNumber : Answer → Int
  | .number n => n
  | _ => 0

/-- A rule that a command breaks before its call. -/
def ruled {α : Type} (rule : Except RuleViolation α) : Except Failure α :=
  rule.mapError fun violation => .store (.rule violation)

/-- The metrics in a file. -/
def metricsIn (files : FileTree) (file : String) : Except Failure (List Metric) :=
  match files.readText file with
  | .error problem => .error (.unreadable file problem)
  | .ok s =>
    match JsonCodec.ofText? s with
    | some metrics => .ok metrics
    | none => .error (.noMetrics file)

/-- A request that prints the answer of its call. -/
def answering (operation : Operation) : Request := { operation, report := .answer }

/-- A request that prints what a second call reads. -/
def reading (operation next : Operation) : Request := { operation, report := .read fun _ => next }

/-- A request that prints an acknowledgement with fixed fields. -/
def noting (operation : Operation) (fields : List (String × Json)) : Request :=
  { operation, report := .acknowledge fun _ => Json.ofFields fields }

/-- The call of a command and what it prints, where the command has a call. -/
def Command.request (s : Surroundings) : Command → Except Failure (Option Request)
  | migrate => .ok none
  | createExperiment name location tags =>
    .ok (some { operation := .createExperiment name location tags
                report := .read fun a => .getExperiment (answerNumber a) })
  | getExperiment id => .ok (some (answering (.getExperiment id)))
  | createRun experimentId name user =>
    .ok (some (answering (.createRun experimentId name user s.now [])))
  | getRun id => .ok (some (answering (.getRun id)))
  | deleteRun id => .ok (some (reading (.deleteRun id) (.getRun id)))
  | restoreRun id => .ok (some (reading (.restoreRun id) (.getRun id)))
  | logMetric runId key value step timestamp modelId =>
    .ok (some (reading
      (.logMetric runId
        { key, value, timestamp := timestamp.getD s.now, step, modelId, datasetName := none,
          datasetDigest := none })
      (.latestMetrics runId)))
  | logBatch runId file => do
    let metrics ← metricsIn s.files file
    return some (reading (.logMetrics runId metrics) (.latestMetrics runId))
  | metricHistory runId key => .ok (some (answering (.metricHistory runId key)))
  | latestMetrics runId => .ok (some (answering (.latestMetrics runId)))
  | rebuildLatest runId =>
    .ok (some { operation := .rebuildLatest runId
                report := .acknowledge fun a => Json.ofFields
                  [("rows_written", .ofInt (answerNumber a)), ("run_id", .ofString runId)] })
  | modelMetrics modelId => .ok (some (answering (.modelMetrics modelId)))
  | createModel name description tags =>
    .ok (some (answering (.createModel name description tags)))
  | getModel name => .ok (some (answering (.getModel name)))
  | updateModel name description => .ok (some (answering (.updateModel name description)))
  | renameModel name newName => .ok (some (answering (.renameModel name newName)))
  | deleteModel name => .ok (some (noting (.deleteModel name) [("deleted", .ofString name)]))
  | setModelTag name key value =>
    .ok (some (reading (.setModelTag name key value) (.getModel name)))
  | deleteModelTag name key => .ok (some (reading (.deleteModelTag name key) (.getModel name)))
  | createVersion name source runId runLink description =>
    .ok (some (answering (.createVersion name
      { source, runId, runLink, description, userId := none, tags := [] })))
  | getVersion name version => do
    let version ← ruled (Rules.version version)
    return some (answering (.getVersion name version))
  | latestVersions name stages => do
    let stages ← ruled (stages.mapM Rules.stage)
    return some (answering (.latestVersions name stages))
  | updateVersion name version description => do
    let version ← ruled (Rules.version version)
    return some (answering (.updateVersion name version description))
  | transition name version stage archiveExisting => do
    let version ← ruled (Rules.version version)
    let stage ← ruled (Rules.stage stage)
    return some (answering (.transition name version stage archiveExisting))
  | deleteVersion name version => do
    let version ← ruled (Rules.version version)
    return some (noting (.deleteVersion name version)
      [("deleted_version", .ofInt version), ("name", .ofString name)])
  | setVersionTag name version key value => do
    let version ← ruled (Rules.version version)
    return some (reading (.setVersionTag name version key value) (.getVersion name version))
  | deleteVersionTag name version key => do
    let version ← ruled (Rules.version version)
    return some (reading (.deleteVersionTag name version key) (.getVersion name version))
  | setAlias name aliasName version => do
    let version ← ruled (Rules.version version)
    return some (reading (.setAlias name aliasName version) (.getByAlias name aliasName))
  | getByAlias name aliasName => .ok (some (answering (.getByAlias name aliasName)))
  | deleteAlias name aliasName =>
    .ok (some (noting (.deleteAlias name aliasName)
      [("deleted_alias", .ofString aliasName), ("name", .ofString name)]))

/-- Where the database is unless a command says otherwise. -/
def defaultDatabase : String := "mlmeta.db"

/-- The configuration in a file. -/
def configIn (files : FileTree) (file : String) : Except Failure Config :=
  match files.readText file with
  | .error problem => .error (.unreadable file problem)
  | .ok s =>
    match Config.ofToml? s with
    | none => .error (.noConfig file)
    | some config =>
      match config.validate with
      | .ok _ => .ok config
      | .error e => .error (.badConfig file e)

/-- The configuration of a command. A database given for the command overrides that of the file. -/
def Invocation.config (i : Invocation) (files : FileTree) : Except Failure Config := do
  let config ← match i.configFile with
    | some file => configIn files file
    | none => .ok (Config.atPath defaultDatabase)
  return match i.database with
    | some path => { config with path }
    | none => config

/-- What the calls of a command take from outside the database. The clock stands still, so a
deadline passes only if it is at once. -/
def Invocation.call (i : Invocation) (config : Config) (s : Surroundings) (writing : Writing) :
    Call where
  config
  now := s.now
  entropy := s.entropy
  faults := []
  locked := false
  hidden := fun _ => false
  writing
  pulse := fun _ => if i.timeoutMs = some 0 then some .pastDeadline else none

/-- Carries out the call of a request, and the reading call that may follow it. The database is the
one after the first call. -/
def Request.perform (r : Request) (call : Call) (db : Database) :
    Except StoreError Json × Database :=
  match r.operation.run.perform call db with
  | (.error e, db) => (.error e, db)
  | (.ok a, db) =>
    match r.report with
    | .answer => (.ok (answerJson a), db)
    | .acknowledge note => (.ok (note a), db)
    | .read next =>
      match (next a).run.perform call db with
      | (.ok b, _) => (.ok (answerJson b), db)
      | (.error e, _) => (.error e, db)

/-- What migrating prints. -/
def migrationNote (path : String) (db : Database) : Json :=
  Json.ofFields [("path", .ofString path), ("schema_version", .ofInt db.schemaVersion)]

/-- Carries a command out on an open database. -/
def Invocation.carryOut (i : Invocation) (config : Config) (s : Surroundings) (o : Opened) :
    Except Failure Json × Opened :=
  match i.command.request { s with files := o.filesDuring s.files } with
  | .error failure => (.error failure, o)
  | .ok none => (.ok (migrationNote config.path o.database), o)
  | .ok (some request) =>
    match request.perform (i.call config s o.writing) o.database with
    | (.ok json, database) => (.ok json, o.update database)
    | (.error e, database) => (.error (.store e), o.update database)

/-- Carries a command out. The files that it leaves are returned. -/
def Invocation.execute (i : Invocation) (s : Surroundings) : Except Failure Json × FileTree :=
  match i.config s.files with
  | .error failure => (.error failure, s.files)
  | .ok config =>
    match openDatabase config s.files with
    | .error (e, files) => (.error (.opening config.path e), files)
    | .ok opened =>
      let (result, opened) := i.carryOut config s opened
      (result, opened.filesAfter s.files)

/-- What a command line comes to. -/
inductive Result
  /-- The command printed its answer. -/
  | printed (text : String)
  /-- The command failed. -/
  | failed (failure : Failure)
  /-- The program stopped. -/
  | stopped
  /-- The command line asks for help. -/
  | help
  /-- The command line breaks the grammar. -/
  | misused
deriving DecidableEq

namespace Result

/-- The exit code. -/
def exitCode : Result → Nat
  | printed _ | help => 0
  | failed _ => 1
  | misused => 2
  | stopped => 101

/-- What is printed on standard output. -/
def output : Result → String
  | printed text => text
  | _ => ""

/-- The printed form of an answer, or the failure. -/
def ofAnswer : Except Failure Json → Result
  | .ok json => printed (String.ofList (json.printLines 0) ++ "\n")
  | .error (.opening _ .waitTooLong) => stopped
  | .error failure => failed failure

end Result

/-- What a command line asks to be carried out, if it keeps to the grammar. -/
def invocation? (args : List String) (environment : Option String) : Option Invocation :=
  match Levels.ofArguments args with
  | .complete path levels => Invocation.ofLevels? path levels environment
  | .help | .refused => none

/-- The text files that a command reads. -/
def Invocation.textFiles (i : Invocation) : List String :=
  i.configFile.toList ++ match i.command with
    | .logBatch _ file => [file]
    | _ => []

/-- The file that keeps the database of a command, once its configuration is found: its path and how
it may be used. -/
def Invocation.databaseFile? (i : Invocation) (files : FileTree) :
    Option (List UInt8 × Access) := do
  match Location.ofPath? (← (i.config files).toOption).path with
  | some (.file path access) => some (path, access)
  | _ => none

/-- Runs a whole command line. The files that it leaves are returned. -/
def run (args : List String) (s : Surroundings) : Result × FileTree :=
  match Levels.ofArguments args, invocation? args s.database with
  | .help, _ => (.help, s.files)
  | _, none => (.misused, s.files)
  | _, some i =>
    let (result, files) := i.execute s
    (.ofAnswer result, files)

end RunLedger.CommandLine
