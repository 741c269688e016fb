import RunLedger.Stage

/-!
# Errors

A request can break a rule before any table is touched (`RuleViolation`), or fail in the store
(`StoreError`). Both list the causes; the wording is in one function each, and every store error
has one of five stable codes.

## Main definitions

* `RuleViolation`, `RuleViolation.message`.
* `Interrupt`: how a call's context can stop it.
* `ErrorCode`: the stable codes.
* `StoreError`, `StoreError.code`, `StoreError.message`.
* `StoreError.during`: names the activity in which an internal error arose.
-/

namespace RunLedger

/-- A request that breaks one of the rules for names, aliases, versions and stages. -/
inductive RuleViolation
  /-- The text names no stage that a caller may use. -/
  | invalidStage (input : String)
  /-- The alias is empty or has a character that is not allowed. -/
  | invalidAliasSyntax (aliasName : String)
  /-- The alias is reserved for the newest version. -/
  | reservedLatestAlias
  /-- The alias looks like a version number. -/
  | reservedVersionAlias (aliasName : String)
  /-- The text is not a version number. -/
  | invalidVersion (input : String)
  /-- A required parameter is blank. -/
  | missingField (field : String)
  /-- Other versions can be archived only when entering Staging or Production. -/
  | archiveRequiresActiveStage (stage : VersionStage)
deriving DecidableEq

namespace RuleViolation

/-- The wording of a violation. -/
def message : RuleViolation → String
  | invalidStage input =>
    "Invalid Model Version stage: " ++ input ++ ". Value must be one of "
      ++ VersionStage.namedText ++ "."
  | invalidAliasSyntax aliasName =>
    "Invalid alias name: " ++ aliasName
      ++ ". Names may only contain alphanumerics, underscores (_), and dashes (-)."
  | reservedLatestAlias => "'latest' alias name (case insensitive) is reserved."
  | reservedVersionAlias aliasName => "Version alias name '" ++ aliasName ++ "' is reserved."
  | invalidVersion input => "Model version must be an integer, got '" ++ input ++ "'"
  | missingField field => "Missing value for required parameter '" ++ field ++ "'."
  | archiveRequiresActiveStage stage =>
    "Model version transition cannot archive existing model versions because '" ++ stage.stored
      ++ "' is not an Active stage. Valid stages are Staging, Production"

end RuleViolation

/-- How a call's context can stop it. -/
inductive Interrupt
  | cancelled
  | pastDeadline
deriving DecidableEq

/-- The stable codes handed to callers. -/
inductive ErrorCode
  | invalidParameterValue
  | resourceDoesNotExist
  | resourceAlreadyExists
  | invalidState
  | internalError
deriving DecidableEq

namespace ErrorCode

/-- The spelling of a code. -/
def text : ErrorCode → String
  | invalidParameterValue => "INVALID_PARAMETER_VALUE"
  | resourceDoesNotExist => "RESOURCE_DOES_NOT_EXIST"
  | resourceAlreadyExists => "RESOURCE_ALREADY_EXISTS"
  | invalidState => "INVALID_STATE"
  | internalError => "INTERNAL_ERROR"

/-- The code with the given spelling. -/
def ofText? (s : String) : Option ErrorCode :=
  [invalidParameterValue, resourceDoesNotExist, resourceAlreadyExists, invalidState,
    internalError].find? fun code => code.text == s

end ErrorCode

/-- A call that failed, by its cause. -/
inductive StoreError
  /-- The request breaks a rule. -/
  | rule (violation : RuleViolation)
  /-- An experiment needs a name. -/
  | blankExperimentName
  /-- A metric needs a key. -/
  | blankMetricKey (key : String)
  /-- No experiment has this id. -/
  | experimentNotFound (id : Int)
  /-- No run has this id. -/
  | runNotFound (id : String)
  /-- No registered model has this name. -/
  | modelNotFound (name : String)
  /-- The model has no such version, or it was deleted. -/
  | versionNotFound (name : String) (version : Int)
  /-- The model has no such alias. -/
  | aliasNotFound (aliasName : String)
  /-- An active experiment has this name. -/
  | experimentExists (name : String)
  /-- The name is taken; prompts and other models share one name space. -/
  | modelExists (name : String) (existingIsPrompt newIsPrompt : Bool)
  /-- Runs can be created only in an active experiment. -/
  | experimentNotActive (id : Int) (stage : LifecycleStage)
  /-- Metrics can be logged only for an active run. -/
  | runNotActive (id : String) (stage : LifecycleStage)
  /-- The call's context stopped it. -/
  | interrupted (operation : String) (cause : Interrupt)
  /-- Another unit of work holds the write lock. -/
  | lockTimeout (operation : String)
  /-- A unit of work cannot begin. -/
  | beginFailed (operation : String)
  /-- A unit of work cannot commit. -/
  | commitFailed (operation : String)
  /-- A statement failed. -/
  | statementFailed
  /-- The statement at the heart of an activity failed. -/
  | activityFailed (activity : String)
  /-- The database has a newer schema than this ledger knows. -/
  | unsupportedSchema (version newest : Int)
  /-- The database could not be opened. -/
  | openFailed (path : String)
  /-- The waiting time for the write lock is too long to be kept. Whoever opens a database with it
  stops at once. -/
  | waitTooLong
  /-- A configuration needs a path. -/
  | emptyPath
  /-- A configuration needs a positive chunk size. -/
  | zeroChunkSize
  /-- A failure that a unit of work reports itself. -/
  | reported (code : ErrorCode) (message : String)
  /-- An internal error and the activity in which it arose. -/
  | inActivity (activity : String) (cause : StoreError)
deriving DecidableEq

namespace StoreError

/-- The code of an error. -/
def code : StoreError → ErrorCode
  | rule _ | blankExperimentName | blankMetricKey _ | experimentNotActive _ _ | emptyPath
  | zeroChunkSize => .invalidParameterValue
  | experimentNotFound _ | runNotFound _ | modelNotFound _ | versionNotFound _ _
  | aliasNotFound _ => .resourceDoesNotExist
  | experimentExists _ | modelExists _ _ _ => .resourceAlreadyExists
  | runNotActive _ _ => .invalidState
  | interrupted _ _ | lockTimeout _ | beginFailed _ | commitFailed _ | statementFailed
  | activityFailed _ | unsupportedSchema _ _ | openFailed _ | waitTooLong | inActivity _ _ =>
    .internalError
  | reported code _ => code

/-- What a registered model is called, by whether it is a prompt. -/
def kindText (isPrompt : Bool) : String :=
  if isPrompt then "prompt" else "registered model"

/-- Why a name cannot be used for another model. -/
def modelExistsText (name : String) (existingIsPrompt newIsPrompt : Bool) : String :=
  if existingIsPrompt != newIsPrompt then
    "Tried to create a " ++ kindText newIsPrompt ++ " with name '" ++ name
      ++ "', but the name is already taken by a " ++ kindText existingIsPrompt
      ++ ". Prompts and registered models share one name space; choose a different name."
  else if newIsPrompt then "Prompt (name=" ++ name ++ ") already exists."
  else "Registered Model (name=" ++ name ++ ") already exists."

/-- The wording of an error. -/
def message : StoreError → String
  | rule violation => violation.message
  | blankExperimentName => "Invalid experiment name: must not be empty"
  | blankMetricKey key =>
    "Invalid metric name: '" ++ key ++ "'. Metric names must not be empty."
  | experimentNotFound id => "No Experiment with id=" ++ toString id ++ " exists"
  | runNotFound id => "Run with id=" ++ id ++ " not found"
  | modelNotFound name => "Registered Model with name=" ++ name ++ " not found"
  | versionNotFound name version =>
    "Model Version (name=" ++ name ++ ", version=" ++ toString version ++ ") not found"
  | aliasNotFound aliasName => "Registered model alias " ++ aliasName ++ " not found."
  | experimentExists name => "Experiment(name=" ++ name ++ ") already exists."
  | modelExists name existing new => modelExistsText name existing new
  | experimentNotActive id stage =>
    "The experiment " ++ toString id ++ " must be in the 'active' state. Current state is "
      ++ stage.stored ++ "."
  | runNotActive id stage =>
    "The run " ++ id ++ " must be in the 'active' state. Current state is " ++ stage.stored ++ "."
  | interrupted operation .cancelled => operation ++ " cancelled"
  | interrupted operation .pastDeadline => operation ++ " exceeded its deadline"
  | lockTimeout operation => operation ++ " timed out waiting for the write lock"
  | beginFailed operation => "failed to begin " ++ operation
  | commitFailed operation => "failed to commit " ++ operation
  | statementFailed => "sqlite error"
  | activityFailed activity => activity
  | unsupportedSchema version newest =>
    "unsupported schema version " ++ toString version ++ ", max supported " ++ toString newest
  | openFailed path => "failed to open " ++ path
  | waitTooLong => "busy_timeout_ms is too large"
  | emptyPath => "store path must not be empty"
  | zeroChunkSize => "latest_metrics_chunk_size must be greater than zero"
  | reported _ message => message
  | inActivity activity cause => activity ++ ": " ++ cause.message

/-- Names the activity in which an internal error arose; every other error stays as it is. -/
def during (activity : String) (e : StoreError) : StoreError :=
  if e.code = .internalError then .inActivity activity e else e

theorem code_during (activity : String) (e : StoreError) : (e.during activity).code = e.code := by
  unfold during
  split
  · simp_all [code]
  · rfl

end StoreError

end RunLedger
