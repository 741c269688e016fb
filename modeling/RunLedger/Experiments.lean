import RunLedger.Work

/-!
# Experiments

An experiment is created under a name that no active experiment has, and gets the next id. Without
a place of its own for artifacts it gets one under the root that the ledger is configured with.

## Main definitions

* `ExperimentRecord.entity`: an experiment as it is answered.
* `Experiments.require`, `Experiments.load`: the experiment with an id, or the reason there is none.
* `Experiments.create`, `Experiments.get`: the calls.
-/

namespace RunLedger

/-- The tags in a table, by key. A missing value reads as the empty text. -/
def readTags (tags : Table String (Option String)) : List Tag :=
  tags.entries.map fun (key, value) => { key, value := value.getD "" }

/-- An experiment as it is answered. -/
def ExperimentRecord.entity (e : ExperimentRecord) (id : Int) : Experiment where
  id
  name := e.name
  artifactLocation := e.artifactLocation
  stage := e.stage
  creationTime := e.creationTime
  lastUpdateTime := e.lastUpdateTime
  tags := readTags e.tags

namespace Experiments

open Work

/-- The record of the experiment with the given id. -/
def require (id : Int) : Query ExperimentRecord := do
  match (← read).experiments.get? id with
  | some e => return e
  | none => throw (.experimentNotFound id)

/-- The experiment with the given id. -/
def load (id : Int) : Query Experiment := do
  return (← require id).entity id

/-- Whether an active experiment has the given name. -/
def isTaken (db : Database) (name : String) : Bool :=
  db.experiments.values.any fun e => e.stage == .active && e.name == name

/-- Stores the record of an experiment. -/
def put (id : Int) (e : ExperimentRecord) : Work Unit :=
  modify fun db => { db with experiments := db.experiments.insert id e }

/-- Sets one tag of an experiment. -/
def setTag (id : Int) (tag : Tag) : Work Unit := do
  let e ← ask (require id)
  attemptUpsert .experimentTags (experimentTagRow id tag.key (some tag.value))
    (e.tags.contains tag.key)
  put id { e with tags := e.tags.insert tag.key (some tag.value) }

/-- Inserts the record of a new experiment under the next id and returns that id. -/
def insertNext (e : ExperimentRecord) : Work Int := do
  let id := (← get).lastExperimentId + 1
  attemptOr (.activityFailed "error creating experiment") .insert .experiments [e.row id]
  if isTaken (← get) e.name then throw (.experimentExists e.name)
  modify fun db =>
    { db with experiments := db.experiments.insert id e, lastExperimentId := id }
  return id

/-- The place for the artifacts of an experiment that names none. -/
def defaultLocation (root : String) (id : Int) : String :=
  Text.withoutTrailingSlashes root ++ "/" ++ toString id

/-- Moves the artifacts of an experiment to another place. -/
def relocate (id : Int) (e : ExperimentRecord) (location : String) : Work Unit := do
  let e := { e with artifactLocation := location }
  attempt .update .experiments [e.row id]
  put id e

/-- Creates an experiment and returns its id. Of tags with one key the last one stays. -/
def create (name : String) (location : Option String) (tags : List Tag) : Work Int := do
  if Text.isBlank name then throw .blankExperimentName
  transact "create_experiment" do
    let call ← read
    let e : ExperimentRecord :=
      { name, artifactLocation := location.getD "", stage := .active, creationTime := call.now,
        lastUpdateTime := call.now, tags := .empty }
    let id ← insertNext e
    if e.artifactLocation.isEmpty then
      relocate id e (defaultLocation call.config.artifactRoot id)
    checkpoint "create_experiment" (.inside 0)
    tags.forM (setTag id)
    return id

/-- The experiment with the given id. -/
def get (id : Int) : Work Experiment := consult "get_experiment" .experiments (load id)

end Experiments

end RunLedger
