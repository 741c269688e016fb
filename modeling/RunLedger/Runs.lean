import RunLedger.Experiments

/-!
# Runs

A run is created in an active experiment under an identifier of 32 hexadecimal digits made from
random bits. It can be deleted and restored any number of times; while it is deleted it accepts no
metrics.

## Main definitions

* `Runs.identifier`: the identifier made from random bits.
* `RunRecord.entity`: a run as it is answered.
* `Runs.require`, `Runs.load`, `Runs.requireActive`: the run with an id, or the reason there is
  none.
* `Runs.create`, `Runs.get`, `Runs.delete`, `Runs.restore`: the calls.
-/

namespace RunLedger

/-- A run as it is answered. -/
def RunRecord.entity (r : RunRecord) (id : String) : Run where
  id
  experimentId := r.experimentId
  name := r.name
  userId := r.userId
  status := r.status
  startTime := r.startTime
  endTime := r.endTime
  artifactUri := r.artifactUri
  stage := r.stage
  deletedTime := r.deletedTime

namespace Runs

open Work

/-- The bits of an identifier that are random. -/
def randomBits : Nat := 0xFFFFFFFFFFFF0FFF3FFFFFFFFFFFFFFF

/-- The bits that mark an identifier as a random one: a version digit 4, and the variant bits 10. -/
def versionBits : Nat := 0x00000000000040008000000000000000

/-- The last `n` hexadecimal digits of a number. -/
def hexDigits : Nat → Nat → List Char
  | 0, _ => []
  | n + 1, m => hexDigits n (m / 16) ++ [Nat.digitChar (m % 16)]

/-- The identifier made from 128 random bits. -/
def identifier (entropy : Nat) : String :=
  String.ofList (hexDigits 32 ((entropy &&& randomBits) ||| versionBits))

/-- The record of the run with the given id. -/
def require (id : String) : Query RunRecord := do
  match (← read).runs.get? id with
  | some r => return r
  | none => throw (.runNotFound id)

theorem require_eq_ok_iff {id : String} {db : Database} {r : RunRecord} :
    (require id).run db = .ok r ↔ db.runs.get? id = some r := by
  change (match db.runs.get? id with
    | some r => (pure r : Query RunRecord)
    | none => throw (StoreError.runNotFound id)).run db = _ ↔ _
  cases db.runs.get? id with
  | none => exact iff_of_false nofun nofun
  | some r' =>
    exact ⟨fun h => congrArg some (Except.ok.inj h), fun h => congrArg _ (Option.some.inj h)⟩

/-- The run with the given id. -/
def load (id : String) : Query Run := do
  return (← require id).entity id

/-- The record of the run with the given id, which must be active. -/
def requireActive (id : String) : Query RunRecord := do
  let r ← require id
  if r.stage = .active then return r else throw (.runNotActive id r.stage)

theorem requireActive_eq_ok_iff {id : String} {db : Database} {r : RunRecord} :
    (requireActive id).run db = .ok r ↔ db.runs.get? id = some r ∧ r.stage = .active := by
  change ((require id).run db >>= fun r =>
    (if r.stage = .active then pure r else throw (StoreError.runNotActive id r.stage) :
      Query RunRecord).run db) = _ ↔ _
  rw [← require_eq_ok_iff]
  cases (require id).run db with
  | error e => exact iff_of_false nofun nofun
  | ok r' =>
    change (if r'.stage = .active then pure r' else throw (StoreError.runNotActive id r'.stage) :
      Query RunRecord).run db = _ ↔ _
    split
    · next hr =>
      refine ⟨fun h => ?_, fun h => h.1⟩
      obtain rfl : r' = r := Except.ok.inj h
      exact ⟨rfl, hr⟩
    · next hr =>
      refine iff_of_false nofun fun h => ?_
      obtain rfl : r' = r := Except.ok.inj h.1
      exact hr h.2

/-- Stores the record of a run. -/
def put (id : String) (r : RunRecord) : Work Unit :=
  modify fun db => { db with runs := db.runs.insert id r }

/-- Sets one tag of a run. -/
def setTag (id : String) (tag : Tag) : Work Unit := do
  let r ← ask (require id)
  attemptUpsert .runTags (runTagRow id tag.key tag.value) (r.tags.contains tag.key)
  put id { r with tags := r.tags.insert tag.key tag.value }

/-- The place for the artifacts of a run of an experiment with the given place. -/
def artifactUri (location id : String) : String :=
  Text.withoutTrailingSlashes location ++ "/" ++ id ++ "/artifacts"

/-- The experiment that a new run is to belong to must be active. -/
def requireOpen (experimentId : Int) : Query ExperimentRecord := do
  let e ← Experiments.require experimentId
  if e.stage = .active then return e else throw (.experimentNotActive experimentId e.stage)

/-- Inserts the record of a new run. -/
def insertNew (id : String) (r : RunRecord) : Work Unit := do
  attemptOr (.activityFailed "error creating run") .insert .runs [r.row id]
  if (← get).runs.contains id then throw (.activityFailed "error creating run")
  put id r

/-- Creates a run. Of tags with one key the last one stays. -/
def create (experimentId : Int) (name : String) (userId : Option String) (startTime : Int)
    (tags : List Tag) : Work Run :=
  transact "create_run" do
    let e ← ask (requireOpen experimentId)
    let id := identifier (← read).entropy
    insertNew id
      { experimentId, name, userId, status := "RUNNING", startTime, endTime := none,
        deletedTime := none, stage := .active, artifactUri := artifactUri e.artifactLocation id,
        tags := .empty, latest := .empty }
    tags.forM (setTag id)
    ask (load id)

/-- The run with the given id. -/
def get (id : String) : Work Run := consult "get_run_info" .runs (load id)

/-- Changes the columns of a run. -/
def alter (id : String) (f : RunRecord → RunRecord) : Work Unit := do
  let r ← ask (require id)
  attempt .update .runs [(f r).row id]
  put id (f r)

/-- Deletes a run; it stays stored and can be restored. -/
def delete (id : String) : Work Unit :=
  transact "delete_run" do
    let now := (← read).now
    alter id fun r => { r with stage := .deleted, deletedTime := some now }

/-- Restores a deleted run. -/
def restore (id : String) : Work Unit :=
  transact "restore_run" do
    alter id fun r => { r with stage := .active, deletedTime := none }

end Runs

end RunLedger
