import RunLedger.Proofs.Work.Atomicity

/-!
# Calls one after the other

Calls reach a database through any number of handles, each call with its own context, its own
reading of the clock and its own faults. Since a unit of work holds the write lock and leaves
nothing behind if it fails, what becomes of the database is what the calls do to it one after the
other. A database is reachable if some sequence of calls leads to it from the empty one.

## Main definitions

* `Operation.performAll`: calls made one after the other.
* `Reachable`: a database that calls lead to.
* `Database.oneRun`, `Database.oneVersion`: reachable databases with one run, and with one model
  that has one version, to make calls on.

## Main results

* `Operation.eq_of_perform_error`: a call that fails leaves the database as it was.
* `Operation.performAll_invariant`: what every successful call keeps, every sequence of calls keeps.
-/

namespace RunLedger

namespace Operation

/-- Makes calls one after the other, each with what it takes from outside the database: what they
come to, and the database that they leave. -/
def performAll : List (Call × Operation) → Database → List (Except StoreError Answer) × Database
  | [], db => ([], db)
  | (call, operation) :: steps, db =>
    let (result, db) := operation.run.perform call db
    let (results, db) := performAll steps db
    (result :: results, db)

theorem performAll_cons (call : Call) (operation : Operation) (steps : List (Call × Operation))
    (db : Database) :
    performAll ((call, operation) :: steps) db =
      ((operation.run.perform call db).1 ::
          (performAll steps (operation.run.perform call db).2).1,
        (performAll steps (operation.run.perform call db).2).2) := rfl

/-- Calls can be made in parts. -/
theorem performAll_append (steps steps' : List (Call × Operation)) (db : Database) :
    (performAll (steps ++ steps') db).2 = (performAll steps' (performAll steps db).2).2 := by
  induction steps generalizing db with
  | nil => rfl
  | cons step steps ih =>
    obtain ⟨call, operation⟩ := step
    rw [List.cons_append, performAll_cons, performAll_cons, ih]

/-- A call that fails leaves the database as it was. -/
theorem eq_of_perform_error {operation : Operation} {call : Call} {db db' : Database}
    {e : StoreError} (h : operation.run.perform call db = (.error e, db')) : db' = db := by
  simpa only [h] using operation.atomic_run.unchanged (congrArg Prod.fst h)

/-- **What every successful call keeps, every sequence of calls keeps**, since a call that fails
changes nothing. -/
theorem performAll_invariant {I : Database → Prop}
    (hstep : ∀ (operation : Operation) call db a db', I db →
      operation.run.Yields call db a db' → I db')
    (steps : List (Call × Operation)) {db : Database} (h : I db) : I (performAll steps db).2 := by
  induction steps generalizing db with
  | nil => exact h
  | cons step steps ih =>
    obtain ⟨call, operation⟩ := step
    rw [performAll_cons]
    refine ih ?_
    rcases hresult : operation.run.perform call db with ⟨e | a, db'⟩
    · rwa [eq_of_perform_error hresult]
    · exact hstep operation call db a db' h hresult

end Operation

/-- Some sequence of calls, successful or not, leads from the empty database to this one. -/
def Reachable (db : Database) : Prop :=
  ∃ steps, (Operation.performAll steps .empty).2 = db

theorem Reachable.empty : Reachable .empty := ⟨[], rfl⟩

/-- A call leads on. -/
theorem Reachable.of_yields {operation : Operation} {call : Call} {db db' : Database}
    {answer : Answer} (h : Reachable db) (hyields : operation.run.Yields call db answer db') :
    Reachable db' := by
  obtain ⟨steps, rfl⟩ := h
  refine ⟨steps ++ [(call, operation)], ?_⟩
  rw [Operation.performAll_append, Operation.performAll_cons,
    show operation.run.perform call _ = (.ok answer, db') from hyields]
  rfl

/-! ### A run to log for -/

/-- The id of a run created from random bits that are all zero. -/
def zeroRun : String := "00000000000040008000000000000000"

/-- A database with one run, for which nothing is logged yet. -/
def Database.oneRun : Database :=
  (Operation.performAll [(.plain, .createExperiment "e" none []),
    (.plain, .createRun 1 "" none 0 [])] .empty).2

theorem Database.reachable_oneRun : Reachable .oneRun := ⟨_, rfl⟩

theorem Database.exists_get?_oneRun :
    ∃ r, Database.oneRun.runs.get? zeroRun = some r ∧ r.stage = .active := by
  have hstage : (Database.oneRun.runs.get? zeroRun).map RunRecord.stage = some .active := by
    decide +kernel
  exact Option.map_eq_some_iff.mp hstage

/-! ### A model to call upon -/

/-- What a version with the given tags, and nothing else to it, is created from. -/
def NewVersion.ofTags (tags : List Tag) : NewVersion where
  source := ""
  runId := none
  runLink := none
  description := none
  userId := none
  tags

/-- Such a version as a plain call that creates it answers with it. -/
def ModelVersion.ofTags (name : String) (version : Int) (tags : List Tag) : ModelVersion where
  name
  version
  creationTime := 0
  lastUpdatedTime := 0
  description := none
  userId := none
  stage := .none
  source := ""
  runId := none
  runLink := none
  status := .ready
  statusMessage := none
  tags
  aliases := []

/-- A database with one model, which has one version. -/
def Database.oneVersion : Database :=
  (Operation.performAll [(.plain, .createModel "m" none []),
    (.plain, .createVersion "m" (.ofTags []))] .empty).2

theorem Database.reachable_oneVersion : Reachable .oneVersion := ⟨_, rfl⟩

/-! ### Observations to log -/

/-- An observation of one key at one step and time. -/
def lossOf (value : Binary64) : Metric where
  key := "loss"
  value
  timestamp := 1
  step := 1
  modelId := none
  datasetName := none
  datasetDigest := none

end RunLedger
