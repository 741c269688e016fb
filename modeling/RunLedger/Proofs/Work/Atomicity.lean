import RunLedger.Operation
import RunLedger.Proofs.Work.Frame
import RunLedger.Proofs.Work.Success

/-!
# Calls commit whole or not at all

A computation is atomic if it changes the database only when it succeeds, and only under a context
that is alive when it starts and when it ends. A unit of work is atomic whatever its body does,
since a failure of the body, of a checkpoint or of the start takes every write back. Every call of
the ledger checks its arguments first and makes all its writes in one unit of work, so every call is
atomic.

## Main definitions

* `Work.Atomic`: whatever is changed is committed, and under a live context.

## Main results

* `Work.atomic_transact`: a unit of work is atomic.
* `Operation.atomic_run`: every call is atomic.
* `failure_changes_nothing_and_commit_needs_live_context`: what a failure leaves behind, and what a
  commit takes.
-/

namespace RunLedger

namespace Work

variable {α β : Type}

/-- The computation leaves the database as it was, or it succeeds and its context is alive both at
the start and at the end. -/
def Atomic (w : Work α) : Prop :=
  ∀ call db, (w.perform call db).2 = db ∨
    (∃ a, (w.perform call db).1 = .ok a) ∧ call.pulse .entry = none ∧ call.pulse .commit = none

/-- An atomic computation that fails leaves the database as it was. -/
theorem Atomic.unchanged {w : Work α} (h : w.Atomic) {call : Call} {db : Database} {e : StoreError}
    (he : (w.perform call db).1 = .error e) : (w.perform call db).2 = db := by
  rcases h call db with hdb | ⟨⟨a, ha⟩, -⟩
  · exact hdb
  · rw [ha] at he
    cases he

/-- A computation that never changes the database is atomic. -/
theorem Fixes.atomic {w : Work α} (h : w.Fixes id) : w.Atomic := fun call db => .inl (h call db)

/-- What is done before the first write may fail, if the rest is atomic. -/
theorem atomic_bind {w : Work α} {f : α → Work β} (hw : w.Fixes id) (hf : ∀ a, (f a).Atomic) :
    (w >>= f).Atomic := by
  intro call db
  have hw := hw call db
  rw [perform_bind]
  rcases h : w.perform call db with ⟨e | a, db'⟩ <;> rw [h] at hw
  · exact .inl hw
  · obtain rfl : db' = db := hw
    exact hf a call db'

theorem atomic_map {f : α → β} {w : Work α} (hw : w.Atomic) : (f <$> w).Atomic := by
  intro call db
  have hw := hw call db
  rw [perform_map]
  rcases h : w.perform call db with ⟨e | a, db'⟩ <;> rw [h] at hw
  · rcases hw with hdb | ⟨⟨a, ha⟩, -⟩
    · exact .inl hdb
    · cases ha
  · exact hw.imp_right fun ⟨_, hlive⟩ => ⟨⟨f a, rfl⟩, hlive⟩

theorem atomic_within {activity : String} {w : Work α} (hw : w.Atomic) :
    (within activity w).Atomic := by
  intro call db
  have hw := hw call db
  rw [within, perform_tryCatch]
  rcases h : w.perform call db with ⟨e | a, db'⟩ <;> rw [h] at hw
  · rcases hw with hdb | ⟨⟨a, ha⟩, -⟩
    · exact .inl hdb
    · cases ha
  · exact hw

theorem atomic_unless {c : Prop} [Decidable c] {e : StoreError} {w : Work α} (hw : w.Atomic) :
    (if c then (throw e : Work Unit) >>= fun _ => w else w).Atomic := by
  split
  · exact atomic_bind (fixes_throw e) fun _ => hw
  · exact hw

/-- **A unit of work is atomic**, whatever its body does before it fails. -/
theorem atomic_transact (operation : String) (body : Work α) :
    (transact operation body).Atomic := by
  intro call db
  rw [perform_transact]
  cases hentry : call.pulse .entry with
  | some cause => exact .inl rfl
  | none =>
    cases call.hindrance? operation with
    | some e => exact .inl rfl
    | none =>
      rcases body.perform call db with ⟨e | a, db'⟩
      · exact .inl rfl
      · cases hcommit : call.pulse .commit with
        | some cause => exact .inl rfl
        | none => exact .inr ⟨⟨a, rfl⟩, rfl, rfl⟩

theorem atomic_consult (operation : String) (first : TableName) (q : Query α) :
    (consult operation first q).Atomic :=
  Fixes.atomic (fixes_consult operation first q)

/-- A computation that is guarded by a rule. -/
theorem atomic_ensure_bind {rule : Except RuleViolation α} {f : α → Work β}
    (hf : ∀ a, (f a).Atomic) : (ensure rule >>= f).Atomic :=
  atomic_bind (fixes_ensure rule) hf

end Work

open Work

/-- **Every call is atomic.** -/
theorem Operation.atomic_run (operation : Operation) : operation.run.Atomic := by
  cases operation with
  | createExperiment name location tags => exact atomic_map (atomic_unless (atomic_transact _ _))
  | createModel name description tags =>
    exact atomic_map <| atomic_ensure_bind fun _ => atomic_ensure_bind fun _ => atomic_transact _ _
  | getByAlias name aliasName =>
    exact atomic_map <| atomic_ensure_bind fun _ => atomic_consult _ _ _
  | getExperiment | getRun | metricHistory | latestMetrics | modelMetrics | getModel | getVersion
  | latestVersions => exact atomic_map (atomic_consult _ _ _)
  | createRun | deleteRun | restoreRun => exact atomic_map (atomic_transact _ _)
  | rebuildLatest runId =>
    refine atomic_map ?_
    rw [bind_pure_comp]
    exact atomic_map (atomic_within (atomic_transact _ _))
  | logMetrics | updateModel | deleteModel | updateVersion | deleteVersion =>
    exact atomic_map (atomic_within (atomic_transact _ _))
  | renameModel | createVersion | transition =>
    exact atomic_map <| atomic_ensure_bind fun _ => atomic_within (atomic_transact _ _)
  | setModelTag | deleteModelTag | setAlias | deleteAlias | setVersionTag | deleteVersionTag =>
    exact atomic_map <| atomic_ensure_bind fun _ => atomic_transact _ _

/-- **Calls and units of work are all or nothing.** A call that fails leaves the whole database as
it was, the counter of experiment ids included, and so does a unit of work with any body. Whatever a
call changes it changes under a context that is alive at the start and at the end. A unit of work
commits exactly what its body has written when it succeeds, and only if the context is alive at the
start and still alive after the body. -/
theorem failure_changes_nothing_and_commit_needs_live_context :
    (∀ (operation : Operation) (call : Call) (db : Database),
      (∀ e, (operation.run.perform call db).1 = .error e →
        (operation.run.perform call db).2 = db) ∧
      ((operation.run.perform call db).2 ≠ db →
        call.pulse .entry = none ∧ call.pulse .commit = none)) ∧
    ∀ {α : Type} (name : String) (body : Work α) (call : Call) (db : Database),
      (∀ e, ((transact name body).perform call db).1 = .error e →
        ((transact name body).perform call db).2 = db) ∧
      ∀ a db', (transact name body).perform call db = (.ok a, db') →
        call.pulse .entry = none ∧ body.perform call db = (.ok a, db') ∧
          call.pulse .commit = none := by
  refine ⟨fun operation call db => ⟨fun e => operation.atomic_run.unchanged, fun hdb => ?_⟩,
    fun {α} name body call db =>
      ⟨fun e => (atomic_transact name body).unchanged, fun a db' h => ?_⟩⟩
  · exact ((operation.atomic_run call db).resolve_left hdb).2
  · obtain ⟨hentry, -, hbody, hcommit⟩ := (yields_transact name body).mp h
    exact ⟨hentry, hbody, hcommit⟩

/-- The body of a unit of work that hands out an experiment id. -/
private def handOut : Work Unit :=
  modify fun db => { db with lastExperimentId := db.lastExperimentId + 1 }

/-- An experiment that is created under a context that fires late is not there, and the id that such
a unit of work hands out is handed out again. What is committed is committed under a context that
has not fired. -/
theorem handed_out_id_comes_back_unless_committed :
    ((Operation.createExperiment "e" none []).run.perform .late .empty).2 = .empty ∧
    ((Operation.createExperiment "e" none []).run.perform .plain .empty).2 ≠ .empty ∧
    Call.plain.pulse .entry = none ∧
    ((transact "count" handOut).perform .late .empty).2 = .empty ∧
    handOut.perform .plain .empty = (.ok (), { Database.empty with lastExperimentId := 1 }) := by
  have hcreated :
      ((Operation.createExperiment "e" none []).run.perform .plain .empty).2 ≠ .empty := by
    decide +kernel
  refine ⟨?_, hcreated, ?_, ?_, ?_⟩
  · exact (failure_changes_nothing_and_commit_needs_live_context.1 (.createExperiment "e" none [])
      .late .empty).1 (.interrupted "create_experiment" .cancelled) (by decide +kernel)
  · exact ((failure_changes_nothing_and_commit_needs_live_context.1 (.createExperiment "e" none [])
      .plain .empty).2 hcreated).1
  · exact (failure_changes_nothing_and_commit_needs_live_context.2 "count" handOut .late .empty).1
      (.interrupted "count" .cancelled) rfl
  · exact ((failure_changes_nothing_and_commit_needs_live_context.2 "count" handOut .plain
      .empty).2 () _ rfl).2.1

end RunLedger
