import RunLedger.Operation
import RunLedger.Proofs.Work.Success

/-!
# Calls that something outside the database stops

What stops a unit of work before its body runs, and a call that reads before it reads, stops every
call: before that, a call only checks its arguments, so all it can do is fail, and it has changed
nothing by then. A context that has fired stops all calls in this way.

## Main definitions

* `Work.Stops`: a computation fails and changes nothing where the call is of some kind.
* `Call.HasFired`: the context of the call has fired when the call starts.

## Main results

* `Operation.stops_run`: what stops units of work and readers stops every call.
* `Operation.stops_of_hasFired`, `Work.stops_transact_of_hasFired`: a context that has fired stops
  every call, and every unit of work.
-/

namespace RunLedger

/-- The context of the call has fired when the call starts. -/
def Call.HasFired (call : Call) : Prop := ∃ cause, call.pulse .entry = some cause

namespace Work

variable {α β : Type}

/-- The computation fails and changes nothing, if the call has a certain property. -/
def Stops (p : Call → Prop) (w : Work α) : Prop :=
  ∀ call db, p call → ∃ e, w.perform call db = (.error e, db)

section Parts

variable {p : Call → Prop}

theorem stops_throw (e : StoreError) : (throw e : Work α).Stops p := fun _ _ _ => ⟨e, rfl⟩

theorem stops_map {f : α → β} {w : Work α} (hw : w.Stops p) : (f <$> w).Stops p := by
  intro call db hcall
  obtain ⟨e, he⟩ := hw call db hcall
  exact ⟨e, by rw [perform_map, he]⟩

theorem stops_bind {w : Work α} (hw : w.Stops p) (f : α → Work β) : (w >>= f).Stops p := by
  intro call db hcall
  obtain ⟨e, he⟩ := hw call db hcall
  exact ⟨e, by rw [perform_bind, he]⟩

theorem stops_ensure_bind {rule : Except RuleViolation α} {f : α → Work β}
    (hf : ∀ a, (f a).Stops p) : (ensure rule >>= f).Stops p := by
  cases rule with
  | ok a => exact hf a
  | error violation => exact stops_bind (stops_throw (.rule violation)) f

theorem stops_within {activity : String} {w : Work α} (hw : w.Stops p) :
    (within activity w).Stops p := by
  intro call db hcall
  obtain ⟨e, he⟩ := hw call db hcall
  refine ⟨e.during activity, ?_⟩
  rw [within, perform_tryCatch, he]
  rfl

theorem stops_unless {c : Prop} [Decidable c] {e : StoreError} {w : Work α} (hw : w.Stops p) :
    (if c then (throw e : Work Unit) >>= fun _ => w else w).Stops p := by
  split
  · exact stops_bind (stops_throw e) _
  · exact hw

end Parts

/-! ### Contexts that have fired -/

theorem stops_checkpoint_of_hasFired (operation : String) :
    (checkpoint operation .entry).Stops Call.HasFired := by
  rintro call db ⟨cause, hcause⟩
  exact ⟨_, by rw [perform_checkpoint, hcause]⟩

theorem stops_start_of_hasFired (operation : String) : (start operation).Stops Call.HasFired :=
  stops_bind (stops_checkpoint_of_hasFired operation) _

/-- **A context that has fired stops every unit of work.** -/
theorem stops_transact_of_hasFired (operation : String) (body : Work α) :
    (transact operation body).Stops Call.HasFired :=
  stops_bind (stops_start_of_hasFired operation) _

theorem stops_consult_of_hasFired (operation : String) (first : TableName) (q : Query α) :
    (consult operation first q).Stops Call.HasFired :=
  stops_bind (stops_checkpoint_of_hasFired operation) _

end Work

open Work

namespace Operation

variable {p : Call → Prop}

/-- **What stops units of work, and readers if the call is one, stops the call.** -/
theorem stops_run (operation : Operation)
    (htransact : ∀ {α : Type} name (body : Work α), (transact name body).Stops p)
    (hconsult : operation.isRead = true →
      ∀ {α : Type} name first (q : Query α), (consult name first q).Stops p) :
    operation.run.Stops p := by
  cases operation with
  | createExperiment name location tags => exact stops_map (stops_unless (htransact _ _))
  | createModel name description tags =>
    exact stops_map <| stops_ensure_bind fun _ => stops_ensure_bind fun _ => htransact _ _
  | getByAlias name aliasName =>
    exact stops_map <| stops_ensure_bind fun _ => hconsult rfl _ _ _
  | getExperiment | getRun | metricHistory | latestMetrics | modelMetrics | getModel | getVersion
  | latestVersions => exact stops_map (hconsult rfl _ _ _)
  | createRun | deleteRun | restoreRun => exact stops_map (htransact _ _)
  | rebuildLatest runId =>
    refine stops_map ?_
    rw [bind_pure_comp]
    exact stops_map (stops_within (htransact _ _))
  | logMetrics | updateModel | deleteModel | updateVersion | deleteVersion =>
    exact stops_map (stops_within (htransact _ _))
  | renameModel | createVersion | transition =>
    exact stops_map <| stops_ensure_bind fun _ => stops_within (htransact _ _)
  | setModelTag | deleteModelTag | setAlias | deleteAlias | setVersionTag | deleteVersionTag =>
    exact stops_map <| stops_ensure_bind fun _ => htransact _ _

/-- **A context that has fired stops every call**, those that only read included. -/
theorem stops_of_hasFired (operation : Operation) : operation.run.Stops Call.HasFired :=
  operation.stops_run stops_transact_of_hasFired fun _ => stops_consult_of_hasFired

end Operation

end RunLedger
