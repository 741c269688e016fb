import RunLedger.Proofs.Work.Atomicity
import RunLedger.Proofs.Work.Stopping

/-!
# Calls while another unit of work is open

A unit of work holds the write lock until it ends, and it may hide tables until then. A call that
writes cannot begin a unit of its own meanwhile, so it fails, and it has changed nothing by then. A
call that only reads takes no lock. It answers as it would if no unit were open, unless the table
that it reads first is hidden.

## Main definitions

* `Work.Stalls`: a computation fails at once where it needs the write lock and another unit has it.
* `Work.Reads`: a computation takes no notice of the write lock.

## Main results

* `Operation.stalls_run`: every call that writes stalls.
* `Operation.reads_run`: every call that only reads takes no notice of the lock.
-/

namespace RunLedger

namespace Work

variable {α β : Type}

/-! ### Computations that need the write lock -/

/-- While another unit of work holds the write lock the computation fails and changes nothing. -/
def Stalls (w : Work α) : Prop :=
  ∀ call db, call.locked = true → ∃ e, w.perform call db = (.error e, db)

theorem stalls_bind {w : Work α} (hw : w.Stalls) (f : α → Work β) : (w >>= f).Stalls :=
  stops_bind hw f

/-- A unit of work that cannot have the write lock does not even begin. -/
theorem stalls_start (operation : String) : (start operation).Stalls := by
  intro call db hlocked
  rw [perform_start, Call.hindrance?, if_pos hlocked]
  cases call.pulse .entry <;> exact ⟨_, rfl⟩

theorem stalls_transact (operation : String) (body : Work α) :
    (transact operation body).Stalls :=
  stalls_bind (stalls_start operation) _

/-! ### Computations that only read -/

/-- Whether another unit of work holds the write lock, and which tables it hides, makes no
difference to the computation, unless a table that is hidden makes it fail. -/
def Reads (w : Work α) : Prop :=
  ∀ (call : Call) (db : Database) (locked : Bool) (hidden : TableName → Bool),
    (∀ table, call.hidden table = false) →
      w.perform { call with locked, hidden } db = w.perform call db ∨
        (∃ table, hidden table = true) ∧
          w.perform { call with locked, hidden } db = (.error .statementFailed, db)

theorem reads_map {f : α → β} {w : Work α} (hw : w.Reads) : (f <$> w).Reads := by
  intro call db locked hidden hvisible
  rw [perform_map, perform_map]
  rcases hw call db locked hidden hvisible with hsame | ⟨htable, hfailed⟩
  · rw [hsame]
    exact .inl rfl
  · rw [hfailed]
    exact .inr ⟨htable, rfl⟩

theorem reads_ensure_bind {rule : Except RuleViolation α} {f : α → Work β}
    (hf : ∀ a, (f a).Reads) : (ensure rule >>= f).Reads := by
  cases rule with
  | ok a => exact hf a
  | error violation => exact fun _ _ _ _ _ => .inl rfl

theorem reads_consult (operation : String) (first : TableName) (q : Query α) :
    (consult operation first q).Reads := by
  intro call db locked hidden hvisible
  simp only [perform_consult_eq, hvisible first]
  cases call.pulse .entry with
  | some cause => exact .inl rfl
  | none =>
    by_cases hfirst : hidden first = true
    · refine .inr ⟨⟨first, hfirst⟩, ?_⟩
      simp only [hfirst, if_true]
    · left
      simp only [hfirst, Bool.false_eq_true, if_false]

end Work

open Work

namespace Operation

/-- **A call that writes stalls** while another unit of work holds the write lock. -/
theorem stalls_run {operation : Operation} (h : operation.isRead = false) :
    operation.run.Stalls :=
  operation.stops_run stalls_transact fun hread => by simp [h] at hread

/-- **A call that only reads takes no notice** of the write lock. -/
theorem reads_run {operation : Operation} (h : operation.isRead = true) :
    operation.run.Reads := by
  cases operation with
  | getExperiment | getRun | metricHistory | latestMetrics | modelMetrics | getModel | getVersion
  | latestVersions => exact reads_map (reads_consult _ _ _)
  | getByAlias name aliasName =>
    exact reads_map <| reads_ensure_bind fun _ => reads_consult _ _ _
  | _ => cases h

end Operation

end RunLedger
