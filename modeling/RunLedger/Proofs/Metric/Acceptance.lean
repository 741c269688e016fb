import RunLedger.Proofs.Runs.Permanence

/-!
# What calls have committed

A batch of observations counts for a run once the call that logs it has succeeded. Calls made one
after the other commit their batches in their order, and a call that fails commits nothing.

## Main definitions

* `Operation.committedBy`: the batch that one call has committed for a run.
* `Operation.committed`: the batches that a sequence of calls has committed for a run.
* `Observation`: an observation and the run that it is logged for.
* `Operation.observed`: the observations that a sequence of calls has committed, of all runs.

## Main results

* `Operation.exists_record_of_mem_observed`: what has been committed was logged in a batch.
* `Operation.flatten_committed`: what is committed for a run is what is observed of it.
-/

namespace RunLedger

namespace Operation

/-- The batch that a call has committed for a run, if it has. -/
def committedBy (runId : String) : Operation → Except StoreError Answer → List (List Metric)
  | logMetrics id metrics, .ok _ => if id = runId then [metrics] else []
  | _, _ => []

/-- The batches that calls made one after the other commit for a run, in their order. -/
def committed (runId : String) : List (Call × Operation) → Database → List (List Metric)
  | [], _ => []
  | (call, operation) :: steps, db =>
    committedBy runId operation (operation.run.perform call db).1 ++
      committed runId steps (operation.run.perform call db).2

theorem committed_append (runId : String) (steps steps' : List (Call × Operation))
    (db : Database) :
    committed runId (steps ++ steps') db =
      committed runId steps db ++ committed runId steps' (performAll steps db).2 := by
  induction steps generalizing db with
  | nil => rfl
  | cons step steps ih =>
    obtain ⟨call, operation⟩ := step
    rw [List.cons_append, committed, committed, ih, performAll_cons, List.append_assoc]

theorem committedBy_error (runId : String) (operation : Operation) (e : StoreError) :
    committedBy runId operation (.error e) = [] := by
  cases operation <;> rfl

theorem committedBy_eq_nil {operation : Operation}
    (h : ∀ runId metrics, operation ≠ .logMetrics runId metrics) (runId : String)
    (result : Except StoreError Answer) : committedBy runId operation result = [] := by
  cases operation with
  | logMetrics id metrics => exact absurd rfl (h id metrics)
  | _ => rfl

theorem committedBy_rebuildLatest (runId id : String) (result : Except StoreError Answer) :
    committedBy runId (.rebuildLatest id) result = [] :=
  committedBy_eq_nil (fun _ _ h => by cases h) runId result

/-- A batch is committed for a run only by a call that logs it there and succeeds. -/
theorem eq_of_mem_committedBy {runId : String} {operation : Operation}
    {result : Except StoreError Answer} {metrics : List Metric}
    (h : metrics ∈ committedBy runId operation result) :
    operation = .logMetrics runId metrics ∧ ∃ a, result = .ok a := by
  cases result with
  | error e =>
    rw [committedBy_error] at h
    cases h
  | ok a =>
    refine ⟨?_, a, rfl⟩
    cases operation with
    | logMetrics id logged =>
      rw [committedBy] at h
      split_ifs at h with hid
      · rw [hid, List.mem_singleton.mp h]
      · cases h
    | _ => cases h

end Operation

/-! ### Observations of all runs -/

/-- An observation and the run that it is logged for. -/
structure Observation where
  /-- The run. -/
  runId : String
  /-- What is logged. -/
  metric : Metric
deriving DecidableEq

namespace Operation

/-- The observations that a call has committed, of whatever run. -/
def observedBy : Operation → Except StoreError Answer → List Observation
  | logMetrics runId metrics, .ok _ => metrics.map fun metric => { runId, metric }
  | _, _ => []

/-- The observations that calls made one after the other commit, in their order. -/
def observed : List (Call × Operation) → Database → List Observation
  | [], _ => []
  | (call, operation) :: steps, db =>
    observedBy operation (operation.run.perform call db).1 ++
      observed steps (operation.run.perform call db).2

theorem observedBy_error (operation : Operation) (e : StoreError) :
    observedBy operation (.error e) = [] := by
  cases operation <;> rfl

theorem observedBy_eq_nil {operation : Operation}
    (h : ∀ runId metrics, operation ≠ .logMetrics runId metrics)
    (result : Except StoreError Answer) : observedBy operation result = [] := by
  cases operation with
  | logMetrics id metrics => exact absurd rfl (h id metrics)
  | _ => rfl

/-- An observation is committed only by a call that logs it in a batch and succeeds. -/
theorem eq_of_mem_observedBy {operation : Operation} {result : Except StoreError Answer}
    {o : Observation} (h : o ∈ observedBy operation result) :
    ∃ metrics, operation = .logMetrics o.runId metrics ∧ o.metric ∈ metrics ∧
      ∃ a, result = .ok a := by
  cases result with
  | error e =>
    rw [observedBy_error] at h
    cases h
  | ok a =>
    cases operation with
    | logMetrics runId metrics =>
      obtain ⟨m, hm, rfl⟩ := List.mem_map.mp h
      exact ⟨metrics, rfl, hm, a, rfl⟩
    | _ => cases h

/-- What has been committed was logged in a batch, on a database whose runs are all still there. -/
theorem exists_record_of_mem_observed {steps : List (Call × Operation)} {db : Database}
    {o : Observation} (h : o ∈ observed steps db) :
    ∃ call metrics before after, o.metric ∈ metrics ∧
      (MetricLog.record o.runId metrics).Yields call before () after ∧
      before.KeepsRuns (performAll steps db).2 := by
  induction steps generalizing db with
  | nil => cases h
  | cons step steps ih =>
    obtain ⟨call, operation⟩ := step
    rw [observed] at h
    rcases List.mem_append.mp h with h | h
    · obtain ⟨metrics, rfl, hm, a, hok⟩ := eq_of_mem_observedBy h
      obtain ⟨_, hrecord, -⟩ := (Work.yields_map _ _).mp (Prod.ext hok rfl)
      exact ⟨call, metrics, db, _, hm, hrecord, keepsRuns_performAll _ db⟩
    · exact ih h

/-- The runs of all observations that have been committed are there. -/
theorem exists_run_of_mem_observed {steps : List (Call × Operation)} {db : Database}
    {o : Observation} (h : o ∈ observed steps db) :
    ∃ r, (performAll steps db).2.runs.get? o.runId = some r := by
  obtain ⟨_, _, before, _, -, hrecord, hkeeps⟩ := exists_record_of_mem_observed h
  obtain ⟨r, hr, -⟩ := MetricLog.record_inversion hrecord
  obtain ⟨r', hr', -⟩ := hkeeps o.runId r hr
  exact ⟨r', hr'⟩

/-- The keys of all observations that have been committed are given. -/
theorem isBlank_key_of_mem_observed {steps : List (Call × Operation)} {db : Database}
    {o : Observation} (h : o ∈ observed steps db) : Text.isBlank o.metric.key = false := by
  obtain ⟨_, _, _, _, hm, hrecord, -⟩ := exists_record_of_mem_observed h
  obtain ⟨_, -, -, hkeys, -⟩ := MetricLog.record_inversion hrecord
  exact MetricLog.checkKeys_eq_ok_iff.mp hkeys o.metric hm

/-- What is committed for a run is what is observed of it. -/
theorem flatten_committed (runId : String) (steps : List (Call × Operation)) (db : Database) :
    (committed runId steps db).flatten =
      ((observed steps db).filter fun o => o.runId = runId).map Observation.metric := by
  induction steps generalizing db with
  | nil => rfl
  | cons step steps ih =>
    obtain ⟨call, operation⟩ := step
    have hstep (result : Except StoreError Answer) : (committedBy runId operation result).flatten =
        ((observedBy operation result).filter fun o => o.runId = runId).map
          Observation.metric := by
      cases result with
      | error e =>
        rw [committedBy_error, observedBy_error]
        rfl
      | ok a =>
        cases operation with
        | logMetrics id metrics =>
          by_cases hid : id = runId <;>
            simp [committedBy, observedBy, List.filter_map, Function.comp_def, hid]
        | _ => rfl
    rw [committed, observed, List.flatten_append, List.filter_append, List.map_append, hstep, ih]

theorem mem_flatten_committed {runId : String} {steps : List (Call × Operation)} {db : Database}
    {m : Metric} :
    m ∈ (committed runId steps db).flatten ↔ { runId, metric := m } ∈ observed steps db := by
  rw [flatten_committed, List.mem_map]
  constructor
  · rintro ⟨o, ho, rfl⟩
    obtain ⟨ho, hrun⟩ := List.mem_filter.mp ho
    rwa [← of_decide_eq_true hrun]
  · intro h
    exact ⟨_, List.mem_filter.mpr ⟨h, decide_eq_true rfl⟩, rfl⟩

end Operation

end RunLedger
