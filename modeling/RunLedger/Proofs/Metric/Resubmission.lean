import RunLedger.Proofs.Metric.History
import RunLedger.Proofs.Metric.Projection

/-!
# Observations can be logged again

A client that does not learn whether a batch was stored logs its observations again. Nothing comes
of it once they have been stored, however long ago: their places in the history are taken, so are
their places in the lists of logged models, and the latest point of each key does not come before
them, since it is in step with the history, whether it has moved on or was rebuilt.

## Main definitions

* `Database.HasTaken`: the places of an observation are taken.

## Main results

* `Database.logged_eq_self`: entering observations whose places are taken changes nothing.
* `Operation.hasTaken_of_mem_observed`: the places of committed observations stay taken.
* `resubmitted_batch_changes_nothing`: logging committed observations again.
-/

namespace RunLedger

open MetricLog Work

namespace Database

/-- The places of an observation are taken, in the history and, if it is tied to a logged model, in
the list of that. -/
structure HasTaken (db : Database) (o : Observation) : Prop where
  history : db.history.any (HistoryEntry.sameSlot · (HistoryEntry.accept o.runId o.metric)) = true
  models : ∀ e, o.entryIfTied db.experimentOf = some e →
    db.modelMetrics.any (ModelEntry.sameSlot · e) = true

variable {db : Database} {runId : String} {r : RunRecord} {metrics : List Metric}

/-- An observation whose place in the history is taken does not move the latest points. -/
theorem HasTaken.raise_eq_self (hstep : db.LatestInStep) (hr : db.runs.get? runId = some r)
    {m : Metric} (h : db.HasTaken { runId, metric := m }) :
    raise r.latest (.ofMetric runId m) = r.latest := by
  obtain ⟨f, hf, hsame⟩ := List.any_eq_true.mp h.history
  obtain ⟨hrun, hkey, hpoint⟩ := HistoryEntry.sameSlot_iff.mp hsame
  have hmem : f ∈ entriesOf runId db := List.mem_filter.mpr ⟨hf, beq_iff_eq.mpr hrun⟩
  rw [hstep.latest runId r hr, ← raise_stored]
  exact raise_eq_self_of_mem hmem hkey (congrArg Point.precedence hpoint) .empty

/-- **Entering observations whose places are taken changes nothing.** -/
theorem logged_eq_self (hstep : db.LatestInStep) (hr : db.runs.get? runId = some r)
    (h : ∀ m ∈ metrics, db.HasTaken { runId, metric := m }) :
    db.logged runId r.experimentId (metrics.map (HistoryEntry.ofMetric runId)) = db := by
  have hhistory : ((metrics.map (HistoryEntry.ofMetric runId)).map HistoryEntry.stored).foldl
      (appendNew HistoryEntry.sameSlot) db.history = db.history := by
    refine foldl_appendNew_eq_self fun e he => ?_
    rw [List.map_map] at he
    obtain ⟨m, hm, rfl⟩ := List.mem_map.mp he
    exact (h m hm).history
  have hmodels : ((metrics.map (HistoryEntry.ofMetric runId)).filterMap
      (HistoryEntry.modelEntry? r.experimentId)).foldl (appendNew ModelEntry.sameSlot)
      db.modelMetrics = db.modelMetrics := by
    refine foldl_appendNew_eq_self fun e he => ?_
    rw [List.filterMap_map, ← experimentOf_of_get? hr] at he
    obtain ⟨m, hm, he⟩ := List.mem_filterMap.mp he
    exact (h m hm).models e he
  have hlatest : (metrics.map (HistoryEntry.ofMetric runId)).foldl raise r.latest = r.latest := by
    refine List.foldlRecOn (motive := (· = r.latest)) _ raise rfl fun latest hlatest e he => ?_
    obtain ⟨m, hm, rfl⟩ := List.mem_map.mp he
    rw [hlatest]
    exact (h m hm).raise_eq_self hstep hr
  rw [logged, hhistory, hmodels]
  exact (alterLatest_congr hr hlatest).trans (alterLatest_id runId db)

end Database

namespace Operation

/-- **The places of committed observations stay taken**, whatever calls follow. -/
theorem hasTaken_of_mem_observed {steps : List (Call × Operation)} {o : Observation}
    (h : o ∈ observed steps .empty) : (performAll steps .empty).2.HasTaken o where
  history := by
    have hcommitted : o.metric ∈ (committed o.runId steps .empty).flatten.filter
        fun m => m.key == o.metric.key :=
      List.mem_filter.mpr ⟨mem_flatten_committed.mpr h, beq_iff_eq.mpr rfl⟩
    have hself : HistoryEntry.sameSlot (.accept o.runId o.metric) (.accept o.runId o.metric) =
        true :=
      HistoryEntry.sameSlot_iff.mpr ⟨rfl, rfl, rfl⟩
    have htaken : (observations o.runId o.metric.key (performAll steps .empty).2).any
        (HistoryEntry.sameSlot · (.accept o.runId o.metric)) = true := by
      rw [observations_performAll]
      exact any_foldl_appendNew hself (List.mem_map_of_mem hcommitted)
    obtain ⟨e, he, hsame⟩ := List.any_eq_true.mp htaken
    exact List.any_eq_true.mpr ⟨e, (List.mem_filter.mp (List.mem_filter.mp he).1).1, hsame⟩
  models e he := by
    have hself : e.sameSlot e = true := by
      obtain ⟨modelId, -, rfl⟩ := Option.map_eq_some_iff.mp he
      simp [ModelEntry.sameSlot]
    rw [modelMetrics_eq_observed]
    exact any_foldl_appendNew hself (List.mem_filterMap.mpr ⟨o, h, he⟩)

end Operation

/-- **Logging observations again changes nothing.** Let calls have been made, successful or not, and
let a batch hold nothing but observations that they have committed for a run, in whatever batches
and whatever order. If the run is active now, a call that nothing disturbs and that has room for the
batch logs it, and whether or not a call succeeds the database is as it was before: the history, the
lists of logged models and the latest points. -/
theorem resubmitted_batch_changes_nothing (steps : List (Call × Operation)) {runId : String}
    {r : RunRecord} (hr : (Operation.performAll steps .empty).2.runs.get? runId = some r)
    (hactive : r.stage = .active) {metrics : List Metric}
    (hmetrics : ∀ m ∈ metrics, m ∈ (Operation.committed runId steps .empty).flatten)
    (call : Call) :
    let db := (Operation.performAll steps .empty).2
    let after := (Operation.logMetrics runId metrics).run.perform call db
    (call.Undisturbed → call.HasRoomFor (metrics.map Metric.key) → after.1 = .ok .nothing) ∧
      after.2 = db := by
  intro db
  have hobserved (m : Metric) (hm : m ∈ metrics) :
      { runId, metric := m } ∈ Operation.observed steps .empty :=
    Operation.mem_flatten_committed.mp (hmetrics m hm)
  have hkeys : checkKeys metrics = .ok () := checkKeys_eq_ok_iff.mpr fun m hm =>
    Operation.isBlank_key_of_mem_observed (hobserved m hm)
  have hreachable : Reachable db := ⟨steps, rfl⟩
  have hsame := Database.logged_eq_self hreachable.latestInStep hr fun m hm =>
    Operation.hasTaken_of_mem_observed (hobserved m hm)
  constructor
  · intro hcall hroom
    have hlogged := (leads_map (fun _ => Answer.nothing)
      (leads_record hr hactive hkeys hroom)).2 hcall
    exact congrArg Prod.fst hlogged
  · rcases hresult : (Operation.logMetrics runId metrics).run.perform call db with ⟨e | a, db'⟩
    · exact Operation.eq_of_perform_error hresult
    · obtain ⟨_, hrecord, -⟩ := (yields_map _ _).mp hresult
      obtain ⟨r', hr', -, -, rfl⟩ := record_inversion hrecord
      obtain rfl := Option.some.inj (hr.symm.trans hr')
      exact hsame

/-- A NaN and a negative zero for a model, then an observation of a later step. The run is deleted,
does not take a further observation, and is restored, and its latest points are rebuilt. -/
private def restored : List (Call × Operation) :=
  [(.plain, .createExperiment "e" none []), (.plain, .createRun 1 "" none 0 []),
    (.plain, .logMetrics zeroRun
      [lossOf .nan, { lossOf (.zeroOf true) with modelId := some "m" }]),
    (.plain, .logMetrics zeroRun [{ lossOf .zero with step := 2 }]),
    (.plain, .deleteRun zeroRun), (.plain, .logMetrics zeroRun [{ lossOf .zero with step := 3 }]),
    (.plain, .restoreRun zeroRun), (.plain, .rebuildLatest zeroRun)]

/-- All observations of the run can be logged again in one batch, in another order. -/
theorem resubmitted_batch_changes_nothing_restored :
    let db := (Operation.performAll restored .empty).2
    let batch := [{ lossOf .zero with step := 2 },
      { lossOf (.zeroOf true) with modelId := some "m" }, lossOf .nan]
    (∃ r, db.runs.get? zeroRun = some r ∧ r.stage = .active) ∧
    (∀ m ∈ batch, m ∈ (Operation.committed zeroRun restored .empty).flatten) ∧
    db.history.length = 3 ∧
    (Operation.logMetrics zeroRun batch).run.perform .plain db = (.ok .nothing, db) := by
  intro db batch
  have hstage : (db.runs.get? zeroRun).map RunRecord.stage = some .active := by decide +kernel
  obtain ⟨r, hr, hactive⟩ := Option.map_eq_some_iff.mp hstage
  have hbatch : ∀ m ∈ batch, m ∈ (Operation.committed zeroRun restored .empty).flatten := by
    decide +kernel
  have hagain := resubmitted_batch_changes_nothing restored hr hactive hbatch .plain
  have hroom : Call.plain.HasRoomFor (batch.map Metric.key) := .inr (by decide +kernel)
  exact ⟨⟨r, hr, hactive⟩, hbatch, by decide +kernel,
    Prod.ext (hagain.1 Call.plain_undisturbed hroom) hagain.2⟩

end RunLedger
