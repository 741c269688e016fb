import RunLedger.Proofs.Metric.Association
import RunLedger.Proofs.Metric.Resubmission

/-!
# A history can be logged again

What is read of the history of a key differs from what was logged: a negative zero has lost its
sign and an infinity has become the largest finite number. Still it takes the places that the logged
observations have taken, in the history as in the lists of logged models, so all that is read of a
history can be logged again, and nothing comes of it.

## Main definitions

* `MetricLog.answered`: the answer that lists the observations of a key.

## Main results

* `HistoryEntry.accept_readBack`: an observation is kept as it was, once it has been read back.
* `Operation.exists_observed_of_mem_answered`: what is listed was logged and read back.
* `MetricLog.leads_logMetrics_answered`: logging an answer again.
-/

namespace RunLedger

open MetricLog Work

/-- An observation that was read back is kept like the one that was logged. -/
theorem HistoryEntry.accept_readBack (runId : String) (m : Metric) :
    accept runId m.readBack = accept runId m := by
  have hreading := Reading.stored_ofValue_readBack m.value
  simp only [accept, ofMetric, stored, Metric.point, Point.stored, Metric.readBack, hreading]

/-- An observation that was read back takes the places of the one that was logged. -/
theorem Database.HasTaken.readBack {db : Database} {runId : String} {m : Metric}
    (h : db.HasTaken { runId, metric := m }) : db.HasTaken { runId, metric := m.readBack } where
  history := by
    rw [HistoryEntry.accept_readBack]
    exact h.history
  models e he := by
    refine h.models e ?_
    have hreading := Reading.stored_ofValue_readBack m.value
    simp only [Observation.entryIfTied, HistoryEntry.modelEntry?, HistoryEntry.ofMetric,
      Metric.point, Metric.readBack, hreading] at he ⊢
    exact he

namespace MetricLog

/-- The answer that lists the observations of a key of a run. -/
def answered (runId key : String) (db : Database) : List Metric :=
  ((observations runId key db).mergeSort noLater).map HistoryEntry.metric

end MetricLog

/-- All observations of an answer are of its key. -/
theorem MetricLog.key_of_mem_answered {runId key : String} {db : Database} {m : Metric}
    (h : m ∈ answered runId key db) : m.key = key := by
  obtain ⟨e, he, rfl⟩ := List.mem_map.mp h
  rw [List.mem_mergeSort] at he
  exact beq_iff_eq.mp (List.mem_filter.mp he).2

/-- What is listed of a history was logged and read back. -/
theorem Operation.exists_observed_of_mem_answered {steps : List (Call × Operation)}
    {runId key : String} {m : Metric} (h : m ∈ answered runId key (performAll steps .empty).2) :
    ∃ n, { runId, metric := n } ∈ observed steps .empty ∧ m = n.readBack := by
  obtain ⟨e, he, rfl⟩ := List.mem_map.mp h
  rw [List.mem_mergeSort, observations_eq_accepted] at he
  obtain ⟨n, hn, rfl⟩ := List.mem_map.mp he
  refine ⟨n, ?_, HistoryEntry.metric_accept runId n⟩
  rcases mem_foldl_appendNew hn with hnil | hn
  · cases hnil
  · exact mem_flatten_committed.mp (List.mem_filter.mp hn).1

namespace MetricLog

variable {db : Database} {runId key : String}

/-- **A history can be logged again**, whatever is in it, and nothing comes of it. -/
theorem leads_logMetrics_answered (hdb : Reachable db) {r : RunRecord}
    (hr : db.runs.get? runId = some r) (hactive : r.stage = .active) (call : Call) :
    (Operation.logMetrics runId (answered runId key db)).run.Leads call db .nothing db := by
  have hlatest := hdb.latestInStep
  obtain ⟨steps, rfl⟩ := hdb
  have hkeys : checkKeys (answered runId key (Operation.performAll steps .empty).2) = .ok () :=
    checkKeys_eq_ok_iff.mpr fun m hm => by
      obtain ⟨n, hn, rfl⟩ := Operation.exists_observed_of_mem_answered hm
      exact Operation.isBlank_key_of_mem_observed hn
  have htaken : ∀ m ∈ answered runId key (Operation.performAll steps .empty).2,
      (Operation.performAll steps .empty).2.HasTaken { runId, metric := m } := fun m hm => by
    obtain ⟨n, hn, rfl⟩ := Operation.exists_observed_of_mem_answered hm
    exact (Operation.hasTaken_of_mem_observed hn).readBack
  have hone :
      (answered runId key (Operation.performAll steps .empty).2).map Metric.key ⊆ [key] := by
    intro k hk
    obtain ⟨m, hm, rfl⟩ := List.mem_map.mp hk
    exact List.mem_singleton.mpr (key_of_mem_answered hm)
  have hrecord : (record runId _).Leads call _ () _ :=
    leads_record hr hactive hkeys ((Call.HasRoomFor.singleton call key).of_subset hone)
  rw [Database.logged_eq_self hlatest hr htaken] at hrecord
  exact leads_map _ hrecord

end MetricLog

end RunLedger
