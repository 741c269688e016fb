import RunLedger.Proofs.Metric.Logging
import RunLedger.Proofs.Trace

/-!
# Batches can be cut anywhere

Logging a batch of observations leaves the same database as logging it in parts, and in particular
as logging its observations one at a time: the same history in the same order, the same lists of
logged models, the same latest points. The number of keys that one look-up asks for plays no part,
as long as a statement can ask for as many.

## Main results

* `Operation.performAll_logMetrics`: a batch logged in parts.
* `batching_is_transparent`: a batch at once, one observation at a time, and in two parts.
-/

namespace RunLedger

open MetricLog

namespace Operation

variable {db : Database} {runId : String} {r : RunRecord}

/-- A batch that is logged in parts, by calls that nothing disturbs and that have room for them. -/
theorem performAll_logMetrics (h : db.runs.get? runId = some r) (hactive : r.stage = .active)
    (parts : List (Call × List Metric)) (hcalls : ∀ part ∈ parts, part.1.Undisturbed)
    (hroom : ∀ part ∈ parts, part.1.HasRoomFor (part.2.map Metric.key))
    (hkeys : ∀ part ∈ parts, ∀ m ∈ part.2, Text.isBlank m.key = false) :
    performAll (parts.map fun part => (part.1, logMetrics runId part.2)) db =
      (parts.map fun _ => .ok .nothing,
        db.logged runId r.experimentId
          ((parts.flatMap fun part => part.2).map (HistoryEntry.ofMetric runId))) := by
  induction parts generalizing db r with
  | nil => exact Prod.ext rfl (Database.logged_nil runId r.experimentId db).symm
  | cons part parts ih =>
    obtain ⟨call, metrics⟩ := part
    have hpart : (logMetrics runId metrics).run.perform call db = (.ok .nothing,
        db.logged runId r.experimentId (metrics.map (HistoryEntry.ofMetric runId))) :=
      (Work.leads_map _ (leads_record h hactive
        (checkKeys_eq_ok_iff.mpr (hkeys (call, metrics) (by simp)))
        (hroom (call, metrics) (by simp)))).2
        (hcalls (call, metrics) (by simp))
    have hrest := ih (Database.get?_logged_self h r.experimentId
        (metrics.map (HistoryEntry.ofMetric runId))) hactive
      (fun part hpart => hcalls part (by simp [hpart]))
      (fun part hpart => hroom part (by simp [hpart]))
      (fun part hpart => hkeys part (by simp [hpart]))
    rw [List.map_cons, performAll_cons, hpart, hrest, List.flatMap_cons, List.map_append,
      Database.logged_append]
    rfl

/-- **Batches can be cut anywhere.** For an active run and observations whose keys are all given
there is one database that is left behind by logging them as one batch, by logging them one at a
time in their order, and by logging them as two batches, wherever they are cut. Each of these calls
succeeds if nothing disturbs it, and each may ask for any number of keys in one look-up that a
statement takes; a call that logs one observation asks for one key. A batch for which a look-up
would have to ask for more is not logged as one. -/
theorem batching_is_transparent (h : db.runs.get? runId = some r) (hactive : r.stage = .active)
    {metrics : List Metric} (hkeys : ∀ m ∈ metrics, Text.isBlank m.key = false) :
    ∃ after : Database,
      (∀ call : Call, call.Undisturbed → call.HasRoomFor (metrics.map Metric.key) →
        performAll [(call, logMetrics runId metrics)] db = ([.ok .nothing], after)) ∧
      (∀ singles : List (Call × Metric), (∀ single ∈ singles, single.1.Undisturbed) →
        singles.map Prod.snd = metrics →
        performAll (singles.map fun single => (single.1, logMetric runId single.2)) db =
          (singles.map fun _ => .ok .nothing, after)) ∧
      (∀ (first second : List Metric) (call call' : Call), first ++ second = metrics →
        call.Undisturbed → call.HasRoomFor (first.map Metric.key) →
        call'.Undisturbed → call'.HasRoomFor (second.map Metric.key) →
        performAll [(call, logMetrics runId first), (call', logMetrics runId second)] db =
          ([.ok .nothing, .ok .nothing], after)) ∧
      ∀ call : Call, call.Undisturbed → ¬ call.HasRoomFor (metrics.map Metric.key) →
        (logMetrics runId metrics).run.FailsWith call db .internalError := by
  refine ⟨db.logged runId r.experimentId (metrics.map (HistoryEntry.ofMetric runId)),
    ?_, ?_, ?_, fun call hcall hroom => (failsWith_record_of_not_hasRoomFor hcall h hactive
      (checkKeys_eq_ok_iff.mpr hkeys) hroom).map _⟩
  · intro call hcall hroom
    have hbatch := performAll_logMetrics h hactive [(call, metrics)] (by simpa using hcall)
      (by simpa using hroom) (by simpa using hkeys)
    simpa using hbatch
  · rintro singles hcalls rfl
    let parts := singles.map fun single => (single.1, [single.2])
    have hflat : parts.flatMap (fun part => part.2) = singles.map Prod.snd := by
      rw [List.flatMap_map, List.map_eq_flatMap]
    have hparts := performAll_logMetrics h hactive parts
      (fun part hpart => by
        obtain ⟨single, hsingle, rfl⟩ := List.mem_map.mp hpart
        exact hcalls single hsingle)
      (fun part hpart => by
        obtain ⟨single, -, rfl⟩ := List.mem_map.mp hpart
        exact .singleton single.1 single.2.key)
      (fun part hpart m hm => hkeys m <| by
        rw [← hflat]
        exact List.mem_flatMap.mpr ⟨part, hpart, hm⟩)
    rw [hflat, List.map_map, List.map_map] at hparts
    exact hparts
  · rintro first second call call' rfl hcall hroom hcall' hroom'
    have hparts := performAll_logMetrics h hactive [(call, first), (call', second)]
      (by simp [hcall, hcall']) (by simp [hroom, hroom'])
      (by simpa [or_imp, forall_and] using hkeys)
    simpa using hparts

/-- Observations of which the last repeats the first. -/
private def repeatedNaN : List Metric :=
  [Binary64.nan, .zero, .zeroOf true, .nan].map lossOf

/-- A call that looks up one key at a time. -/
private def frugal : Call :=
  { Call.plain with config := { Call.plain.config with chunkSize := 1 } }

/-- A NaN, both zeros and the NaN again leave the same database in one batch, with one key for each
look-up, and one at a time: two observations, of which the NaN stays the latest. -/
theorem batching_is_transparent_repeatedNaN :
    (∀ m ∈ repeatedNaN, Text.isBlank m.key = false) ∧
    ∃ after : Database,
      performAll [(frugal, logMetrics zeroRun repeatedNaN)] .oneRun = ([.ok .nothing], after) ∧
      performAll (repeatedNaN.map fun m => (.plain, logMetric zeroRun m)) .oneRun =
        ([.ok .nothing, .ok .nothing, .ok .nothing, .ok .nothing], after) ∧
      after.history.length = 2 ∧
      after.rows .latest = [latestRow zeroRun "loss" ⟨1, 1, .ofValue .nan⟩] := by
  have hkeys : ∀ m ∈ repeatedNaN, Text.isBlank m.key = false := by decide +kernel
  obtain ⟨r, hr, hactive⟩ := Database.exists_get?_oneRun
  obtain ⟨after, hbatch, hsingles, -⟩ := batching_is_transparent hr hactive hkeys
  have hone := hbatch frugal { Call.plain_undisturbed with } (.inl (by decide))
  have hafter : (performAll [(frugal, logMetrics zeroRun repeatedNaN)] .oneRun).2 = after :=
    congrArg Prod.snd hone
  refine ⟨hkeys, after, hone, ?_, ?_, ?_⟩
  · exact hsingles (repeatedNaN.map fun m => (.plain, m))
      (by simp [repeatedNaN, Call.plain_undisturbed]) rfl
  · rw [← hafter]
    decide +kernel
  · rw [← hafter]
    decide +kernel

end Operation

end RunLedger
