import Mathlib.Data.Prod.Lex
import Mathlib.Data.String.Basic
import RunLedger.Proofs.Metric.Acceptance
import RunLedger.Proofs.Runs.Permanence

/-!
# The list of a logged model

An observation tied to a logged model enters the list of that model whether or not the history of
its run takes it, and it is dropped there only if an earlier one takes its place: one of the same
run, key, timestamp and step with the same number stored, where a missing dataset field counts as an
empty one and a NaN as a zero. So the list holds, for each place that is taken, the first of the
observations that calls have committed for it. No call takes anything away, and the experiment in
an entry stays that of its run.

## Main definitions

* `ModelSlot`, `ModelMetric.slot`: the place of an observation in the list of a logged model.
* `ModelMetric.position`: what the list is sorted by.
* `Observation.listed`: an observation as the list of a logged model shows it.
* `Operation.observedFor`, `Operation.listable`: the observations that calls have committed for a
  logged model, and how its list would show them.

## Main results

* `Operation.modelMetrics_perform`: what one call adds to the lists.
* `Operation.modelMetrics_performAll`: the lists after any calls.
* `model_lists_first_observation_of_each_place`: what is read.
-/

namespace RunLedger

open MetricLog Work

/-! ### Places -/

/-- What tells the observations of one logged model apart. -/
structure ModelSlot where
  /-- What was measured. -/
  name : String
  /-- When it was measured. -/
  timestamp : Int
  /-- At which step of the run. -/
  step : Int
  /-- The run. -/
  runId : String
  /-- The number stored for the value. -/
  value : Binary64
  /-- The dataset measured on, empty if there is none. -/
  datasetName : String
  /-- The version of that dataset, empty if there is none. -/
  datasetDigest : String
deriving DecidableEq

/-- The place of an observation in the list of a logged model. -/
def ModelMetric.slot (x : ModelMetric) : ModelSlot where
  name := x.name
  timestamp := x.timestamp
  step := x.step
  runId := x.runId
  value := x.value
  datasetName := x.datasetName.getD ""
  datasetDigest := x.datasetDigest.getD ""

/-- What the list of a logged model is sorted by: the name, then the step, then the timestamp. -/
def ModelMetric.position (x : ModelMetric) : String ×ₗ ℤ ×ₗ ℤ :=
  toLex (x.name, toLex (x.step, x.timestamp))

namespace Observation

/-- The observation as the list of a logged model shows it, for a run of the given experiment. -/
def listed (modelId : String) (experimentId : Int) (o : Observation) : ModelMetric where
  modelId
  name := o.metric.key
  timestamp := o.metric.timestamp
  step := o.metric.step
  value := (Reading.ofValue o.metric.value).stored.value
  experimentId
  runId := o.runId
  datasetName := o.metric.datasetName
  datasetDigest := o.metric.datasetDigest

/-- The entry for an observation in the list of a logged model. -/
def entry (modelId : String) (experimentId : Int) (o : Observation) : ModelEntry where
  modelId
  name := o.metric.key
  timestamp := o.metric.timestamp
  step := o.metric.step
  value := some (Reading.ofValue o.metric.value).stored.value
  experimentId
  runId := o.runId
  datasetName := o.metric.datasetName
  datasetDigest := o.metric.datasetDigest

/-- The entry for an observation, if it is tied to a logged model, where the experiments of all runs
are known. -/
def entryIfTied (experimentOf : String → Int) (o : Observation) : Option ModelEntry :=
  HistoryEntry.modelEntry? (experimentOf o.runId) (HistoryEntry.ofMetric o.runId o.metric)

/-- Entries of one logged model take one place if they are shown at one place. -/
theorem sameSlot_entry (modelId : String) (x y : Int) (o p : Observation) :
    (o.entry modelId x).sameSlot (p.entry modelId y) =
      decide ((o.listed modelId x).slot = (p.listed modelId y).slot) := by
  rw [Bool.eq_iff_iff, decide_eq_true_iff]
  simp only [ModelEntry.sameSlot, entry, ModelMetric.slot, listed, ModelSlot.mk.injEq,
    Bool.and_eq_true, beq_iff_eq, Option.isSome_some, Option.some.injEq]
  tauto

/-- The entries of one logged model among the entries of observations. -/
theorem filter_filterMap_entryIfTied (experimentOf : String → Int) (modelId : String)
    (os : List Observation) :
    (os.filterMap (entryIfTied experimentOf)).filter (fun e => e.modelId == modelId) =
      (os.filter fun o => o.metric.modelId = some modelId).map
        fun o => o.entry modelId (experimentOf o.runId) := by
  induction os with
  | nil => rfl
  | cons o os ih =>
    have hentry : o.entryIfTied experimentOf =
        o.metric.modelId.map fun id => o.entry id (experimentOf o.runId) := rfl
    rw [List.filterMap_cons, hentry, List.filter_cons]
    cases hmodel : o.metric.modelId with
    | none => simpa using ih
    | some id =>
      by_cases hid : id = modelId
      · subst hid
        simpa [entry] using ih
      · simpa [entry, hid] using ih

/-- Entering the entries of one logged model comes to showing the first observation of each
place. -/
theorem map_metric_foldl_entry (experimentOf : String → Int) (modelId : String)
    (os : List Observation) :
    ((os.map fun o => o.entry modelId (experimentOf o.runId)).foldl
        (appendNew ModelEntry.sameSlot) []).map ModelEntry.metric =
      distinct (fun x y => x.slot = y.slot)
        (os.map fun o => o.listed modelId (experimentOf o.runId)) := by
  let entry := fun o : Observation => o.entry modelId (experimentOf o.runId)
  let listed := fun o : Observation => o.listed modelId (experimentOf o.runId)
  calc ((os.map entry).foldl (appendNew ModelEntry.sameSlot) []).map ModelEntry.metric
    _ = ((distinct (fun o p => (entry o).sameSlot (entry p)) os).map entry).map ModelEntry.metric :=
        congrArg (List.map ModelEntry.metric) (distinct_map entry os)
    _ = (distinct (fun o p => (listed o).slot = (listed p).slot) os).map listed := by
        simp only [entry, sameSlot_entry, List.map_map]
        rfl
    _ = distinct (fun x y => x.slot = y.slot) (os.map listed) := by
        rw [distinct_map]

end Observation

/-! ### What calls add -/

namespace Operation

/-- **What one call adds to the lists of logged models**: the observations that it has committed,
unless their places are taken. The history plays no part. -/
theorem modelMetrics_perform (call : Call) (operation : Operation) {db : Database}
    {experimentOf : String → Int}
    (hexperiment : ∀ id r, db.runs.get? id = some r → experimentOf id = r.experimentId) :
    (operation.run.perform call db).2.modelMetrics =
      ((observedBy operation (operation.run.perform call db).1).filterMap
        (Observation.entryIfTied experimentOf)).foldl (appendNew ModelEntry.sameSlot)
        db.modelMetrics := by
  rcases hresult : operation.run.perform call db with ⟨e | a, db'⟩
  · rw [eq_of_perform_error hresult, observedBy_error]
    rfl
  · cases metricEffect hresult with
    | @logged runId metrics _ r hrun =>
      have hentries : (observedBy (.logMetrics runId metrics) (.ok a)).filterMap
          (Observation.entryIfTied experimentOf) =
          (metrics.map (HistoryEntry.ofMetric runId)).filterMap
            (HistoryEntry.modelEntry? r.experimentId) := by
        rw [observedBy, List.filterMap_map, List.filterMap_map, ← hexperiment runId r hrun]
        rfl
      rw [hentries]
      rfl
    | rebuilt => rfl
    | none hop hsame =>
      rw [observedBy_eq_nil hop, hsame.modelMetrics]
      rfl

/-- **The lists of logged models after any calls**, with the experiments that the runs then have. -/
theorem modelMetrics_performAll (steps : List (Call × Operation)) {db : Database}
    {experimentOf : String → Int}
    (hexperiment : ∀ id r, (performAll steps db).2.runs.get? id = some r →
      experimentOf id = r.experimentId) :
    (performAll steps db).2.modelMetrics =
      ((observed steps db).filterMap (Observation.entryIfTied experimentOf)).foldl
        (appendNew ModelEntry.sameSlot) db.modelMetrics := by
  induction steps generalizing db with
  | nil => rfl
  | cons step steps ih =>
    obtain ⟨call, operation⟩ := step
    have hbefore (id : String) (r : RunRecord) (hr : db.runs.get? id = some r) :
        experimentOf id = r.experimentId := by
      obtain ⟨r', hr', hsame⟩ := keepsRuns_performAll ((call, operation) :: steps) db id r hr
      rw [hexperiment id r' hr']
      exact (congrArg RunRecord.experimentId hsame :)
    rw [performAll_cons] at hexperiment ⊢
    rw [ih hexperiment, modelMetrics_perform call operation hbefore, observed,
      List.filterMap_append, List.foldl_append]

end Operation

/-! ### What is read -/

namespace MetricLog

theorem listingOrder_eq_compareLex (x y : ModelMetric) :
    listingOrder x y =
      compareLex (compareOn ModelMetric.name) (compareLex (compareOn ModelMetric.step)
        (compareLex (compareOn ModelMetric.timestamp) (compareLex (compareOn ModelMetric.runId)
          (compareLex (compareOn fun x => x.value.rank) (compareLex
            (compareOn ModelMetric.datasetName) (compareOn ModelMetric.datasetDigest)))))) x y :=
  rfl

instance : Std.TransCmp listingOrder :=
  funext₂ listingOrder_eq_compareLex ▸ inferInstance

/-- What is listed earlier has no later position. -/
theorem position_le_of_listingOrder {x y : ModelMetric} (h : (listingOrder x y).isLE = true) :
    x.position ≤ y.position := by
  rw [listingOrder, Ordering.isLE_then_iff_or, compare_lt_iff_lt, compare_eq_iff_eq,
    Ordering.isLE_then_iff_or, compare_lt_iff_lt, compare_eq_iff_eq,
    Ordering.isLE_then_iff_or, compare_lt_iff_lt, compare_eq_iff_eq] at h
  rw [ModelMetric.position, ModelMetric.position, Prod.Lex.toLex_le_toLex,
    Prod.Lex.toLex_le_toLex]
  exact h.imp_right <| And.imp_right <| Or.imp_right <| And.imp_right <|
    Or.rec le_of_lt fun heq => heq.1.le

theorem pairwise_position_mergeSort (xs : List ModelMetric) :
    (xs.mergeSort fun x y => (listingOrder x y).isLE).Pairwise
      fun x y => x.position ≤ y.position := by
  have htotal (x y : ModelMetric) :
      ((listingOrder x y).isLE || (listingOrder y x).isLE) = true := by
    have hswap : listingOrder y x = (listingOrder x y).swap := Std.OrientedCmp.eq_swap
    rw [hswap]
    cases listingOrder x y <;> rfl
  exact (List.pairwise_mergeSort (fun _ _ _ => Std.TransCmp.isLE_trans) htotal xs).imp
    position_le_of_listingOrder

/-- The answer that lists the observations tied to a logged model. -/
theorem perform_modelMetrics {reader : Call} {db : Database} (halive : reader.pulse .entry = none)
    (hvisible : reader.hidden .modelMetrics = false) (modelId : String) :
    (Operation.modelMetrics modelId).run.perform reader db =
      (.ok (.modelMetrics (((db.modelMetrics.filter fun e => e.modelId == modelId).map
        ModelEntry.metric).mergeSort fun x y => (listingOrder x y).isLE)), db) :=
  (yields_map_consult (fun _ _ => Answer.modelMetrics.inj) ..).mpr ⟨halive, hvisible, rfl, rfl⟩

end MetricLog

/-! ### The list of one logged model -/

/-- The experiment of a run, as far as the run is there. -/
def Database.experimentOf (db : Database) (runId : String) : Int :=
  (db.runs.get? runId).elim 0 RunRecord.experimentId

theorem Database.experimentOf_of_get? {db : Database} {runId : String} {r : RunRecord}
    (h : db.runs.get? runId = some r) : db.experimentOf runId = r.experimentId := by
  rw [experimentOf, h]
  rfl

/-- The lists of logged models after calls made on an empty database. -/
theorem Operation.modelMetrics_eq_observed (steps : List (Call × Operation)) :
    (performAll steps .empty).2.modelMetrics =
      ((observed steps .empty).filterMap
        (Observation.entryIfTied (performAll steps .empty).2.experimentOf)).foldl
        (appendNew ModelEntry.sameSlot) [] :=
  modelMetrics_performAll steps fun _ _ hr => Database.experimentOf_of_get? hr

/-- The observations that calls made on an empty database have committed for a logged model. -/
def Operation.observedFor (modelId : String) (steps : List (Call × Operation)) : List Observation :=
  (observed steps .empty).filter fun o => o.metric.modelId = some modelId

/-- Those observations as the list of the logged model shows them, each with the experiment that its
run has in the end. -/
def Operation.listable (modelId : String) (steps : List (Call × Operation)) : List ModelMetric :=
  (observedFor modelId steps).map fun o =>
    o.listed modelId ((performAll steps .empty).2.experimentOf o.runId)

/-- The list of a logged model after calls made on an empty database: of the observations committed
for it, the first of each place. -/
theorem Operation.modelMetrics_filter_performAll (modelId : String)
    (steps : List (Call × Operation)) :
    ((performAll steps .empty).2.modelMetrics.filter fun e => e.modelId == modelId).map
        ModelEntry.metric =
      distinct (fun x y => x.slot = y.slot) (listable modelId steps) := by
  have hslot (e f : ModelEntry) (h : f.sameSlot e = true) :
      (f.modelId == modelId) = (e.modelId == modelId) := by
    rw [ModelEntry.modelId_eq_of_sameSlot h]
  rw [modelMetrics_eq_observed, filter_foldl_appendNew hslot,
    Observation.filter_filterMap_entryIfTied]
  exact Observation.map_metric_foldl_entry ..

/-- **The list of a logged model shows the first observation of each place.** After any calls,
whether they succeeded or failed, what is read for a logged model is in order of name, step and
timestamp. For every combination of name, timestamp, step, run, stored number, dataset name and
dataset digest, a missing dataset field being as good as an empty one, it has exactly one member if
successful calls have logged an observation with this combination for the model, and none otherwise:
the first such observation with its own dataset fields and with the experiment of its run, which is
there. What the history has made of these observations plays no part. -/
theorem model_lists_first_observation_of_each_place (steps : List (Call × Operation))
    (modelId : String) (reader : Call) (halive : reader.pulse .entry = none)
    (hvisible : reader.hidden .modelMetrics = false) :
    let db := (Operation.performAll steps .empty).2
    (∀ o ∈ Operation.observedFor modelId steps, ∃ r, db.runs.get? o.runId = some r) ∧
    ∃ answer, (Operation.modelMetrics modelId).run.perform reader db =
        (.ok (.modelMetrics answer), db) ∧
      answer.Pairwise (fun x y => x.position ≤ y.position) ∧
      ∀ slot, (answer.filter fun x => x.slot = slot) =
        ((Operation.listable modelId steps).find? fun x => x.slot = slot).toList := by
  intro db
  refine ⟨fun o ho => Operation.exists_run_of_mem_observed (List.mem_filter.mp ho).1, _,
    perform_modelMetrics halive hvisible modelId, pairwise_position_mergeSort _, fun slot => ?_⟩
  rw [Operation.modelMetrics_filter_performAll]
  exact filter_of_perm_distinct (List.mergeSort_perm _ _) slot

/-- Of two runs: a zero that is tied to no model, a negative zero, a NaN and an infinity for the
model `m`, the NaN with an empty dataset name, and a call whose context fires late. -/
private def tied : List (Call × Operation) :=
  [(.plain, .createExperiment "e" none []), (.plain, .createRun 1 "" none 0 []),
    ({ Call.plain with entropy := 1 }, .createRun 1 "" none 0 []),
    (.plain, .logMetrics zeroRun [lossOf .zero, { lossOf .nan with modelId := some "n" }]),
    (.plain, .logMetrics zeroRun
      [{ lossOf (.zeroOf true) with modelId := some "m" },
        { lossOf (.infinity false) with modelId := some "m", step := 0 },
        { lossOf .nan with modelId := some "m", datasetName := some "" }]),
    (.late, .logMetrics zeroRun [{ lossOf .zero with modelId := some "m", step := 3 }]),
    (.plain, .logMetrics "00000000000040008000000000000001"
      [{ lossOf .zero with modelId := some "m" }])]

/-- The history of the first run has dropped the negative zero, and the list of `m` shows it: once,
as a zero without a dataset, although a NaN asks for the same place. -/
theorem model_lists_first_observation_of_each_place_tied :
    let db := (Operation.performAll tied .empty).2
    Call.plain.pulse .entry = none ∧ Call.plain.hidden .modelMetrics = false ∧
    (∀ e ∈ db.history, e.runId = zeroRun → e.modelId = some "m" → e.point.step = 0) ∧
    ∃ answer, (Operation.modelMetrics "m").run.perform .plain db =
        (.ok (.modelMetrics answer), db) ∧
      answer.Pairwise (fun x y => x.position ≤ y.position) ∧
      (answer.filter fun x => x.slot = ⟨"loss", 1, 1, zeroRun, .zero, "", ""⟩) =
        [Observation.listed "m" 1 ⟨zeroRun, lossOf .zero⟩] := by
  intro db
  obtain ⟨-, answer, hperform, hsorted, hslots⟩ :=
    model_lists_first_observation_of_each_place tied "m" .plain rfl rfl
  have hfirst : ((Operation.listable "m" tied).find? fun x =>
      x.slot = ⟨"loss", 1, 1, zeroRun, .zero, "", ""⟩) =
      some (Observation.listed "m" 1 ⟨zeroRun, lossOf .zero⟩) := by
    decide +kernel
  refine ⟨rfl, rfl, by decide +kernel, answer, hperform, hsorted, ?_⟩
  rw [hslots, hfirst]
  rfl

end RunLedger
