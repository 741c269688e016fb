import RunLedger.Proofs.Metric.History

/-!
# The history forgets what else an observation is tied to

A batch drops an observation only if an earlier one agrees with it in every field, the logged model
and the dataset included. The history compares less: of observations that agree in key, timestamp,
step and stored value it takes the first, whatever they are tied to. So an observation that was
logged is listed with its key, timestamp, step and value, but where another one came first it is
listed as that one, with the model and the dataset of the other. Two observations that differ only
in what they are tied to do not both remain.

## Main definitions

* `Metric.untied`: an observation without the model and the dataset that it is tied to.

## Main results

* `Metric.repeats_eq_decide`: observations take one place in the history if they are read back
  alike, up to what they are tied to.
* `Operation.exists_perform_metricHistory`: what is read, up to what it is tied to.
* `logged_batch_is_listed_up_to_ties`: what becomes of the observations of a batch.
* `not_logged_batch_is_listed`: they are not all listed as they were logged.
-/

namespace RunLedger

open MetricLog Work

namespace Reading

/-- A value that was read back is stored as the value that was logged. -/
theorem stored_ofValue_readBack (x : Binary64) :
    (ofValue x.readBack).stored = (ofValue x).stored := by
  have hnanBack : ofValue .nan = { value := .zero, nan := true } := rfl
  have hzeroBack : (ofValue .zero).stored = { value := .zero, nan := false } := rfl
  have hlargestBack : ∀ negative, ofValue (.largestOf negative) =
      { value := .largestOf negative, nan := false } := by decide
  rw [Binary64.readBack]
  split_ifs with hnan hinfinite hzero
  · rw [hnanBack, ofValue, if_pos hnan]
  · rw [hlargestBack, ofValue, if_neg hnan, if_pos hinfinite]
  · have hunsigned : x.unsignZero = .zero := if_pos hzero
    rw [hzeroBack, ofValue, if_neg hnan, if_neg hinfinite, stored, hunsigned]
  · rfl

theorem stored_ofValue_eq_iff {x y : Binary64} :
    (ofValue x).stored = (ofValue y).stored ↔ x.readBack = y.readBack := by
  constructor
  · intro h
    rw [← toValue_stored_ofValue, h, toValue_stored_ofValue]
  · intro h
    rw [← stored_ofValue_readBack, h, stored_ofValue_readBack]

end Reading

namespace Metric

/-- The observation without the model and the dataset that it is tied to. -/
def untied (m : Metric) : Metric :=
  { m with modelId := none, datasetName := none, datasetDigest := none }

/-- Two observations take one place in the history if they are read back alike, up to what they are
tied to. -/
theorem repeats_eq_decide (m n : Metric) :
    m.repeats n = decide (m.readBack.untied = n.readBack.untied) := by
  rw [Bool.eq_iff_iff, decide_eq_true_iff]
  simp only [repeats, readBack, untied, Bool.and_eq_true, beq_iff_eq,
    Reading.stored_ofValue_eq_iff, mk.injEq]
  tauto

end Metric

namespace Operation

/-- Of the observations that calls made on an empty database have committed for a run, the first
that is read back as `k`, up to what it is tied to. -/
def firstAlike? (runId : String) (steps : List (Call × Operation)) (k : Metric) : Option Metric :=
  ((committed runId steps .empty).flatten.map Metric.readBack).find? fun y => y.untied = k

/-- What one more batch changes about which is the first. -/
theorem firstAlike?_concat {runId : String} {steps : List (Call × Operation)} {call : Call}
    {metrics : List Metric} {a : Answer} {db' : Database}
    (h : (logMetrics runId metrics).run.perform call (performAll steps .empty).2 = (.ok a, db'))
    (k : Metric) :
    firstAlike? runId (steps ++ [(call, .logMetrics runId metrics)]) k =
      (firstAlike? runId steps k).or
        ((metrics.map Metric.readBack).find? fun y => y.untied = k) := by
  let steps' := steps ++ [(call, .logMetrics runId metrics)]
  have hcommitted : (committed runId steps' .empty).flatten =
      (committed runId steps .empty).flatten ++ metrics := by
    rw [committed_append, committed, h, committed, committedBy, if_pos rfl, List.append_nil,
      List.flatten_append, List.flatten_singleton]
  rw [firstAlike?, hcommitted, List.map_append, List.find?_append]
  rfl

/-- **What the history of a key lists, up to what it is tied to**: of the observations committed for
the run that are read back alike, the first. -/
theorem exists_perform_metricHistory (steps : List (Call × Operation)) {runId : String}
    {r : RunRecord} (hr : (performAll steps .empty).2.runs.get? runId = some r) (key : String)
    {reader : Call} (halive : reader.pulse .entry = none)
    (hvisible : reader.hidden .runs = false) :
    ∃ answer, (metricHistory runId key).run.perform reader (performAll steps .empty).2 =
        (.ok (.metrics answer), (performAll steps .empty).2) ∧
      ∀ k : Metric, k.key = key →
        (answer.filter fun y => y.untied = k) = (firstAlike? runId steps k).toList := by
  refine ⟨_, perform_metricHistory halive hvisible hr key, fun k hk => ?_⟩
  let ofKey := (committed runId steps .empty).flatten.filter fun m => m.key == key
  have haccepted : (observations runId key (performAll steps .empty).2).map HistoryEntry.metric =
      distinct (fun x y => x.untied = y.untied) (ofKey.map Metric.readBack) := by
    rw [observations_eq_accepted, List.map_map, distinct_map]
    simp only [← Metric.repeats_eq_decide]
    exact List.map_congr_left fun m _ => HistoryEntry.metric_accept runId m
  have hperm := (List.mergeSort_perm (observations runId key (performAll steps .empty).2)
    noLater).map HistoryEntry.metric
  rw [haccepted] at hperm
  rw [filter_of_perm_distinct hperm, firstAlike?, List.find?_map, List.find?_map, List.find?_filter]
  congr 3
  funext m
  rw [Bool.eq_iff_iff]
  simp only [Function.comp_apply, beq_iff_eq, decide_eq_true_iff, and_iff_right_iff_imp]
  intro hm
  rw [← hk, ← hm]
  rfl

end Operation

/-- **What is logged is listed up to what it is tied to.** In every reachable database, a batch with
given keys is logged for an active run by every call that nothing disturbs and that has room for it.
Once a call has logged it, the history of the key of each of its observations lists exactly one
observation with the same key, timestamp, step and value as it is read back: of those that were
listed before and then those of the batch the first. So an observation is listed with the model and
the dataset it was logged with if the first is tied to the same, and not otherwise. -/
theorem logged_batch_is_listed_up_to_ties {db : Database} (hdb : Reachable db) {runId : String}
    {r : RunRecord} (hr : db.runs.get? runId = some r) (hactive : r.stage = .active)
    {metrics : List Metric} (hkeys : ∀ m ∈ metrics, Text.isBlank m.key = false) (call reader : Call)
    (halive : reader.pulse .entry = none) (hvisible : reader.hidden .runs = false) :
    let (result, db') := (Operation.logMetrics runId metrics).run.perform call db
    (call.Undisturbed → call.HasRoomFor (metrics.map Metric.key) → result = .ok .nothing) ∧
    ∀ a, result = .ok a → ∀ m ∈ metrics, ∃ before after first,
      (Operation.metricHistory runId m.key).run.perform reader db =
        (.ok (.metrics before), db) ∧
      (Operation.metricHistory runId m.key).run.perform reader db' =
        (.ok (.metrics after), db') ∧
      ((before ++ metrics.map Metric.readBack).find? fun y => y.untied = m.readBack.untied) =
        some first ∧
      (after.filter fun y => y.untied = m.readBack.untied) = [first] ∧
      (m.readBack ∈ after ↔ m.readBack = first) := by
  obtain ⟨steps, rfl⟩ := hdb
  rcases hresult : (Operation.logMetrics runId metrics).run.perform call
    (Operation.performAll steps .empty).2 with ⟨result, db'⟩
  refine ⟨fun hcall hroom => ?_, ?_⟩
  · have hlogged := (leads_map (fun _ => Answer.nothing)
      (leads_record hr hactive (checkKeys_eq_ok_iff.mpr hkeys) hroom)).2 hcall
    exact congrArg Prod.fst (hresult.symm.trans hlogged)
  rintro a rfl m hm
  let steps' := steps ++ [(call, .logMetrics runId metrics)]
  have hdb' : (Operation.performAll steps' .empty).2 = db' := by
    rw [Operation.performAll_append, Operation.performAll_cons, hresult]
    rfl
  obtain ⟨r', hr'⟩ : ∃ r', (Operation.performAll steps' .empty).2.runs.get? runId = some r' := by
    obtain ⟨_, hrecord, -⟩ := (yields_map _ _).mp hresult
    obtain ⟨r', hr', -, -, hlogged⟩ := record_inversion hrecord
    rw [hdb', hlogged]
    exact ⟨_, Database.get?_logged_self hr' ..⟩
  obtain ⟨before, hbefore, hkept⟩ :=
    Operation.exists_perform_metricHistory steps hr m.key halive hvisible
  obtain ⟨after, hafter, hkept'⟩ :=
    Operation.exists_perform_metricHistory steps' hr' m.key halive hvisible
  rw [hdb'] at hafter
  let alike := fun y : Metric => decide (y.untied = m.readBack.untied)
  have hself : alike m.readBack = true := decide_eq_true rfl
  have hold : before.filter alike = (Operation.firstAlike? runId steps m.readBack.untied).toList :=
    hkept m.readBack.untied rfl
  have hnew : after.filter alike = (Operation.firstAlike? runId steps' m.readBack.untied).toList :=
    hkept' m.readBack.untied rfl
  have hfound : (before ++ metrics.map Metric.readBack).find? alike =
      Operation.firstAlike? runId steps' m.readBack.untied := by
    rw [List.find?_append, ← List.head?_filter, hold, Option.head?_toList,
      Operation.firstAlike?_concat hresult]
  have hmem : m.readBack ∈ before ++ metrics.map Metric.readBack :=
    List.mem_append_right _ (List.mem_map_of_mem hm)
  obtain ⟨first, hfirst⟩ := Option.isSome_iff_exists.mp (List.find?_isSome.mpr ⟨_, hmem, hself⟩)
  have honly : after.filter alike = [first] := by
    rw [hnew, ← hfound, hfirst, Option.toList_some]
  refine ⟨before, after, first, hbefore, hafter, hfirst, honly, ?_⟩
  rw [← List.mem_singleton, ← honly, List.mem_filter, and_iff_left hself]

/-- Two observations of one value, tied to different models. -/
private def ofTwoModels : List Metric :=
  [{ lossOf (.ofBits 0x3fe0000000000000) with modelId := some "a" },
    { lossOf (.ofBits 0x3fe0000000000000) with modelId := some "b" }]

/-- The observation of the second model is not listed: that of the first is listed for both. -/
theorem logged_batch_is_listed_up_to_ties_ofTwoModels :
    let db' := ((Operation.logMetrics zeroRun ofTwoModels).run.perform .plain .oneRun).2
    Reachable .oneRun ∧ (∃ r, Database.oneRun.runs.get? zeroRun = some r ∧ r.stage = .active) ∧
    (∀ m ∈ ofTwoModels, Text.isBlank m.key = false) ∧
    Call.plain.pulse .entry = none ∧ Call.plain.hidden .runs = false ∧
    ((Operation.logMetrics zeroRun ofTwoModels).run.perform .plain .oneRun).1 = .ok .nothing ∧
    ∃ after, (Operation.metricHistory zeroRun "loss").run.perform .plain db' =
        (.ok (.metrics after), db') ∧
      { lossOf (.ofBits 0x3fe0000000000000) with modelId := some "b" } ∉ after := by
  intro db'
  obtain ⟨r, hr, hactive⟩ := Database.exists_get?_oneRun
  have hkeys : ∀ m ∈ ofTwoModels, Text.isBlank m.key = false := by decide +kernel
  obtain ⟨hsucceeds, hlisted⟩ := logged_batch_is_listed_up_to_ties Database.reachable_oneRun hr
    hactive hkeys .plain .plain rfl rfl
  have hresult := hsucceeds Call.plain_undisturbed (.inr (by decide +kernel))
  refine ⟨Database.reachable_oneRun, ⟨r, hr, hactive⟩, hkeys, rfl, rfl, hresult, ?_⟩
  obtain ⟨before, after, first, hbefore, hafter, hfirst, -, hiff⟩ :=
    hlisted .nothing hresult { lossOf (.ofBits 0x3fe0000000000000) with modelId := some "b" }
      (by decide +kernel)
  have hempty : ((Operation.metricHistory zeroRun "loss").run.perform .plain .oneRun).1 =
      .ok (.metrics []) := by
    decide +kernel
  obtain rfl : [] = before :=
    Answer.metrics.inj (Except.ok.inj (hempty.symm.trans (congrArg Prod.fst hbefore)))
  refine ⟨after, hafter, fun hmem => ?_⟩
  rw [← hiff.mp hmem] at hfirst
  revert hfirst
  decide +kernel

/-- **Not all observations that are logged are listed as they were logged**: the history of their
key need not list them field for field, even if they are of one batch. -/
theorem not_logged_batch_is_listed :
    ¬ ∀ (db : Database) (runId : String) (r : RunRecord) (metrics : List Metric)
      (call reader : Call) (db' : Database), Reachable db → db.runs.get? runId = some r →
      r.stage = .active → (∀ m ∈ metrics, Text.isBlank m.key = false) → reader.Undisturbed →
      (Operation.logMetrics runId metrics).run.perform call db = (.ok .nothing, db') →
      ∀ m ∈ metrics, ∃ answer, (Operation.metricHistory runId m.key).run.perform reader db' =
        (.ok (.metrics answer), db') ∧ m.readBack ∈ answer := by
  intro hkept
  obtain ⟨r, hr, hactive⟩ := Database.exists_get?_oneRun
  have hlogged : (Operation.logMetrics zeroRun ofTwoModels).run.perform .plain .oneRun =
      (.ok .nothing, ((Operation.logMetrics zeroRun ofTwoModels).run.perform .plain .oneRun).2) :=
    Prod.ext (by decide +kernel) rfl
  obtain ⟨answer, hanswer, hmem⟩ := hkept .oneRun zeroRun r ofTwoModels .plain .plain _
    Database.reachable_oneRun hr hactive (by decide +kernel) Call.plain_undisturbed hlogged
    { lossOf (.ofBits 0x3fe0000000000000) with modelId := some "b" } (by decide +kernel)
  have hlisted : ((Operation.metricHistory zeroRun "loss").run.perform .plain
      ((Operation.logMetrics zeroRun ofTwoModels).run.perform .plain .oneRun).2).1 =
      .ok (.metrics [{ lossOf (.ofBits 0x3fe0000000000000) with modelId := some "a" }]) := by
    decide +kernel
  have hlist := hlisted.symm.trans (congrArg Prod.fst hanswer)
  rw [← Answer.metrics.inj (Except.ok.inj hlist)] at hmem
  revert hmem
  decide +kernel

end RunLedger
