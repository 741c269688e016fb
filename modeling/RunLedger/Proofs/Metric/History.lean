import RunLedger.Proofs.Metric.Acceptance
import RunLedger.Proofs.Metric.LatestInStep

/-!
# The history lists what was accepted

An observation is dropped twice on its way into the history: in its batch if an earlier one agrees
with it in every field, and in the history if an earlier one of the same run and key has the same
point as it is stored. The second test lets through less than the first, so the history of a key is
the list of all observations committed for it, of those that are stored at one point only the first.
Nothing else enters the history and nothing leaves it. What is read is this list sorted by step and
timestamp, where observations of one moment keep the order in which they were accepted.

## Main definitions

* `StablySorted`: a list sorted so that what belongs to one moment keeps its order.
* `Binary64.readBack`: the value that a logged value is read back as.
* `Metric.repeats`: two observations take one place in the history.
* `Operation.accepted`: the observations that calls have entered into the history of a key.

## Main results

* `StablySorted.eq`: there is only one such order of a list.
* `Operation.observations_perform`: what one call adds to the history of a key.
* `Operation.observations_performAll`: the history of a key after any calls.
* `history_lists_accepted_observations`: what is read, and what leaves the rows alone.
-/

namespace RunLedger

open MetricLog Work

/-! ### Sorting by moments -/

/-- `ys` is `xs` sorted by moments so that the members of one moment keep their order. -/
structure StablySorted {α β : Type} [LinearOrder β] (moment : α → β) (xs ys : List α) : Prop where
  perm : ys.Perm xs
  increasing : ys.Pairwise fun x y => moment x ≤ moment y
  stable : ∀ t, (ys.filter fun y => moment y = t) = xs.filter fun x => moment x = t

namespace StablySorted

variable {α β γ : Type} [LinearOrder β] {moment : α → β} {xs ys zs : List α}

/-- Merging sorts stably. -/
theorem mergeSort {le : α → α → Bool} (hle : ∀ x y, le x y = true ↔ moment x ≤ moment y)
    (xs : List α) : StablySorted moment xs (xs.mergeSort le) := by
  have htrans (x y z : α) (hxy : le x y = true) (hyz : le y z = true) : le x z = true :=
    (hle x z).mpr (((hle x y).mp hxy).trans ((hle y z).mp hyz))
  have htotal (x y : α) : (le x y || le y x) = true := by
    rw [Bool.or_eq_true, hle, hle]
    exact le_total _ _
  have hperm := List.mergeSort_perm xs le
  refine ⟨hperm, (List.pairwise_mergeSort htrans htotal xs).imp fun h => (hle _ _).mp h, ?_⟩
  intro t
  -- The members of one moment are in increasing order already, so merging does not move them.
  have hpairwise : (xs.filter fun x => moment x = t).Pairwise fun x y => le x y = true := by
    refine List.pairwise_of_forall_mem_list fun x hx y hy => (hle x y).mpr ?_
    have hx := (List.mem_filter.mp hx).2
    have hy := (List.mem_filter.mp hy).2
    rw [of_decide_eq_true hx, of_decide_eq_true hy]
  have hsublist := (List.sublist_mergeSort htrans htotal hpairwise
    List.filter_sublist).filter fun x => moment x = t
  rw [List.filter_filter] at hsublist
  simp only [Bool.and_self] at hsublist
  exact (hsublist.eq_of_length (hperm.filter _).length_eq.symm).symm

/-- What the members of a list stand for is sorted with them. -/
theorem map {moment : γ → β} {f : α → γ} (h : StablySorted (fun x => moment (f x)) xs ys) :
    StablySorted moment (xs.map f) (ys.map f) where
  perm := h.perm.map f
  increasing := List.pairwise_map.mpr h.increasing
  stable t := by
    rw [List.filter_map, List.filter_map]
    exact congrArg (List.map f) (h.stable t)

/-- **A list has only one such order.** -/
theorem eq (hys : StablySorted moment xs ys) (hzs : StablySorted moment xs zs) : ys = zs := by
  have hsorted := hys.increasing
  have hincreasing := hzs.increasing
  have hstable : ∀ t, (ys.filter fun y => moment y = t) = zs.filter fun z => moment z = t :=
    fun t => (hys.stable t).trans (hzs.stable t).symm
  have hperm : ys.Perm zs := hys.perm.trans hzs.perm.symm
  clear hys hzs
  induction ys generalizing zs with
  | nil => exact (List.nil_perm.mp hperm).symm
  | cons y ys ih =>
    cases zs with
    | nil => exact List.perm_nil.mp hperm
    | cons z zs =>
      rw [List.pairwise_cons] at hsorted hincreasing
      have hyz : moment y = moment z := by
        refine le_antisymm ?_ ?_
        · rcases List.mem_cons.mp (hperm.mem_iff.mpr List.mem_cons_self) with rfl | hz
          · exact le_rfl
          · exact hsorted.1 z hz
        · rcases List.mem_cons.mp (hperm.mem_iff.mp List.mem_cons_self) with rfl | hy
          · exact le_rfl
          · exact hincreasing.1 y hy
      obtain rfl : y = z := by
        have hfirst := hstable (moment y)
        simp only [List.filter_cons, hyz, decide_true, if_true, List.cons.injEq] at hfirst
        exact hfirst.1
      refine congrArg (y :: ·) (ih hsorted.2 hincreasing.2 (fun t => ?_) (List.Perm.cons_inv hperm))
      have hrest := hstable t
      simp only [List.filter_cons] at hrest
      split at hrest
      · exact List.tail_eq_of_cons_eq hrest
      · exact hrest

end StablySorted

/-! ### Values read back -/

/-- The value that a logged value is read back as: an infinity as the largest finite number of its
sign, and a negative zero as zero. -/
def Binary64.readBack (x : Binary64) : Binary64 :=
  if x.isNaN then .nan
  else if x.isInfinite then .largestOf x.negative
  else if x.magnitude = 0 then .zero
  else x

theorem Reading.toValue_stored_ofValue (x : Binary64) :
    (ofValue x).stored.toValue = x.readBack := by
  have hlargest : ∀ negative, (Binary64.largestOf negative).magnitude ≠ 0 := by decide
  rw [Binary64.readBack, ofValue]
  split_ifs with hnan hinfinite hzero
  · rfl
  · rw [stored, Binary64.unsignZero, if_neg (hlargest _)]
    rfl
  · rw [stored, Binary64.unsignZero, if_pos hzero]
    rfl
  · rw [stored, Binary64.unsignZero, if_neg hzero]
    rfl

namespace Metric

/-- The observation as it is read back. -/
def readBack (m : Metric) : Metric := { m with value := m.value.readBack }

/-- What observations are listed by: the step, then the timestamp. -/
def moment (m : Metric) : ℤ ×ₗ ℤ := toLex (m.step, m.timestamp)

/-- Whether two observations of a run take one place in its history: they agree in key, timestamp
and step, in the number that is stored for them and in whether they mark a NaN. -/
def repeats (m n : Metric) : Bool :=
  m.key == n.key && m.timestamp == n.timestamp && m.step == n.step
    && (Reading.ofValue m.value).stored == (Reading.ofValue n.value).stored

end Metric

/-! ### The history of a key -/

namespace HistoryEntry

/-- An observation as the history of its run keeps it. -/
def accept (runId : String) (m : Metric) : HistoryEntry := (ofMetric runId m).stored

theorem metric_accept (runId : String) (m : Metric) : (accept runId m).metric = m.readBack :=
  congrArg (fun value => { m with value }) (Reading.toValue_stored_ofValue m.value)

theorem sameSlot_accept (runId : String) (m n : Metric) :
    (accept runId m).sameSlot (accept runId n) = m.repeats n := by
  rw [Bool.eq_iff_iff]
  simp only [sameSlot, accept, stored, ofMetric, Metric.point, Point.stored, Metric.repeats,
    Bool.and_eq_true, beq_iff_eq, Point.mk.injEq, true_and]
  tauto

theorem noLater_iff (e f : HistoryEntry) :
    noLater e f = true ↔ e.metric.moment ≤ f.metric.moment := by
  rw [Metric.moment, Metric.moment, Prod.Lex.toLex_le_toLex]
  simp only [noLater, Bool.or_eq_true, Bool.and_eq_true, decide_eq_true_eq, beq_iff_eq]
  rfl

end HistoryEntry

namespace MetricLog

/-- The observations of a key of a run in the order of their acceptance. -/
def observations (runId key : String) (db : Database) : List HistoryEntry :=
  (entriesOf runId db).filter fun e => e.key == key

/-- What entering observations of a run adds to the history of a key. -/
theorem observations_logged (runId key id : String) (experimentId : Int) (es : List HistoryEntry)
    (db : Database) :
    observations runId key (db.logged id experimentId es) =
      ((es.filter fun e => e.runId == runId && e.key == key).map HistoryEntry.stored).foldl
        (appendNew HistoryEntry.sameSlot) (observations runId key db) := by
  have hobservations (db : Database) : observations runId key db =
      db.history.filter fun e => e.runId == runId && e.key == key := by
    rw [observations, entriesOf, List.filter_filter]
    simp only [Bool.and_comm]
  have hslot (e f : HistoryEntry) (h : f.sameSlot e = true) :
      (f.runId == runId && f.key == key) = (e.runId == runId && e.key == key) := by
    obtain ⟨hrun, hkey, -⟩ := HistoryEntry.sameSlot_iff.mp h
    rw [hrun, hkey]
  rw [hobservations, hobservations]
  change ((es.map HistoryEntry.stored).foldl (appendNew HistoryEntry.sameSlot) db.history).filter
    (fun e => e.runId == runId && e.key == key) = _
  rw [filter_foldl_appendNew hslot, List.filter_map]
  rfl

/-- The answer that lists the observations of a key. -/
theorem perform_metricHistory {reader : Call} {db : Database} {runId : String} {r : RunRecord}
    (halive : reader.pulse .entry = none) (hvisible : reader.hidden .runs = false)
    (hr : db.runs.get? runId = some r) (key : String) :
    (Operation.metricHistory runId key).run.perform reader db =
      (.ok (.metrics (((observations runId key db).mergeSort noLater).map HistoryEntry.metric)),
        db) := by
  have hanswer : (historyOf runId key).run db =
      .ok (((observations runId key db).mergeSort noLater).map HistoryEntry.metric) := by
    refine Query.bind_eq_ok_iff.mpr ⟨r, Runs.require_eq_ok_iff.mpr hr, ?_⟩
    rfl
  exact (yields_map_consult (fun _ _ => Answer.metrics.inj) ..).mpr
    ⟨halive, hvisible, hanswer, rfl⟩

end MetricLog

namespace Operation

/-- What a successful call does to the history of a key. -/
theorem observations_of_metricEffect {operation : Operation} {db db' : Database}
    (h : MetricEffect operation db db') (runId key : String) (a : Answer) :
    observations runId key db' =
      (((committedBy runId operation (.ok a)).flatten.filter fun m => m.key == key).map
        (HistoryEntry.accept runId)).foldl (appendNew HistoryEntry.sameSlot)
        (observations runId key db) := by
  cases h with
  | @logged id metrics _ r hrun =>
    rw [observations_logged, List.filter_map, List.map_map]
    by_cases hid : id = runId
    · subst hid
      have hkeys : ((fun e : HistoryEntry => e.runId == id && e.key == key) ∘
          HistoryEntry.ofMetric id) = fun m => m.key == key := by
        funext m
        simp [HistoryEntry.ofMetric]
      rw [hkeys, committedBy, if_pos rfl, List.flatten_singleton]
      rfl
    · have hnone : ((fun e : HistoryEntry => e.runId == runId && e.key == key) ∘
          HistoryEntry.ofMetric id) = fun _ => false := by
        funext m
        simp [HistoryEntry.ofMetric, hid]
      rw [hnone, committedBy, if_neg hid, List.filter_false]
      rfl
  | @rebuilt id _ r hrun =>
    rw [committedBy_rebuildLatest]
    rfl
  | none hop hsame =>
    rw [committedBy_eq_nil hop, observations, entriesOf, hsame.history]
    rfl

/-- **What one call adds to the history of a key**: what it has committed for the key, unless that
has its place there. -/
theorem observations_perform (call : Call) (operation : Operation) (db : Database)
    (runId key : String) :
    observations runId key (operation.run.perform call db).2 =
      (((committedBy runId operation (operation.run.perform call db).1).flatten.filter
        fun m => m.key == key).map (HistoryEntry.accept runId)).foldl
        (appendNew HistoryEntry.sameSlot) (observations runId key db) := by
  rcases hresult : operation.run.perform call db with ⟨e | a, db'⟩
  · obtain rfl := eq_of_perform_error hresult
    rw [committedBy_error]
    rfl
  · exact observations_of_metricEffect (metricEffect hresult) runId key a

/-- The history of a key after any calls. -/
theorem observations_performAll (steps : List (Call × Operation)) (db : Database)
    (runId key : String) :
    observations runId key (performAll steps db).2 =
      (((committed runId steps db).flatten.filter fun m => m.key == key).map
        (HistoryEntry.accept runId)).foldl (appendNew HistoryEntry.sameSlot)
        (observations runId key db) := by
  induction steps generalizing db with
  | nil => rfl
  | cons step steps ih =>
    obtain ⟨call, operation⟩ := step
    rw [performAll_cons, committed, ih, observations_perform, List.flatten_append,
      List.filter_append, List.map_append, List.foldl_append]

/-- The observations that calls made on an empty database have entered into the history of a key of
a run, in the order of their acceptance: of those that take one place only the first. -/
def accepted (runId key : String) (steps : List (Call × Operation)) : List Metric :=
  distinct Metric.repeats ((committed runId steps .empty).flatten.filter fun m => m.key == key)

/-- The history of a key holds the accepted observations. -/
theorem observations_eq_accepted (steps : List (Call × Operation)) (runId key : String) :
    observations runId key (performAll steps .empty).2 =
      (accepted runId key steps).map (HistoryEntry.accept runId) := by
  have hempty : observations runId key .empty = [] := rfl
  rw [observations_performAll, hempty]
  refine (distinct_map (HistoryEntry.accept runId) _).trans ?_
  simp only [HistoryEntry.sameSlot_accept]
  rfl

end Operation

/-- **The history lists what was accepted.** After any calls, whether they succeeded or failed, the
observations of a key of a run are answered as the stable sort by step and timestamp of those that
successful calls logged for it, of those that take one place only the first, each with its value as
it is read back. And whatever call comes next, the rows of the key stay where they are, and there
are no others unless the call logs an observation of this run and key and succeeds. -/
theorem history_lists_accepted_observations (steps : List (Call × Operation)) {runId : String}
    {r : RunRecord} (hr : (Operation.performAll steps .empty).2.runs.get? runId = some r)
    (key : String) (reader : Call) (halive : reader.pulse .entry = none)
    (hvisible : reader.hidden .runs = false) :
    let db := (Operation.performAll steps .empty).2
    (∃ answer, (Operation.metricHistory runId key).run.perform reader db =
        (.ok (.metrics answer), db) ∧
      StablySorted Metric.moment ((Operation.accepted runId key steps).map Metric.readBack)
        answer) ∧
    ∀ (call : Call) (operation : Operation),
      let (result, db') := operation.run.perform call db
      (db.rows .history).filter (Row.isAbout runId key) <+:
        (db'.rows .history).filter (Row.isAbout runId key) ∧
      ((∀ metrics a, operation = .logMetrics runId metrics → result = .ok a →
          ∀ m ∈ metrics, m.key ≠ key) →
        (db'.rows .history).filter (Row.isAbout runId key) =
          (db.rows .history).filter (Row.isAbout runId key)) := by
  intro db
  refine ⟨⟨_, perform_metricHistory halive hvisible hr key, ?_⟩, fun call operation => ?_⟩
  · have hread : (Operation.accepted runId key steps).map Metric.readBack =
        (observations runId key db).map HistoryEntry.metric := by
      rw [Operation.observations_eq_accepted, List.map_map]
      exact List.map_congr_left fun m _ => (HistoryEntry.metric_accept runId m).symm
    rw [hread]
    exact (StablySorted.mergeSort HistoryEntry.noLater_iff _).map
  · have hrows := Operation.observations_perform call operation db runId key
    rcases hresult : operation.run.perform call db with ⟨result, db'⟩
    rw [hresult] at hrows
    simp only [rows_history_filter]
    change observations runId key db' = _ at hrows
    change ((observations runId key db).map HistoryEntry.row <+:
        (observations runId key db').map HistoryEntry.row) ∧ _
    refine ⟨hrows ▸ (isPrefix_foldl_appendNew _ _).map _, fun hother => congrArg _ ?_⟩
    change observations runId key db' = observations runId key db
    suffices h : (Operation.committedBy runId operation result).flatten.filter
        (fun m => m.key == key) = [] by
      rw [hrows, h]
      rfl
    refine List.filter_eq_nil_iff.mpr fun m hm hkey => ?_
    obtain ⟨metrics, hmetrics, hm⟩ := List.mem_flatten.mp hm
    obtain ⟨hop, a, hok⟩ := Operation.eq_of_mem_committedBy hmetrics
    exact hother metrics a hop hok m hm (beq_iff_eq.mp hkey)

/-- A batch with an infinity, a NaN and a negative zero, a call whose context fires late, and a zero
for another model that repeats the one before. -/
private def unordered : List (Call × Operation) :=
  [(.plain, .createExperiment "e" none []), (.plain, .createRun 1 "" none 0 []),
    (.plain, .logMetrics zeroRun
      [{ lossOf (.infinity true) with step := 2 }, lossOf .nan, lossOf (.zeroOf true)]),
    (.late, .logMetrics zeroRun [{ lossOf .zero with step := 3 }]),
    (.plain, .logMetrics zeroRun
      [{ lossOf .zero with modelId := some "m" }, { lossOf .nan with key := "accuracy" }])]

/-- Three of these observations are accepted, and they are read back in the order of their steps. -/
theorem history_lists_accepted_observations_unordered :
    let db := (Operation.performAll unordered .empty).2
    (∃ r, db.runs.get? zeroRun = some r) ∧
    Call.plain.pulse .entry = none ∧ Call.plain.hidden .runs = false ∧
    ∃ answer, (Operation.metricHistory zeroRun "loss").run.perform .plain db =
        (.ok (.metrics answer), db) ∧
      StablySorted Metric.moment
        [{ lossOf (.largestOf true) with step := 2 }, lossOf .nan, lossOf .zero] answer := by
  intro db
  have hrun : (db.runs.get? zeroRun).isSome = true := by decide +kernel
  obtain ⟨r, hr⟩ := Option.isSome_iff_exists.mp hrun
  have haccepted : (Operation.accepted zeroRun "loss" unordered).map Metric.readBack =
      [{ lossOf (.largestOf true) with step := 2 }, lossOf .nan, lossOf .zero] := by
    decide +kernel
  have hhistory := (history_lists_accepted_observations unordered hr "loss" .plain rfl rfl).1
  rw [haccepted] at hhistory
  exact ⟨⟨r, hr⟩, rfl, rfl, hhistory⟩

end RunLedger
