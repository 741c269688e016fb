import RunLedger.Proofs.Metric.Effect
import RunLedger.Proofs.Trace

/-!
# The latest points are in step with the history

The latest points of a run are kept beside its history and are never read off it, except when they
are rebuilt. They are in step if they are what the history of the run makes them: for each key the
first of the observations that no other one precedes. Logging a batch keeps them in step although
the history ignores some observations, since an observation is ignored only where an earlier one has
the same point. A new run has no latest points, and it has no history either because observations
are logged only for runs that are there.

## Main definitions

* `Database.LatestInStep`: the latest points are those that the history makes.

## Main results

* `MetricEffect.latestInStep`: every successful call keeps them in step.
* `Reachable.latestInStep`: they are in step in every reachable database.
* `Database.rows_latest_filter`: the rows of the latest point of one key of a run.
* `latest_rows_follow_history`: the row of the latest point in every reachable database.
-/

namespace RunLedger

open MetricLog

/-! ### The history as a source of latest points -/

namespace MetricLog

variable {runId : String}

/-- An observation moves the latest points that the history of its run makes, also if the history
ignores it. -/
theorem foldl_raise_appendNew {e : HistoryEntry} (he : e.runId = runId)
    (history : List HistoryEntry) (latest : Table String Point) :
    ((appendNew HistoryEntry.sameSlot history e.stored).filter fun f => f.runId == runId).foldl
        raise latest =
      raise ((history.filter fun f => f.runId == runId).foldl raise latest) e := by
  rw [appendNew]
  split
  case isTrue htaken =>
    obtain ⟨f, hf, hsame⟩ := List.any_eq_true.mp htaken
    obtain ⟨hrun, hkey, hpoint⟩ : f.runId = e.runId ∧ f.key = e.key ∧ f.point = e.point.stored :=
      HistoryEntry.sameSlot_iff.mp hsame
    refine (raise_eq_self_of_mem (List.mem_filter.mpr ⟨hf, ?_⟩) hkey ?_ latest).symm
    · rw [hrun, he, beq_self_eq_true]
    · rw [hpoint, Point.precedence_stored]
  case isFalse =>
    have hlast : [e.stored].filter (fun f => f.runId == runId) = [e.stored] := by
      simp [HistoryEntry.stored, he]
    rw [List.filter_append, hlast, List.foldl_append, List.foldl_cons, List.foldl_nil, raise_stored]

/-- The history of a run after observations of that run makes the latest points that these
observations move its latest points to. -/
theorem foldl_raise_history {es : List HistoryEntry} (hes : ∀ e ∈ es, e.runId = runId)
    (history : List HistoryEntry) (latest : Table String Point) :
    (((es.map HistoryEntry.stored).foldl (appendNew HistoryEntry.sameSlot) history).filter
        fun f => f.runId == runId).foldl raise latest =
      es.foldl raise ((history.filter fun f => f.runId == runId).foldl raise latest) := by
  induction es generalizing history with
  | nil => rfl
  | cons e es ih =>
    rw [List.map_cons, List.foldl_cons, ih (fun f hf => hes f (List.mem_cons_of_mem e hf)),
      foldl_raise_appendNew (hes e List.mem_cons_self), List.foldl_cons]

/-- The history of a run is not touched by observations of another one. -/
theorem filter_history_of_ne {es : List HistoryEntry} (hes : ∀ e ∈ es, e.runId ≠ runId)
    (history : List HistoryEntry) :
    (((es.map HistoryEntry.stored).foldl (appendNew HistoryEntry.sameSlot) history).filter
        fun f => f.runId == runId) = history.filter fun f => f.runId == runId := by
  have hslot (e f : HistoryEntry) (h : f.sameSlot e = true) :
      (f.runId == runId) = (e.runId == runId) := by
    rw [(HistoryEntry.sameSlot_iff.mp h).1]
  have hnone : (es.map HistoryEntry.stored).filter (fun f => f.runId == runId) = [] := by
    refine List.filter_eq_nil_iff.mpr fun f hf => ?_
    obtain ⟨e, he, rfl⟩ := List.mem_map.mp hf
    exact fun h => hes e he (beq_iff_eq.mp h)
  rw [filter_foldl_appendNew hslot, hnone, List.foldl_nil]

end MetricLog

/-! ### The invariant -/

/-- The latest points of every run are those that its history makes. Observations are kept only for
runs that are there, and without negative zeros. -/
structure Database.LatestInStep (db : Database) : Prop where
  latest : ∀ id r, db.runs.get? id = some r → r.latest = (entriesOf id db).foldl raise .empty
  run : ∀ e ∈ db.history, ∃ r, db.runs.get? e.runId = some r
  stored : ∀ e ∈ db.history, e.point.stored = e.point

namespace Database.LatestInStep

variable {db db' : Database}

theorem empty : LatestInStep .empty where
  latest id r h := by cases h
  run e he := by cases he
  stored e he := by cases he

/-- A run that is not there has no history. -/
theorem entriesOf_eq_nil (h : db.LatestInStep) {id : String} (hid : db.runs.get? id = none) :
    entriesOf id db = [] := by
  refine List.filter_eq_nil_iff.mpr fun e he heq => ?_
  obtain ⟨r, hr⟩ := h.run e he
  rw [beq_iff_eq.mp heq, hid] at hr
  cases hr

theorem of_sameMetrics (h : db.LatestInStep) (hsame : db.SameMetrics db') : db'.LatestInStep where
  latest id r' hr' := by
    have hentries : entriesOf id db' = entriesOf id db := by
      rw [entriesOf, entriesOf, hsame.history]
    rw [hentries]
    rcases hsame.latest id with hold | ⟨hnew, hempty⟩
    · rw [hr', Option.map_some, eq_comm, Option.map_eq_some_iff] at hold
      obtain ⟨r, hr, hlatest⟩ := hold
      rw [← hlatest, h.latest id r hr]
    · rw [hr', Option.map_some, Option.some.injEq] at hempty
      rw [hempty, h.entriesOf_eq_nil hnew, List.foldl_nil]
  run e he := by
    rw [hsame.history] at he
    obtain ⟨r, hr⟩ := h.run e he
    rcases hsame.latest e.runId with hold | ⟨hnew, -⟩
    · rw [hr, Option.map_some, Option.map_eq_some_iff] at hold
      obtain ⟨r', hr', -⟩ := hold
      exact ⟨r', hr'⟩
    · rw [hr] at hnew
      cases hnew
  stored e he := h.stored e (hsame.history ▸ he)

/-- Rebuilding the latest points changes nothing. -/
theorem rebuilt_eq_self (h : db.LatestInStep) {runId : String} {r : RunRecord}
    (hr : db.runs.get? runId = some r) :
    (db.alterLatest runId fun _ => (entriesOf runId db).foldl raise .empty) = db := by
  rw [alterLatest_congr (g := fun latest => latest) hr (h.latest runId r hr).symm, alterLatest_id]

theorem logged (h : db.LatestInStep) {runId : String} {r : RunRecord}
    (hr : db.runs.get? runId = some r) {es : List HistoryEntry}
    (hes : ∀ e ∈ es, e.runId = runId) (experimentId : Int) :
    (db.logged runId experimentId es).LatestInStep where
  latest id r' hr' := by
    by_cases hid : id = runId
    · subst hid
      rw [get?_logged_self hr, Option.some.injEq] at hr'
      rw [← hr']
      change es.foldl raise r.latest = (((es.map HistoryEntry.stored).foldl
        (appendNew HistoryEntry.sameSlot) db.history).filter _).foldl raise .empty
      rw [foldl_raise_history hes, h.latest id r hr]
      rfl
    · rw [get?_logged_of_ne hid] at hr'
      have hother : ∀ e ∈ es, e.runId ≠ id := fun e he heq => hid (heq.symm.trans (hes e he))
      rw [h.latest id r' hr', entriesOf, ← filter_history_of_ne hother]
      rfl
  run e he := by
    by_cases hid : e.runId = runId
    · rw [hid, get?_logged_self hr]
      exact ⟨_, rfl⟩
    · rw [get?_logged_of_ne hid]
      rcases mem_foldl_appendNew he with he | he
      · exact h.run e he
      · obtain ⟨f, hf, rfl⟩ := List.mem_map.mp he
        exact absurd (hes f hf) hid
  stored e he := by
    rcases mem_foldl_appendNew he with he | he
    · exact h.stored e he
    · obtain ⟨f, -, rfl⟩ := List.mem_map.mp he
      exact f.point.stored_stored

end Database.LatestInStep

/-! ### Every reachable database -/

/-- **Every successful call keeps the latest points in step.** -/
theorem MetricEffect.latestInStep {operation : Operation} {db db' : Database}
    (h : MetricEffect operation db db') (hdb : db.LatestInStep) : db'.LatestInStep := by
  cases h with
  | logged hrun =>
    refine hdb.logged hrun (fun e he => ?_) _
    obtain ⟨m, -, rfl⟩ := List.mem_map.mp he
    rfl
  | rebuilt hrun => rwa [hdb.rebuilt_eq_self hrun]
  | none _ hsame => exact hdb.of_sameMetrics hsame

/-- **The latest points are in step in every reachable database.** -/
theorem Reachable.latestInStep {db : Database} (h : Reachable db) : db.LatestInStep := by
  obtain ⟨steps, rfl⟩ := h
  exact Operation.performAll_invariant
    (fun _ _ _ _ _ hdb hstep => (Operation.metricEffect hstep).latestInStep hdb) steps .empty

/-- Whether a row is about a key of a run. -/
def Row.isAbout (runId key : String) (row : Row) : Bool :=
  row.contains ("run_uuid", .text runId) && row.contains ("key", .text key)

theorem isAbout_latestRow (runId key id k : String) (p : Point) :
    Row.isAbout runId key (latestRow id k p) = (id == runId && k == key) := by
  rw [Bool.eq_iff_iff]
  simpa [Row.isAbout, latestRow] using and_congr eq_comm eq_comm

theorem isAbout_historyRow (runId key : String) (e : HistoryEntry) :
    Row.isAbout runId key e.row = (e.runId == runId && e.key == key) := by
  rw [Bool.eq_iff_iff]
  simpa [Row.isAbout, HistoryEntry.row, and_comm] using and_congr eq_comm eq_comm

/-- The rows of the history about a key of a run. -/
theorem rows_history_filter (db : Database) (runId key : String) :
    (db.rows .history).filter (Row.isAbout runId key) =
      ((entriesOf runId db).filter fun e => e.key == key).map HistoryEntry.row := by
  rw [Database.rows, List.filter_map, entriesOf, List.filter_filter]
  refine congrArg _ (List.filter_congr fun e _ => ?_)
  rw [Function.comp_apply, isAbout_historyRow, Bool.and_comm]

/-- The rows of latest points about a key of a run: one if the run has a latest point for the key,
and none otherwise. -/
theorem rows_latest_filter (db : Database) (runId key : String) :
    (db.rows .latest).filter (Row.isAbout runId key) =
      ((db.runs.get? runId).bind fun r => r.latest.get? key).toList.map (latestRow runId key) := by
  have hrun (id : String) (r : RunRecord) (hid : id ≠ runId) :
      (r.latestRows id).filter (Row.isAbout runId key) = [] := by
    refine List.filter_eq_nil_iff.mpr fun row hrow => ?_
    obtain ⟨⟨k, p⟩, -, rfl⟩ := List.mem_map.mp hrow
    simp [isAbout_latestRow, hid]
  have hkey (r : RunRecord) : (r.latestRows runId).filter (Row.isAbout runId key) =
      (r.latest.get? key).toList.map (latestRow runId key) := by
    have hother (k : String) (p : Point) (hk : k ≠ key) :
        [latestRow runId k p].filter (Row.isAbout runId key) = [] := by
      simp [isAbout_latestRow, hk]
    rw [RunRecord.latestRows, List.map_eq_flatMap, List.filter_flatMap,
      Table.flatMap_entries hother]
    cases r.latest.get? key <;> simp [isAbout_latestRow]
  rw [Database.rows, List.filter_flatMap, Table.flatMap_entries hrun]
  cases db.runs.get? runId with
  | none => rfl
  | some r => simp [hkey]

/-- **The row of the latest point follows the history.** In every reachable database, whatever calls
have led to it, a key of a run has no row in the history and no latest row, or exactly one latest
row, with the step, timestamp, value and NaN mark of one of its rows in the history: the one that
exceeds all earlier ones by step, timestamp and value in this order, and that no later one
exceeds. -/
theorem latest_rows_follow_history {db : Database} (h : Reachable db) (runId key : String) :
    ((db.rows .history).filter (Row.isAbout runId key) = [] ∧
      (db.rows .latest).filter (Row.isAbout runId key) = []) ∨
    ∃ before e after,
      (db.rows .history).filter (Row.isAbout runId key) =
        (before ++ e :: after).map HistoryEntry.row ∧
      (∀ f ∈ before, f.point.precedence < e.point.precedence) ∧
      (∀ f ∈ after, f.point.precedence ≤ e.point.precedence) ∧
      (db.rows .latest).filter (Row.isAbout runId key) = [latestRow runId key e.point] := by
  have hstep := h.latestInStep
  rw [rows_history_filter, rows_latest_filter]
  cases hrun : db.runs.get? runId with
  | none =>
    left
    rw [hstep.entriesOf_eq_nil hrun]
    exact ⟨rfl, rfl⟩
  | some r =>
    have hlatest : r.latest.get? key = (((entriesOf runId db).filter fun e => e.key == key).argmax
        fun e => e.point.precedence).map fun e => e.point.stored := by
      rw [hstep.latest runId r hrun, get?_foldl_raise, Table.get?_empty, Option.toList_none,
        List.nil_append, argmax_pointsAt]
    rw [Option.bind_some, hlatest]
    cases hfirst : ((entriesOf runId db).filter fun e => e.key == key).argmax
        fun e => e.point.precedence with
    | none =>
      left
      rw [List.argmax_eq_none.mp hfirst]
      exact ⟨rfl, rfl⟩
    | some e =>
      right
      obtain ⟨before, after, hsplit, hbefore, hafter⟩ := exists_append_of_argmax_eq_some hfirst
      have he : e ∈ db.history :=
        (List.mem_filter.mp (List.mem_filter.mp (List.argmax_mem hfirst)).1).1
      refine ⟨before, e, after, congrArg _ hsplit, hbefore, hafter, ?_⟩
      rw [Option.map_some, hstep.stored e he]
      rfl

/-- A NaN and a negative zero are logged, then a call whose context fires late tries to log a one,
and the latest points are rebuilt. -/
private def story : List (Call × Operation) :=
  [(.plain, .createExperiment "e" none []), (.plain, .createRun 1 "" none 0 []),
    (.plain, .logMetrics zeroRun [lossOf .nan, lossOf (.zeroOf true)]),
    (.late, .logMetrics zeroRun [lossOf (.ofBits 0x3ff0000000000000)]),
    (.plain, .rebuildLatest zeroRun)]

/-- After these calls the NaN is the latest of two observations: the zero is on a par with it. -/
theorem latest_rows_follow_history_story :
    let db := (Operation.performAll story .empty).2
    Reachable db ∧
    (db.rows .latest).filter (Row.isAbout zeroRun "loss") =
      [latestRow zeroRun "loss" ⟨1, 1, .ofValue .nan⟩] ∧
    ∃ before e after,
      (db.rows .history).filter (Row.isAbout zeroRun "loss") =
        (before ++ e :: after).map HistoryEntry.row ∧
      (∀ f ∈ before, f.point.precedence < e.point.precedence) ∧
      (∀ f ∈ after, f.point.precedence ≤ e.point.precedence) ∧
      (db.rows .latest).filter (Row.isAbout zeroRun "loss") =
        [latestRow zeroRun "loss" e.point] := by
  have hlatest : ((Operation.performAll story .empty).2.rows .latest).filter
      (Row.isAbout zeroRun "loss") = [latestRow zeroRun "loss" ⟨1, 1, .ofValue .nan⟩] := by
    decide +kernel
  refine ⟨⟨story, rfl⟩, hlatest, ?_⟩
  rcases latest_rows_follow_history ⟨story, rfl⟩ zeroRun "loss" with ⟨-, hnone⟩ | hfirst
  · rw [hlatest] at hnone
    cases hnone
  · exact hfirst

end RunLedger
