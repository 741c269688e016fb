import RunLedger.Proofs.Area
import RunLedger.Proofs.Metric.Logging
import RunLedger.Proofs.Runs.Change
import RunLedger.Proofs.Work.Atomicity

/-!
# What calls do to observations

A call leaves alone everything outside its area. Of the calls that are not about metrics only those
that create, delete and restore runs touch what latest points belong to, and they keep them: a new
run has none. So a successful call logs a batch, makes the latest points of a run anew, or leaves
all observations as they are.

## Main definitions

* `Database.SameMetrics`: the observations and latest points are the same; runs may be new.
* `MetricEffect`: the three things that a successful call can do to observations.

## Main results

* `Operation.fixes_outside`: a call leaves alone what is outside its area.
* `Operation.metricEffect`: every successful call has one of the three effects.
-/

namespace RunLedger

open MetricLog Work

/-! ### Everything outside the area of a call -/

namespace Database

theorem runs_outside_alterLatest (runId : String) (f : Table String Point → Table String Point)
    (db : Database) :
    (db.alterLatest runId f).runs.map (fun _ r => { r with latest := .empty }) =
      db.runs.map fun _ r => { r with latest := .empty } := by
  refine Table.ext_get? fun id => ?_
  rw [Table.get?_map, Table.get?_map, alterLatest, Table.get?_update]
  split
  · rw [Option.map_map]
    rfl
  · rfl

theorem outside_metrics_alterLatest (runId : String) (f : Table String Point → Table String Point)
    (db : Database) :
    Area.metrics.outside (db.alterLatest runId f) = Area.metrics.outside db := by
  simp only [Area.outside, runs_outside_alterLatest]
  rfl

theorem outside_metrics_logged (runId : String) (experimentId : Int) (es : List HistoryEntry)
    (db : Database) :
    Area.metrics.outside (db.logged runId experimentId es) = Area.metrics.outside db :=
  outside_metrics_alterLatest runId _ { db with history := _, modelMetrics := _ }

end Database

/-- An atomic computation leaves a view alone if its successes do. -/
theorem Work.Atomic.fixes {α γ : Type} {w : Work α} (hw : w.Atomic) {view : Database → γ}
    (h : ∀ call db a db', w.Yields call db a db' → view db' = view db) : w.Fixes view := by
  intro call db
  rcases hresult : w.perform call db with ⟨e | a, db'⟩
  · have hdb := hw.unchanged (congrArg Prod.fst hresult)
    rw [hresult] at hdb
    exact congrArg view hdb
  · exact h call db a db' hresult

theorem MetricLog.fixes_record (runId : String) (metrics : List Metric) :
    (record runId metrics).Fixes Area.metrics.outside := by
  refine Atomic.fixes (atomic_within (atomic_transact _ _)) fun call db _ db' h => ?_
  obtain ⟨r, -, -, -, rfl⟩ := record_inversion h
  exact Database.outside_metrics_logged ..

theorem MetricLog.fixes_rebuild (runId : String) :
    (rebuild runId).Fixes Area.metrics.outside := by
  refine Atomic.fixes (atomic_within (atomic_transact _ _)) fun call db n db' h => ?_
  obtain ⟨-, rfl⟩ := rebuild_inversion h
  exact Database.outside_metrics_alterLatest ..

/-- **A call leaves alone everything outside its area**, whether it succeeds or fails. -/
theorem Operation.fixes_outside (operation : Operation) :
    operation.run.Fixes operation.area.outside := by
  cases operation with
  | createExperiment name location tags => exact fixes_map (Experiments.fixes_create _ _ _)
  | createRun experimentId name userId startTime tags =>
    exact fixes_map (Runs.fixes_create _ _ _ _ _)
  | deleteRun id =>
    exact fixes_map <| fixes_transact <| fixes_bind fixes_read fun _ => Runs.fixes_alter _ _
  | restoreRun id => exact fixes_map <| fixes_transact <| Runs.fixes_alter _ _
  | getExperiment | getRun | metricHistory | latestMetrics | modelMetrics | getModel | getVersion
  | latestVersions => exact fixes_map (fixes_consult _ _ _)
  | logMetrics runId metrics => exact fixes_map (fixes_record runId metrics)
  | rebuildLatest runId =>
    refine fixes_map ?_
    rw [bind_pure_comp]
    exact fixes_map (fixes_rebuild runId)
  | createModel name description tags => exact fixes_map (Models.fixes_create _ _ _)
  | updateModel name description => exact fixes_map (Models.fixes_update _ _)
  | renameModel name newName => exact fixes_map (Models.fixes_rename _ _)
  | deleteModel name => exact fixes_map (Models.fixes_delete _)
  | setModelTag name key value => exact fixes_map (Models.fixes_setTag _ _ _)
  | deleteModelTag name key => exact fixes_map (Models.fixes_deleteTag _ _)
  | setAlias name aliasName version => exact fixes_map (Aliases.fixes_set _ _ _)
  | deleteAlias name aliasName => exact fixes_map (Aliases.fixes_delete _ _)
  | getByAlias name aliasName =>
    exact fixes_map <| fixes_bind (fixes_ensure _) fun _ => fixes_consult _ _ _
  | createVersion name new => exact fixes_map (Versions.fixes_create _ _)
  | updateVersion name version description => exact fixes_map (Versions.fixes_update _ _ _)
  | transition name version stage archiveExisting =>
    exact fixes_map (Versions.fixes_transition _ _ _ _)
  | deleteVersion name version => exact fixes_map (Versions.fixes_delete _ _)
  | setVersionTag name version key value => exact fixes_map (Versions.fixes_setTag _ _ _ _)
  | deleteVersionTag name version key => exact fixes_map (Versions.fixes_deleteTag _ _ _)

/-! ### Latest points when runs change -/

/-- Both lists of observations are the same, every run has the latest points that it had, and a new
run has none. -/
structure Database.SameMetrics (db db' : Database) : Prop where
  history : db'.history = db.history
  modelMetrics : db'.modelMetrics = db.modelMetrics
  latest : ∀ id, (db'.runs.get? id).map RunRecord.latest = (db.runs.get? id).map RunRecord.latest ∨
    db.runs.get? id = none ∧ (db'.runs.get? id).map RunRecord.latest = some .empty

namespace Database.SameMetrics

variable {db : Database} {id : String} {r : RunRecord}

theorem refl (db : Database) : db.SameMetrics db where
  history := rfl
  modelMetrics := rfl
  latest _ := .inl rfl

/-- Changing a run in other respects. -/
theorem put (h : db.runs.get? id = some r) {r' : RunRecord} (hr : r'.latest = r.latest) :
    db.SameMetrics (db.withRun id r') where
  history := rfl
  modelMetrics := rfl
  latest l := by
    by_cases hl : l = id
    · subst hl
      rw [get?_withRun_self, h, Option.map_some, Option.map_some, hr]
      exact .inl rfl
    · rw [get?_withRun_of_ne hl]
      exact .inl rfl

/-- Adding a run without latest points. -/
theorem add (h : db.runs.get? id = none) (hr : r.latest = .empty) :
    db.SameMetrics (db.withRun id r) where
  history := rfl
  modelMetrics := rfl
  latest l := by
    by_cases hl : l = id
    · subst hl
      rw [get?_withRun_self, Option.map_some, hr]
      exact .inr ⟨h, rfl⟩
    · rw [get?_withRun_of_ne hl]
      exact .inl rfl

end Database.SameMetrics

/-! ### The effect of a successful call -/

/-- What a successful call can do to observations and latest points. -/
inductive MetricEffect : Operation → Database → Database → Prop
  /-- It enters a batch of observations of a run. -/
  | logged {runId : String} {metrics : List Metric} {db : Database} {r : RunRecord}
      (hrun : db.runs.get? runId = some r) :
      MetricEffect (.logMetrics runId metrics) db
        (db.logged runId r.experimentId (metrics.map (HistoryEntry.ofMetric runId)))
  /-- It makes the latest points of a run anew. -/
  | rebuilt {runId : String} {db : Database} {r : RunRecord}
      (hrun : db.runs.get? runId = some r) :
      MetricEffect (.rebuildLatest runId) db
        (db.alterLatest runId fun _ => (entriesOf runId db).foldl raise .empty)
  /-- It leaves them alone. -/
  | none {operation : Operation} {db db' : Database}
      (hop : ∀ runId metrics, operation ≠ .logMetrics runId metrics) (h : db.SameMetrics db') :
      MetricEffect operation db db'

/-- Work on experiments or on the registry leaves the runs alone. -/
theorem Area.runs_eq_of_outside {area : Area} {db db' : Database}
    (harea : area = .experiments ∨ area = .registry) (h : area.outside db' = area.outside db) :
    db'.runs = db.runs := by
  rcases harea with rfl | rfl <;> simpa only [Area.outside] using congrArg Database.runs h

namespace Database.SameMetrics

variable {db db' : Database}

/-- Work on experiments or on the registry leaves the observations alone. -/
theorem of_outside {area : Area} (harea : area = .experiments ∨ area = .registry)
    (h : area.outside db' = area.outside db) : db.SameMetrics db' := by
  have hhistory : db'.history = db.history := by
    rcases harea with rfl | rfl <;> simpa only [Area.outside] using congrArg Database.history h
  have hmodels : db'.modelMetrics = db.modelMetrics := by
    rcases harea with rfl | rfl <;> simpa only [Area.outside] using congrArg Database.modelMetrics h
  exact ⟨hhistory, hmodels, fun id => .inl (by rw [Area.runs_eq_of_outside harea h])⟩

end Database.SameMetrics

theorem Operation.fixes_of_isRead {operation : Operation} (h : operation.isRead = true) :
    operation.run.Fixes id := by
  cases operation with
  | getExperiment | getRun | metricHistory | latestMetrics | modelMetrics | getModel | getVersion
  | latestVersions => exact fixes_map (fixes_consult _ _ _)
  | getByAlias name aliasName =>
    exact fixes_map <| fixes_bind (fixes_ensure _) fun _ => fixes_consult _ _ _
  | _ => cases h

/-- A successful call leaves what is outside its area as it was. -/
theorem Operation.outside_eq {operation : Operation} {call : Call} {db db' : Database} {a : Answer}
    (h : operation.run.Yields call db a db') :
    operation.area.outside db' = operation.area.outside db := by
  have hfixes := operation.fixes_outside call db
  rwa [h] at hfixes

/-- A call that only reads leaves the database as it was. -/
theorem Operation.eq_of_isRead {operation : Operation} (hread : operation.isRead = true)
    {call : Call} {db db' : Database} {a : Answer} (h : operation.run.Yields call db a db') :
    db' = db := by
  have hfixes := fixes_of_isRead hread call db
  rwa [h] at hfixes

/-- **Every successful call logs a batch, rebuilds the latest points of a run, or leaves all
observations alone.** -/
theorem Operation.metricEffect {operation : Operation} {call : Call} {db db' : Database}
    {a : Answer} (h : operation.run.Yields call db a db') : MetricEffect operation db db' := by
  have houtside := outside_eq h
  by_cases hread : operation.isRead = true
  · obtain rfl := eq_of_isRead hread h
    exact .none (by rintro runId metrics rfl; cases hread) (.refl db')
  cases operation with
  | getExperiment | getRun | metricHistory | latestMetrics | modelMetrics | getModel | getVersion
  | latestVersions | getByAlias => exact absurd rfl hread
  | createExperiment => exact .none nofun (.of_outside (.inl rfl) houtside)
  | createRun =>
    obtain ⟨run, hrun, -⟩ := (yields_map _ _).mp h
    obtain ⟨_, _, -, rfl, -, -, hnew, rfl⟩ := Runs.create_inversion hrun
    exact .none nofun (.add hnew rfl)
  | deleteRun id =>
    obtain ⟨_, hdelete, -⟩ := (yields_map _ _).mp h
    obtain ⟨r, hr, rfl⟩ := Runs.delete_inversion hdelete
    exact .none nofun (.put hr rfl)
  | restoreRun id =>
    obtain ⟨_, hrestore, -⟩ := (yields_map _ _).mp h
    obtain ⟨r, hr, rfl⟩ := Runs.restore_inversion hrestore
    exact .none nofun (.put hr rfl)
  | logMetrics runId metrics =>
    obtain ⟨_, hrecord, -⟩ := (yields_map _ _).mp h
    obtain ⟨r, hrun, -, -, rfl⟩ := record_inversion hrecord
    exact .logged hrun
  | rebuildLatest runId =>
    obtain ⟨_, hnumber, -⟩ := (yields_map _ _).mp h
    rw [bind_pure_comp] at hnumber
    obtain ⟨n, hrebuild, -⟩ := (yields_map _ _).mp hnumber
    obtain ⟨⟨r, hrun⟩, rfl⟩ := rebuild_inversion hrebuild
    exact .rebuilt hrun
  | createModel | updateModel | renameModel | deleteModel | setModelTag | deleteModelTag | setAlias
  | deleteAlias | createVersion | updateVersion | transition | deleteVersion | setVersionTag
  | deleteVersionTag => exact .none nofun (.of_outside (.inr rfl) houtside)

end RunLedger
