import RunLedger.Proofs.Metric.Effect
import RunLedger.Proofs.Trace

/-!
# What a run keeps

A run that is there stays there. Calls set its stage, the time of its deletion and its latest
points. Everything else of it, the experiment to begin with, is as it was when it was created.

## Main definitions

* `RunRecord.permanent`: a run without what calls change of it.
* `Database.KeepsRuns`: every run is still there, and the same but for what calls change.

## Main results

* `Operation.keepsRuns`: a successful call keeps the runs.
* `Operation.keepsRuns_performAll`: calls made one after the other keep the runs.
-/

namespace RunLedger

open Work

/-- The run without what calls change of it. -/
def RunRecord.permanent (r : RunRecord) : RunRecord :=
  { r with stage := .active, deletedTime := none, latest := .empty }

/-- Every run is still there, and the same but for what calls change. -/
def Database.KeepsRuns (db db' : Database) : Prop :=
  ∀ id r, db.runs.get? id = some r →
    ∃ r', db'.runs.get? id = some r' ∧ r'.permanent = r.permanent

namespace Database.KeepsRuns

variable {db db₁ db₂ : Database} {id : String} {r : RunRecord}

theorem of_runs_eq (h : db₁.runs = db.runs) : db.KeepsRuns db₁ :=
  fun _ r hr => ⟨r, h ▸ hr, rfl⟩

theorem trans (h₁ : db.KeepsRuns db₁) (h₂ : db₁.KeepsRuns db₂) : db.KeepsRuns db₂ := by
  intro id r hr
  obtain ⟨r₁, hr₁, hsame₁⟩ := h₁ id r hr
  obtain ⟨r₂, hr₂, hsame₂⟩ := h₂ id r₁ hr₁
  exact ⟨r₂, hr₂, hsame₂.trans hsame₁⟩

theorem put (h : db.runs.get? id = some r) {r' : RunRecord} (hr : r'.permanent = r.permanent) :
    db.KeepsRuns (db.withRun id r') := by
  intro l s hs
  by_cases hl : l = id
  · subst hl
    obtain rfl := Option.some.inj (h.symm.trans hs)
    exact ⟨r', get?_withRun_self db l r', hr⟩
  · exact ⟨s, (get?_withRun_of_ne hl).trans hs, rfl⟩

theorem add (h : db.runs.get? id = none) (r : RunRecord) : db.KeepsRuns (db.withRun id r) := by
  intro l s hs
  have hl : l ≠ id := by
    rintro rfl
    simp [h] at hs
  exact ⟨s, (get?_withRun_of_ne hl).trans hs, rfl⟩

/-- Work on observations changes only the latest points of runs. -/
theorem of_outside_metrics (h : Area.metrics.outside db₁ = Area.metrics.outside db) :
    db.KeepsRuns db₁ := by
  intro id r hr
  have hruns := congrArg (fun d : Database => d.runs.get? id) h
  simp only [Area.outside, Table.get?_map, hr, Option.map_some] at hruns
  obtain ⟨r', hr', hsame⟩ := Option.map_eq_some_iff.mp hruns
  exact ⟨r', hr', (congrArg RunRecord.permanent hsame :)⟩

end Database.KeepsRuns

namespace Operation

/-- **A successful call keeps the runs.** -/
theorem keepsRuns {operation : Operation} {call : Call} {db db' : Database} {a : Answer}
    (h : operation.run.Yields call db a db') : db.KeepsRuns db' := by
  have houtside := outside_eq h
  cases operation with
  | createRun experimentId name userId startTime tags =>
    obtain ⟨run, hrun, -⟩ := (yields_map _ _).mp h
    obtain ⟨_, r, -, -, -, -, hnew, rfl⟩ := Runs.create_inversion hrun
    exact .add hnew r
  | deleteRun id =>
    obtain ⟨_, hdelete, -⟩ := (yields_map _ _).mp h
    obtain ⟨r, hr, rfl⟩ := Runs.delete_inversion hdelete
    exact .put hr rfl
  | restoreRun id =>
    obtain ⟨_, hrestore, -⟩ := (yields_map _ _).mp h
    obtain ⟨r, hr, rfl⟩ := Runs.restore_inversion hrestore
    exact .put hr rfl
  | getRun id =>
    obtain rfl := eq_of_isRead rfl h
    exact .of_runs_eq rfl
  | logMetrics | metricHistory | latestMetrics | rebuildLatest | modelMetrics =>
    exact .of_outside_metrics houtside
  | createExperiment | getExperiment =>
    exact .of_runs_eq (Area.runs_eq_of_outside (.inl rfl) houtside)
  | createModel | getModel | updateModel | renameModel | deleteModel | setModelTag | deleteModelTag
  | setAlias | deleteAlias | getByAlias | createVersion | getVersion | latestVersions
  | updateVersion | transition | deleteVersion | setVersionTag | deleteVersionTag =>
    exact .of_runs_eq (Area.runs_eq_of_outside (.inr rfl) houtside)

/-- **Calls made one after the other keep the runs.** -/
theorem keepsRuns_performAll (steps : List (Call × Operation)) (db : Database) :
    db.KeepsRuns (performAll steps db).2 :=
  performAll_invariant (fun _ _ _ _ _ hkeeps hstep => .trans hkeeps (keepsRuns hstep)) steps
    (.of_runs_eq rfl)

end Operation

end RunLedger
