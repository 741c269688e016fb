import RunLedger.Proofs.Subject
import RunLedger.Session.Step

/-!
# The version of the layout

The version of the layout of the tables is read when a database is opened or brought up to date, and
nowhere else. No call takes notice of it: on two databases that differ in it alone a call comes to
the same, and leaves databases that differ in it alone.

## Main definitions

* `Database.withLayout`: the database with another version of the layout.

## Main results

* `Operation.overlooks_layout`: no call takes notice of the version.
-/

namespace RunLedger

/-- The database with another version of the layout. -/
def Database.withLayout (version : Int) (db : Database) : Database :=
  { db with schemaVersion := version }

theorem Database.rows_withLayout (version : Int) (db : Database) (table : TableName) :
    (db.withLayout version).rows table = db.rows table := by
  cases table <;> rfl

open Database Work

variable {version : Int}

/-! ### Experiments -/

namespace Experiments

theorem overlooks_put (id : Int) (e : ExperimentRecord) :
    (put id e).Overlooks (withLayout version) :=
  overlooks_modify fun _ => rfl

theorem overlooks_setTag (id : Int) (tag : Tag) :
    (setTag id tag).Overlooks (withLayout version) :=
  overlooks_bind (overlooks_ask (overlooks_require fun _ => rfl)) fun _ =>
    overlooks_bind (overlooks_attemptUpsert _ _ _) fun _ => overlooks_put _ _

theorem overlooks_insertNext (e : ExperimentRecord) :
    (insertNext e).Overlooks (withLayout version) :=
  overlooks_get_bind (fun _ => rfl) fun _ => overlooks_bind (overlooks_attemptOr _ _ _ _) fun _ =>
    overlooks_get_bind (fun _ => rfl) fun _ => overlooks_unless <|
      overlooks_bind (overlooks_modify fun _ => rfl) fun _ => overlooks_pure _

theorem overlooks_create (name : String) (location : Option String) (tags : List Tag) :
    (create name location tags).Overlooks (withLayout version) := by
  have hrest (id : Int) : (do
      checkpoint "create_experiment" (.inside 0)
      tags.forM (setTag id)
      return id : Work Int).Overlooks (withLayout version) :=
    overlooks_bind (overlooks_checkpoint _ _) fun _ =>
      overlooks_bind (overlooks_forM (overlooks_setTag id) tags) fun _ => overlooks_pure _
  refine overlooks_unless <| overlooks_transact <| overlooks_bind overlooks_read fun _ =>
    overlooks_bind (overlooks_insertNext _) fun id => overlooks_ite ?_ (hrest id)
  exact overlooks_bind
    (overlooks_bind (overlooks_attempt _ _ _) fun _ => overlooks_put _ _) fun _ => hrest id

end Experiments

/-! ### Runs -/

namespace Runs

theorem overlooks_requireOpen (experimentId : Int) :
    (requireOpen experimentId).Overlooks (withLayout version) :=
  Query.overlooks_bind (Experiments.overlooks_require fun _ => rfl) fun _ =>
    Query.overlooks_ite (Query.overlooks_pure _) (Query.overlooks_throw _)

theorem overlooks_put (id : String) (r : RunRecord) :
    (put id r).Overlooks (withLayout version) :=
  overlooks_modify fun _ => rfl

theorem overlooks_setTag (id : String) (tag : Tag) :
    (setTag id tag).Overlooks (withLayout version) :=
  overlooks_bind (overlooks_ask (overlooks_require fun _ => rfl)) fun _ =>
    overlooks_bind (overlooks_attemptUpsert _ _ _) fun _ => overlooks_put _ _

theorem overlooks_insertNew (id : String) (r : RunRecord) :
    (insertNew id r).Overlooks (withLayout version) :=
  overlooks_bind (overlooks_attemptOr _ _ _ _) fun _ =>
    overlooks_get_bind (fun _ => rfl) fun _ => overlooks_unless (overlooks_put _ _)

theorem overlooks_create (experimentId : Int) (name : String) (userId : Option String)
    (startTime : Int) (tags : List Tag) :
    (create experimentId name userId startTime tags).Overlooks (withLayout version) :=
  overlooks_transact <| overlooks_bind (overlooks_ask (overlooks_requireOpen _)) fun _ =>
    overlooks_bind overlooks_read fun _ => overlooks_bind (overlooks_insertNew _ _) fun _ =>
      overlooks_bind (overlooks_forM (overlooks_setTag _) tags) fun _ =>
        overlooks_ask (overlooks_load fun _ => rfl)

theorem overlooks_alter (id : String) (f : RunRecord → RunRecord) :
    (alter id f).Overlooks (withLayout version) :=
  overlooks_bind (overlooks_ask (overlooks_require fun _ => rfl)) fun _ =>
    overlooks_bind (overlooks_attempt _ _ _) fun _ => overlooks_put _ _

end Runs

/-! ### Metrics -/

namespace MetricLog

theorem overlooks_enterHistory (e : HistoryEntry) :
    (enterHistory e).Overlooks (withLayout version) :=
  overlooks_bind (overlooks_attempt _ _ _) fun _ => overlooks_modify fun _ => rfl

theorem overlooks_enterModel (e : ModelEntry) :
    (enterModel e).Overlooks (withLayout version) :=
  overlooks_bind (overlooks_attempt _ _ _) fun _ => overlooks_modify fun _ => rfl

theorem overlooks_putLatest (runId key : String) (p : Point) :
    (putLatest runId key p).Overlooks (withLayout version) :=
  overlooks_bind (overlooks_ask (Runs.overlooks_require fun _ => rfl)) fun _ =>
    overlooks_bind (overlooks_attemptUpsert _ _ _) fun _ => Runs.overlooks_put _ _

theorem overlooks_advance (found : Table String Point) (runId key : String) (p : Point) :
    (advance found runId key p).Overlooks (withLayout version) := by
  rw [advance]
  cases found.get? key with
  | none => exact overlooks_putLatest _ _ _
  | some current => exact overlooks_ite (overlooks_putLatest _ _ _) (overlooks_pure _)

theorem overlooks_enter (runId : String) (r : RunRecord) (entries : List HistoryEntry) :
    (enter runId r entries).Overlooks (withLayout version) :=
  overlooks_bind (overlooks_forM overlooks_enterHistory _) fun _ =>
    overlooks_bind (overlooks_checkpoint _ _) fun _ =>
    overlooks_bind (overlooks_forM overlooks_enterModel _) fun _ =>
    overlooks_bind (overlooks_checkpoint _ _) fun _ =>
    overlooks_bind (overlooks_ask (Runs.overlooks_require fun _ => rfl)) fun _ =>
    overlooks_bind overlooks_read fun _ =>
    overlooks_bind (overlooks_ask fun _ => rfl) fun _ =>
    overlooks_forM (fun _ => overlooks_advance _ _ _ _) _

theorem overlooks_record (runId : String) (metrics : List Metric) :
    (record runId metrics).Overlooks (withLayout version) := by
  refine overlooks_within <| overlooks_transact <|
    overlooks_bind (overlooks_ask (Runs.overlooks_requireActive fun _ => rfl)) fun r =>
    overlooks_bind (overlooks_ask fun _ => rfl) fun _ => ?_
  cases batch runId metrics with
  | nil => exact overlooks_pure _
  | cons e es => exact overlooks_enter runId r (e :: es)

theorem overlooks_rebuild (runId : String) :
    (rebuild runId).Overlooks (withLayout version) :=
  overlooks_within <| overlooks_transact <|
    overlooks_bind (overlooks_ask (Runs.overlooks_require fun _ => rfl)) fun _ =>
    overlooks_get_bind (fun _ => rfl) fun _ => overlooks_bind (overlooks_attempt _ _ _) fun _ =>
    overlooks_bind (Runs.overlooks_put _ _) fun _ =>
    overlooks_bind (overlooks_checkpoint _ _) fun _ =>
    overlooks_bind (overlooks_forM (fun _ => overlooks_putLatest _ _ _) _) fun _ =>
    overlooks_pure _

end MetricLog

/-! ### The registry -/

namespace Registry

theorem overlooks_putModel (name : String) (m : ModelRecord) :
    (putModel name m).Overlooks (withLayout version) :=
  overlooks_modify fun _ => rfl

theorem overlooks_putVersion (name : String) (number : Int) (v : VersionRecord) :
    (putVersion name number v).Overlooks (withLayout version) :=
  overlooks_modify fun _ => rfl

theorem overlooks_alterModel (name : String) (f : ModelRecord → ModelRecord) :
    (alterModel name f).Overlooks (withLayout version) :=
  overlooks_bind (overlooks_ask (overlooks_requireModel fun _ => rfl)) fun _ =>
    overlooks_bind (overlooks_attempt _ _ _) fun _ => overlooks_putModel _ _

theorem overlooks_touch (name : String) : (touch name).Overlooks (withLayout version) :=
  overlooks_bind overlooks_read fun _ => overlooks_alterModel _ _

theorem overlooks_alterVersions (name : String) (p : Int → VersionRecord → Bool)
    (f : VersionRecord → VersionRecord) :
    (alterVersions name p f).Overlooks (withLayout version) :=
  overlooks_bind (overlooks_ask (overlooks_requireModel fun _ => rfl)) fun _ =>
    overlooks_bind (overlooks_attempt _ _ _) fun _ => overlooks_putModel _ _

end Registry

open Registry

namespace Models

theorem overlooks_putTag (name key value : String) :
    (putTag name key value).Overlooks (withLayout version) :=
  overlooks_bind (overlooks_ask (overlooks_requireModel fun _ => rfl)) fun _ =>
    overlooks_bind (overlooks_attemptUpsert _ _ _) fun _ => overlooks_putModel _ _

theorem overlooks_insertNew (name : String) (m : ModelRecord) (newIsPrompt : Bool) :
    (insertNew name m newIsPrompt).Overlooks (withLayout version) := by
  refine overlooks_bind (overlooks_attemptOr _ _ _ _) fun _ =>
    overlooks_get_bind (fun _ => rfl) fun db => ?_
  cases db.models.get? name with
  | some taken => exact overlooks_throw _
  | none => exact overlooks_putModel _ _

theorem overlooks_create (name : String) (description : Option String) (tags : List Tag) :
    (create name description tags).Overlooks (withLayout version) :=
  overlooks_bind (overlooks_ensure _) fun _ => overlooks_bind (overlooks_ensure _) fun _ =>
    overlooks_transact <| overlooks_bind overlooks_read fun _ =>
      overlooks_bind (overlooks_insertNew _ _ _) fun _ =>
      overlooks_bind (overlooks_forM (fun _ => overlooks_putTag _ _ _) _) fun _ =>
      overlooks_ask (overlooks_loadModel fun _ => rfl)

theorem overlooks_update (name : String) (description : Option String) :
    (update name description).Overlooks (withLayout version) :=
  overlooks_within <| overlooks_transact <| overlooks_bind (overlooks_alterModel _ _) fun _ =>
    overlooks_bind (overlooks_touch _) fun _ => overlooks_ask (overlooks_loadModel fun _ => rfl)

theorem overlooks_moveModel (name newName : String) (now : Int) :
    (moveModel name newName now).Overlooks (withLayout version) :=
  overlooks_bind (overlooks_ask (overlooks_requireModel fun _ => rfl)) fun _ =>
    overlooks_bind (overlooks_attemptOr _ _ _ _) fun _ =>
    overlooks_get_bind (fun _ => rfl) fun _ => overlooks_unless (overlooks_modify fun _ => rfl)

theorem overlooks_rename (name newName : String) :
    (rename name newName).Overlooks (withLayout version) :=
  overlooks_bind (overlooks_ensure _) fun _ => overlooks_within <| overlooks_transact <|
    overlooks_bind overlooks_read fun _ => overlooks_bind (overlooks_moveModel _ _ _) fun _ =>
    overlooks_bind (overlooks_checkpoint _ _) fun _ =>
    overlooks_bind (overlooks_alterVersions _ _ _) fun _ =>
    overlooks_bind (overlooks_ask (overlooks_requireModel fun _ => rfl)) fun _ =>
    overlooks_bind (overlooks_attempt _ _ _) fun _ =>
    overlooks_bind (overlooks_attempt _ _ _) fun _ =>
    overlooks_bind (overlooks_attempt _ _ _) fun _ =>
    overlooks_ask (overlooks_loadModel fun _ => rfl)

theorem overlooks_delete (name : String) : (delete name).Overlooks (withLayout version) :=
  overlooks_within <| overlooks_transact <|
    overlooks_bind (overlooks_ask (overlooks_requireModel fun _ => rfl)) fun _ =>
    overlooks_bind (overlooks_attempt _ _ _) fun _ =>
    overlooks_bind (overlooks_attempt _ _ _) fun _ =>
    overlooks_bind (overlooks_putModel _ _) fun _ =>
    overlooks_bind (overlooks_checkpoint _ _) fun _ =>
    overlooks_bind (overlooks_attempt _ _ _) fun _ =>
    overlooks_bind (overlooks_attempt _ _ _) fun _ =>
    overlooks_bind (overlooks_attempt _ _ _) fun _ => overlooks_modify fun _ => rfl

theorem overlooks_setTag (name key value : String) :
    (setTag name key value).Overlooks (withLayout version) :=
  overlooks_bind (overlooks_ensure _) fun _ => overlooks_transact (overlooks_putTag _ _ _)

theorem overlooks_deleteTag (name key : String) :
    (deleteTag name key).Overlooks (withLayout version) :=
  overlooks_bind (overlooks_ensure _) fun _ => overlooks_transact <|
    overlooks_bind (overlooks_ask (overlooks_requireModel fun _ => rfl)) fun _ =>
    overlooks_bind (overlooks_attempt _ _ _) fun _ => overlooks_putModel _ _

end Models

namespace Aliases

theorem overlooks_set (name aliasName : String) (number : Int) :
    (set name aliasName number).Overlooks (withLayout version) :=
  overlooks_bind (overlooks_ensure _) fun _ => overlooks_transact <|
    overlooks_bind (overlooks_ask (overlooks_requireModel fun _ => rfl)) fun _ =>
    overlooks_bind (overlooks_ask (overlooks_requireVersion fun _ => rfl)) fun _ =>
    overlooks_bind (overlooks_attemptUpsert _ _ _) fun _ => overlooks_putModel _ _

theorem overlooks_delete (name aliasName : String) :
    (delete name aliasName).Overlooks (withLayout version) :=
  overlooks_bind (overlooks_ensure _) fun _ => overlooks_transact <|
    overlooks_bind (overlooks_ask (overlooks_requireModel fun _ => rfl)) fun _ =>
    overlooks_bind (overlooks_attempt _ _ _) fun _ => overlooks_putModel _ _

end Aliases

namespace Versions

theorem overlooks_requireNext (name : String) :
    (requireNext name).Overlooks (withLayout version) :=
  Query.overlooks_bind (overlooks_requireModel fun _ => rfl) fun _ =>
    Query.overlooks_ite (Query.overlooks_pure _) (Query.overlooks_throw _)

theorem overlooks_putTag (name : String) (number : Int) (key value : String) :
    (putTag name number key value).Overlooks (withLayout version) :=
  overlooks_bind (overlooks_ask (overlooks_requireVersion fun _ => rfl)) fun _ =>
    overlooks_bind (overlooks_attemptUpsert _ _ _) fun _ => overlooks_putVersion _ _ _

theorem overlooks_create (name : String) (new : NewVersion) :
    (create name new).Overlooks (withLayout version) :=
  overlooks_bind (overlooks_ensure _) fun _ => overlooks_within <| overlooks_transact <|
    overlooks_bind (overlooks_ask (overlooks_requireNext _)) fun _ =>
    overlooks_bind overlooks_read fun _ =>
    overlooks_bind
      (overlooks_bind (overlooks_attempt _ _ _) fun _ => overlooks_putVersion _ _ _) fun _ =>
    overlooks_bind (overlooks_forM (fun _ => overlooks_putTag _ _ _ _) _) fun _ =>
    overlooks_bind (overlooks_touch _) fun _ => overlooks_ask (overlooks_loadVersion fun _ => rfl)

theorem overlooks_update (name : String) (number : Int) (description : Option String) :
    (update name number description).Overlooks (withLayout version) :=
  overlooks_within <| overlooks_transact <|
    overlooks_bind (overlooks_ask (overlooks_requireVersion fun _ => rfl)) fun _ =>
    overlooks_bind overlooks_read fun _ => overlooks_bind (overlooks_alterVersions _ _ _) fun _ =>
    overlooks_ask (overlooks_loadVersion fun _ => rfl)

theorem overlooks_archiveOthers (name : String) (number : Int) (stage : VersionStage) :
    (archiveOthers name number stage).Overlooks (withLayout version) :=
  overlooks_bind (overlooks_checkpoint _ _) fun _ => overlooks_bind overlooks_read fun _ =>
    overlooks_alterVersions _ _ _

theorem overlooks_transition (name : String) (number : Int) (stage : VersionStage)
    (archiveExisting : Bool) :
    (transition name number stage archiveExisting).Overlooks (withLayout version) :=
  overlooks_bind (overlooks_ensure _) fun _ => overlooks_within <| overlooks_transact <|
    overlooks_bind (overlooks_ask (overlooks_requireVersion fun _ => rfl)) fun _ =>
    overlooks_bind overlooks_read fun _ =>
    overlooks_bind (overlooks_touch _) fun _ =>
    overlooks_bind (overlooks_alterVersions _ _ _) fun _ =>
    overlooks_ite
      (overlooks_bind (overlooks_archiveOthers _ _ _) fun _ =>
        overlooks_ask (overlooks_loadVersion fun _ => rfl))
      (overlooks_ask (overlooks_loadVersion fun _ => rfl))

theorem overlooks_delete (name : String) (number : Int) :
    (delete name number).Overlooks (withLayout version) :=
  overlooks_within <| overlooks_transact <|
    overlooks_bind (overlooks_ask (overlooks_requireModel fun _ => rfl)) fun _ =>
    overlooks_bind (overlooks_ask (overlooks_requireVersion fun _ => rfl)) fun _ =>
    overlooks_bind overlooks_read fun _ =>
    overlooks_bind (overlooks_touch _) fun _ =>
    overlooks_bind (overlooks_ask (overlooks_requireModel fun _ => rfl)) fun _ =>
    overlooks_bind (overlooks_attempt _ _ _) fun _ =>
    overlooks_bind (overlooks_putModel _ _) fun _ =>
    overlooks_bind (overlooks_checkpoint _ _) fun _ => overlooks_alterVersions _ _ _

theorem overlooks_setTag (name : String) (number : Int) (key value : String) :
    (setTag name number key value).Overlooks (withLayout version) :=
  overlooks_bind (overlooks_ensure _) fun _ => overlooks_transact (overlooks_putTag _ _ _ _)

theorem overlooks_deleteTag (name : String) (number : Int) (key : String) :
    (deleteTag name number key).Overlooks (withLayout version) :=
  overlooks_bind (overlooks_ensure _) fun _ => overlooks_transact <|
    overlooks_bind (overlooks_ask (overlooks_requireVersion fun _ => rfl)) fun _ =>
    overlooks_bind (overlooks_attempt _ _ _) fun _ => overlooks_putVersion _ _ _

end Versions

/-! ### All calls -/

/-- **No call takes notice of the version of the layout.** -/
theorem Operation.overlooks_layout (operation : Operation) :
    operation.run.Overlooks (withLayout version) := by
  cases operation with
  | createExperiment name location tags => exact overlooks_map (Experiments.overlooks_create _ _ _)
  | createRun experimentId name userId startTime tags =>
    exact overlooks_map (Runs.overlooks_create _ _ _ _ _)
  | deleteRun id =>
    exact overlooks_map <| overlooks_transact <| overlooks_bind overlooks_read fun _ =>
      Runs.overlooks_alter _ _
  | restoreRun id => exact overlooks_map <| overlooks_transact <| Runs.overlooks_alter _ _
  | getExperiment | getRun | metricHistory | latestMetrics | modelMetrics | getModel | getByAlias
  | getVersion | latestVersions => exact overlooks_of_part rfl fun _ => rfl
  | logMetrics runId metrics => exact overlooks_map (MetricLog.overlooks_record runId metrics)
  | rebuildLatest runId =>
    refine overlooks_map ?_
    rw [bind_pure_comp]
    exact overlooks_map (MetricLog.overlooks_rebuild runId)
  | createModel name description tags => exact overlooks_map (Models.overlooks_create _ _ _)
  | updateModel name description => exact overlooks_map (Models.overlooks_update _ _)
  | renameModel name newName => exact overlooks_map (Models.overlooks_rename _ _)
  | deleteModel name => exact overlooks_map (Models.overlooks_delete _)
  | setModelTag name key value => exact overlooks_map (Models.overlooks_setTag _ _ _)
  | deleteModelTag name key => exact overlooks_map (Models.overlooks_deleteTag _ _)
  | setAlias name aliasName number => exact overlooks_map (Aliases.overlooks_set _ _ _)
  | deleteAlias name aliasName => exact overlooks_map (Aliases.overlooks_delete _ _)
  | createVersion name new => exact overlooks_map (Versions.overlooks_create _ _)
  | updateVersion name number description => exact overlooks_map (Versions.overlooks_update _ _ _)
  | transition name number stage archiveExisting =>
    exact overlooks_map (Versions.overlooks_transition _ _ _ _)
  | deleteVersion name number => exact overlooks_map (Versions.overlooks_delete _ _)
  | setVersionTag name number key value =>
    exact overlooks_map (Versions.overlooks_setTag _ _ _ _)
  | deleteVersionTag name number key => exact overlooks_map (Versions.overlooks_deleteTag _ _ _)

theorem overlooks_seedModel (name : String) :
    (seedModel name).Overlooks (withLayout version) :=
  overlooks_bind (overlooks_attempt _ _ _) fun _ => overlooks_get_bind (fun _ => rfl) fun _ =>
    overlooks_unless (overlooks_putModel _ _)

/-- Nor does a unit of work that inserts models. -/
theorem overlooks_seedModels (names : List String) :
    (seedModels names).Overlooks (withLayout version) :=
  overlooks_forM (fun name => overlooks_seedModel name) names

/-- Nor does the reading of a whole table. -/
theorem Session.overlooks_rows (table : TableName) :
    (Session.rows table).Overlooks (withLayout version) :=
  overlooks_transact <| overlooks_get_bind (fun db => by rw [rows_withLayout]) fun _ =>
    overlooks_pure _

end RunLedger
