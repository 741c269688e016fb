import RunLedger.Operation
import RunLedger.Proofs.Work.Frame

/-!
# The areas of calls

The calls fall into four areas: experiments, runs, metrics and the registry of models. A call leaves
alone everything outside its area, and no call changes the layout of the tables.

## Main definitions

* `Area`, `Operation.area`: the four areas.
* `Area.outside`: the view of everything outside an area.

## Main results

* `Experiments.fixes_create`, `Runs.fixes_alter`, `Models.fixes_rename`, `Versions.fixes_transition`
  and their like: what a call leaves alone, whether it succeeds or fails.
-/

namespace RunLedger

open Work

/-- The parts of a database that calls work on. -/
inductive Area
  /-- The experiments and the counter of their ids. -/
  | experiments
  /-- The runs. -/
  | runs
  /-- Both lists of observations, and the latest points of the runs. -/
  | metrics
  /-- The registered models with everything they own. -/
  | registry

/-- Everything outside an area: the database with the area emptied. -/
def Area.outside : Area → Database → Database
  | experiments, db => { db with experiments := .empty, lastExperimentId := 0 }
  | runs, db => { db with runs := .empty }
  | metrics, db =>
    { db with
      history := []
      modelMetrics := []
      runs := db.runs.map fun _ r => { r with latest := .empty } }
  | registry, db => { db with models := .empty }

/-- The area that a call works on. -/
def Operation.area : Operation → Area
  | createExperiment .. | getExperiment _ => .experiments
  | createRun .. | getRun _ | deleteRun _ | restoreRun _ => .runs
  | logMetrics .. | metricHistory .. | latestMetrics _ | rebuildLatest _ | modelMetrics _ =>
    .metrics
  | createModel .. | getModel _ | updateModel .. | renameModel .. | deleteModel _ | setModelTag ..
  | deleteModelTag .. | setAlias .. | deleteAlias .. | getByAlias .. | createVersion ..
  | getVersion .. | latestVersions .. | updateVersion .. | transition .. | deleteVersion ..
  | setVersionTag .. | deleteVersionTag .. => .registry

/-! ### Experiments -/

namespace Experiments

theorem fixes_put (id : Int) (e : ExperimentRecord) :
    (put id e).Fixes Area.experiments.outside :=
  fixes_modify fun _ => rfl

theorem fixes_setTag (id : Int) (tag : Tag) : (setTag id tag).Fixes Area.experiments.outside :=
  fixes_bind (fixes_ask _) fun _ => fixes_bind (fixes_attemptUpsert _ _ _) fun _ => fixes_put _ _

theorem fixes_insertNext (e : ExperimentRecord) :
    (insertNext e).Fixes Area.experiments.outside :=
  fixes_bind fixes_get fun _ => fixes_bind (fixes_attemptOr _ _ _ _) fun _ =>
    fixes_bind fixes_get fun _ => fixes_unless <|
      fixes_bind (fixes_modify fun _ => rfl) fun _ => fixes_pure _

theorem fixes_relocate (id : Int) (e : ExperimentRecord) (location : String) :
    (relocate id e location).Fixes Area.experiments.outside :=
  fixes_bind (fixes_attempt _ _ _) fun _ => fixes_put _ _

theorem fixes_create (name : String) (location : Option String) (tags : List Tag) :
    (create name location tags).Fixes Area.experiments.outside := by
  have hrest (id : Int) : (do
      checkpoint "create_experiment" (.inside 0)
      tags.forM (setTag id)
      return id : Work Int).Fixes Area.experiments.outside :=
    fixes_bind (fixes_checkpoint _ _) fun _ =>
      fixes_bind (fixes_forM (fixes_setTag id) tags) fun _ => fixes_pure _
  refine fixes_unless <| fixes_transact <| fixes_bind fixes_read fun _ =>
    fixes_bind (fixes_insertNext _) fun id => ?_
  exact fixes_ite (fixes_bind (fixes_relocate _ _ _) fun _ => hrest id) (hrest id)

end Experiments

/-! ### Runs -/

namespace Runs

theorem fixes_put (id : String) (r : RunRecord) : (put id r).Fixes Area.runs.outside :=
  fixes_modify fun _ => rfl

theorem fixes_setTag (id : String) (tag : Tag) : (setTag id tag).Fixes Area.runs.outside :=
  fixes_bind (fixes_ask _) fun _ => fixes_bind (fixes_attemptUpsert _ _ _) fun _ => fixes_put _ _

theorem fixes_insertNew (id : String) (r : RunRecord) :
    (insertNew id r).Fixes Area.runs.outside :=
  fixes_bind (fixes_attemptOr _ _ _ _) fun _ => fixes_bind fixes_get fun _ =>
    fixes_unless (fixes_put _ _)

theorem fixes_create (experimentId : Int) (name : String) (userId : Option String)
    (startTime : Int) (tags : List Tag) :
    (create experimentId name userId startTime tags).Fixes Area.runs.outside :=
  fixes_transact <| fixes_bind (fixes_ask _) fun _ => fixes_bind fixes_read fun _ =>
    fixes_bind (fixes_insertNew _ _) fun _ =>
      fixes_bind (fixes_forM (fixes_setTag _) tags) fun _ => fixes_ask _

theorem fixes_alter (id : String) (f : RunRecord → RunRecord) :
    (alter id f).Fixes Area.runs.outside :=
  fixes_bind (fixes_ask _) fun _ => fixes_bind (fixes_attempt _ _ _) fun _ => fixes_put _ _

end Runs

/-! ### The registry -/

namespace Registry

theorem fixes_putModel (name : String) (m : ModelRecord) :
    (putModel name m).Fixes Area.registry.outside :=
  fixes_modify fun _ => rfl

theorem fixes_putVersion (name : String) (version : Int) (v : VersionRecord) :
    (putVersion name version v).Fixes Area.registry.outside :=
  fixes_modify fun _ => rfl

theorem fixes_alterModel (name : String) (f : ModelRecord → ModelRecord) :
    (alterModel name f).Fixes Area.registry.outside :=
  fixes_bind (fixes_ask _) fun _ => fixes_bind (fixes_attempt _ _ _) fun _ => fixes_putModel _ _

theorem fixes_touch (name : String) : (touch name).Fixes Area.registry.outside :=
  fixes_bind fixes_read fun _ => fixes_alterModel _ _

theorem fixes_alterVersions (name : String) (p : Int → VersionRecord → Bool)
    (f : VersionRecord → VersionRecord) :
    (alterVersions name p f).Fixes Area.registry.outside :=
  fixes_bind (fixes_ask _) fun _ => fixes_bind (fixes_attempt _ _ _) fun _ => fixes_putModel _ _

theorem fixes_alterVersion (name : String) (version : Int) (f : VersionRecord → VersionRecord) :
    (alterVersion name version f).Fixes Area.registry.outside :=
  fixes_alterVersions _ _ _

end Registry

open Registry

namespace Models

theorem fixes_putTag (name key value : String) :
    (putTag name key value).Fixes Area.registry.outside :=
  fixes_bind (fixes_ask _) fun _ => fixes_bind (fixes_attemptUpsert _ _ _) fun _ =>
    fixes_putModel _ _

theorem fixes_insertNew (name : String) (m : ModelRecord) (newIsPrompt : Bool) :
    (insertNew name m newIsPrompt).Fixes Area.registry.outside := by
  refine fixes_bind (fixes_attemptOr _ _ _ _) fun _ => fixes_bind fixes_get fun db => ?_
  cases db.models.get? name with
  | some taken => exact fixes_throw _
  | none => exact fixes_putModel _ _

theorem fixes_create (name : String) (description : Option String) (tags : List Tag) :
    (create name description tags).Fixes Area.registry.outside :=
  fixes_bind (fixes_ensure _) fun _ => fixes_bind (fixes_ensure _) fun _ =>
    fixes_transact <| fixes_bind fixes_read fun _ => fixes_bind (fixes_insertNew _ _ _) fun _ =>
      fixes_bind (fixes_forM (fun _ => fixes_putTag _ _ _) _) fun _ => fixes_ask _

theorem fixes_update (name : String) (description : Option String) :
    (update name description).Fixes Area.registry.outside :=
  fixes_within <| fixes_transact <| fixes_bind (fixes_alterModel _ _) fun _ =>
    fixes_bind (fixes_touch _) fun _ => fixes_ask _

theorem fixes_moveModel (name newName : String) (now : Int) :
    (moveModel name newName now).Fixes Area.registry.outside :=
  fixes_bind (fixes_ask _) fun _ => fixes_bind (fixes_attemptOr _ _ _ _) fun _ =>
    fixes_bind fixes_get fun _ => fixes_unless (fixes_modify fun _ => rfl)

theorem fixes_rename (name newName : String) :
    (rename name newName).Fixes Area.registry.outside :=
  fixes_bind (fixes_ensure _) fun _ => fixes_within <| fixes_transact <|
    fixes_bind fixes_read fun _ => fixes_bind (fixes_moveModel _ _ _) fun _ =>
    fixes_bind (fixes_checkpoint _ _) fun _ => fixes_bind (fixes_alterVersions _ _ _) fun _ =>
    fixes_bind (fixes_ask _) fun _ => fixes_bind (fixes_attempt _ _ _) fun _ =>
    fixes_bind (fixes_attempt _ _ _) fun _ => fixes_bind (fixes_attempt _ _ _) fun _ => fixes_ask _

theorem fixes_delete (name : String) : (delete name).Fixes Area.registry.outside :=
  fixes_within <| fixes_transact <| fixes_bind (fixes_ask _) fun _ =>
    fixes_bind (fixes_attempt _ _ _) fun _ => fixes_bind (fixes_attempt _ _ _) fun _ =>
    fixes_bind (fixes_putModel _ _) fun _ => fixes_bind (fixes_checkpoint _ _) fun _ =>
    fixes_bind (fixes_attempt _ _ _) fun _ => fixes_bind (fixes_attempt _ _ _) fun _ =>
    fixes_bind (fixes_attempt _ _ _) fun _ => fixes_modify fun _ => rfl

theorem fixes_setTag (name key value : String) :
    (setTag name key value).Fixes Area.registry.outside :=
  fixes_bind (fixes_ensure _) fun _ => fixes_transact (fixes_putTag _ _ _)

theorem fixes_deleteTag (name key : String) :
    (deleteTag name key).Fixes Area.registry.outside :=
  fixes_bind (fixes_ensure _) fun _ => fixes_transact <| fixes_bind (fixes_ask _) fun _ =>
    fixes_bind (fixes_attempt _ _ _) fun _ => fixes_putModel _ _

end Models

namespace Aliases

theorem fixes_set (name aliasName : String) (version : Int) :
    (set name aliasName version).Fixes Area.registry.outside :=
  fixes_bind (fixes_ensure _) fun _ => fixes_transact <| fixes_bind (fixes_ask _) fun _ =>
    fixes_bind (fixes_ask _) fun _ => fixes_bind (fixes_attemptUpsert _ _ _) fun _ =>
    fixes_putModel _ _

theorem fixes_delete (name aliasName : String) :
    (delete name aliasName).Fixes Area.registry.outside :=
  fixes_bind (fixes_ensure _) fun _ => fixes_transact <| fixes_bind (fixes_ask _) fun _ =>
    fixes_bind (fixes_attempt _ _ _) fun _ => fixes_putModel _ _

end Aliases

namespace Versions

theorem fixes_putTag (name : String) (version : Int) (key value : String) :
    (putTag name version key value).Fixes Area.registry.outside :=
  fixes_bind (fixes_ask _) fun _ => fixes_bind (fixes_attemptUpsert _ _ _) fun _ =>
    fixes_putVersion _ _ _

theorem fixes_create (name : String) (new : NewVersion) :
    (create name new).Fixes Area.registry.outside :=
  fixes_bind (fixes_ensure _) fun _ => fixes_within <| fixes_transact <|
    fixes_bind (fixes_ask _) fun _ => fixes_bind fixes_read fun _ =>
    fixes_bind (fixes_bind (fixes_attempt _ _ _) fun _ => fixes_putVersion _ _ _) fun _ =>
    fixes_bind (fixes_forM (fun _ => fixes_putTag _ _ _ _) _) fun _ =>
    fixes_bind (fixes_touch _) fun _ => fixes_ask _

theorem fixes_update (name : String) (version : Int) (description : Option String) :
    (update name version description).Fixes Area.registry.outside :=
  fixes_within <| fixes_transact <| fixes_bind (fixes_ask _) fun _ => fixes_bind fixes_read fun _ =>
    fixes_bind (fixes_alterVersion _ _ _) fun _ => fixes_ask _

theorem fixes_archiveOthers (name : String) (version : Int) (stage : VersionStage) :
    (archiveOthers name version stage).Fixes Area.registry.outside :=
  fixes_bind (fixes_checkpoint _ _) fun _ => fixes_bind fixes_read fun _ =>
    fixes_alterVersions _ _ _

theorem fixes_transition (name : String) (version : Int) (stage : VersionStage)
    (archiveExisting : Bool) :
    (transition name version stage archiveExisting).Fixes Area.registry.outside :=
  fixes_bind (fixes_ensure _) fun _ => fixes_within <| fixes_transact <|
    fixes_bind (fixes_ask _) fun _ => fixes_bind fixes_read fun _ =>
    fixes_bind (fixes_touch _) fun _ => fixes_bind (fixes_alterVersion _ _ _) fun _ =>
    fixes_ite (fixes_bind (fixes_archiveOthers _ _ _) fun _ => fixes_ask _) (fixes_ask _)

theorem fixes_delete (name : String) (version : Int) :
    (delete name version).Fixes Area.registry.outside :=
  fixes_within <| fixes_transact <| fixes_bind (fixes_ask _) fun _ =>
    fixes_bind (fixes_ask _) fun _ => fixes_bind fixes_read fun _ =>
    fixes_bind (fixes_touch _) fun _ => fixes_bind (fixes_ask _) fun _ =>
    fixes_bind (fixes_attempt _ _ _) fun _ => fixes_bind (fixes_putModel _ _) fun _ =>
    fixes_bind (fixes_checkpoint _ _) fun _ => fixes_alterVersion _ _ _

theorem fixes_setTag (name : String) (version : Int) (key value : String) :
    (setTag name version key value).Fixes Area.registry.outside :=
  fixes_bind (fixes_ensure _) fun _ => fixes_transact (fixes_putTag _ _ _ _)

theorem fixes_deleteTag (name : String) (version : Int) (key : String) :
    (deleteTag name version key).Fixes Area.registry.outside :=
  fixes_bind (fixes_ensure _) fun _ => fixes_transact <| fixes_bind (fixes_ask _) fun _ =>
    fixes_bind (fixes_attempt _ _ _) fun _ => fixes_putVersion _ _ _

end Versions

end RunLedger
