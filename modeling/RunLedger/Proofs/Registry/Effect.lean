import RunLedger.Proofs.Metric.Effect
import RunLedger.Proofs.Registry.ModelChange
import RunLedger.Proofs.Registry.VersionChange

/-!
# What calls do to the registry

A successful call creates a model, changes the record of one model, gives a model another name,
deletes a model, or leaves the registry as it is. Whatever holds of the registry after every
sequence of calls is proved from these five cases.

## Main definitions

* `Operation.target?`: the model whose record a call changes.
* `RegistryEffect`: the five things that a successful call can do to the registry.

## Main results

* `Operation.registryEffect`: every successful call has one of the five effects.
-/

namespace RunLedger

open Work

/-- The model whose record a call changes under its name. -/
def Operation.target? : Operation → Option String
  | updateModel name _ | setModelTag name _ _ | deleteModelTag name _ | setAlias name _ _
  | deleteAlias name _ | createVersion name _ | updateVersion name _ _ | transition name _ _ _
  | deleteVersion name _ | setVersionTag name _ _ _ | deleteVersionTag name _ _ => some name
  | _ => none

/-- What a successful call can do to the registry at the time `now`. -/
inductive RegistryEffect (now : Int) : Operation → Database → Database → Prop
  /-- It creates a model under a name that is not taken. -/
  | created {name : String} {description : Option String} {tags : List Tag} {db : Database}
      (hnew : db.models.get? name = none) :
      RegistryEffect now (.createModel name description tags) db
        (db.withModel name (.ofNew now description tags))
  /-- It changes the record of one model. -/
  | amended {operation : Operation} {name : String} {db : Database} {m : ModelRecord}
      (htarget : operation.target? = some name) (hm : db.models.get? name = some m)
      (haccepts : operation.Accepts m) :
      RegistryEffect now operation db (db.withModel name (operation.amend now m))
  /-- It gives a model a name that is not taken, or its own name again. -/
  | renamed {name newName : String} {db : Database} {m : ModelRecord}
      (hm : db.models.get? name = some m)
      (hfree : newName = name ∨ db.models.get? newName = none) :
      RegistryEffect now (.renameModel name newName) db
        ((db.withoutModel name).withModel newName
          ((Operation.renameModel name newName).amend now m))
  /-- It deletes a model. -/
  | deleted {name : String} {db : Database} {m : ModelRecord}
      (hm : db.models.get? name = some m) :
      RegistryEffect now (.deleteModel name) db (db.withoutModel name)
  /-- It leaves the registry as it is. -/
  | none {operation : Operation} {db db' : Database}
      (hop : operation.area ≠ .registry ∨ operation.isRead = true)
      (h : db'.models = db.models) : RegistryEffect now operation db db'

/-- A call whose area is not the registry leaves it as it is. -/
theorem Area.models_eq_of_outside {area : Area} (harea : area ≠ .registry) {db db' : Database}
    (h : area.outside db' = area.outside db) : db'.models = db.models := by
  have hmodels := congrArg Database.models h
  cases area with
  | registry => exact absurd rfl harea
  | experiments | runs | metrics => exact hmodels

/-- **Every successful call creates a model, changes the record of one, renames one, deletes one, or
leaves the registry as it is.** -/
theorem Operation.registryEffect {operation : Operation} {call : Call} {db db' : Database}
    {a : Answer} (h : operation.run.Yields call db a db') :
    RegistryEffect call.now operation db db' := by
  by_cases hread : operation.isRead = true
  · exact .none (.inr hread) (congrArg Database.models (eq_of_isRead hread h))
  have hother (harea : operation.area ≠ .registry) : RegistryEffect call.now operation db db' :=
    .none (.inl harea) (Area.models_eq_of_outside harea (outside_eq h))
  cases operation with
  | getExperiment | getRun | metricHistory | latestMetrics | modelMetrics | getModel | getVersion
  | latestVersions | getByAlias => exact absurd rfl hread
  | createExperiment | createRun | deleteRun | restoreRun | logMetrics | rebuildLatest =>
    exact hother nofun
  | createModel name description tags =>
    obtain ⟨_, hcall, -⟩ := (yields_map _ _).mp h
    obtain ⟨hnew, rfl⟩ := Models.create_inversion hcall
    exact .created hnew
  | updateModel name description =>
    obtain ⟨_, hcall, -⟩ := (yields_map _ _).mp h
    obtain ⟨m, hm, rfl⟩ := Models.update_inversion hcall
    exact .amended rfl hm trivial
  | renameModel name newName =>
    obtain ⟨_, hcall, -⟩ := (yields_map _ _).mp h
    obtain ⟨m, hm, hfree, rfl⟩ := Models.rename_inversion hcall
    exact .renamed hm hfree
  | deleteModel name =>
    obtain ⟨_, hcall, -⟩ := (yields_map _ _).mp h
    obtain ⟨⟨m, hm⟩, rfl⟩ := Models.delete_inversion hcall
    exact .deleted hm
  | setModelTag name key value =>
    obtain ⟨_, hcall, -⟩ := (yields_map _ _).mp h
    obtain ⟨m, hm, rfl⟩ := Models.setTag_inversion hcall
    exact .amended rfl hm trivial
  | deleteModelTag name key =>
    obtain ⟨_, hcall, -⟩ := (yields_map _ _).mp h
    obtain ⟨m, hm, rfl⟩ := Models.deleteTag_inversion hcall
    exact .amended rfl hm trivial
  | setAlias name aliasName version =>
    obtain ⟨_, hcall, -⟩ := (yields_map _ _).mp h
    obtain ⟨m, hm, haccepts, rfl⟩ := Aliases.set_inversion hcall
    exact .amended rfl hm haccepts
  | deleteAlias name aliasName =>
    obtain ⟨_, hcall, -⟩ := (yields_map _ _).mp h
    obtain ⟨m, hm, rfl⟩ := Aliases.delete_inversion hcall
    exact .amended rfl hm trivial
  | createVersion name new =>
    obtain ⟨_, hcall, -⟩ := (yields_map _ _).mp h
    obtain ⟨m, hm, haccepts, -, rfl⟩ := Versions.create_inversion hcall
    exact .amended rfl hm haccepts
  | updateVersion name version description =>
    obtain ⟨_, hcall, -⟩ := (yields_map _ _).mp h
    obtain ⟨m, hm, haccepts, rfl⟩ := Versions.update_inversion hcall
    exact .amended rfl hm haccepts
  | transition name version stage archiveExisting =>
    obtain ⟨_, hcall, -⟩ := (yields_map _ _).mp h
    obtain ⟨m, hm, haccepts, rfl⟩ := Versions.transition_inversion hcall
    exact .amended rfl hm haccepts
  | deleteVersion name version =>
    obtain ⟨_, hcall, -⟩ := (yields_map _ _).mp h
    obtain ⟨m, hm, haccepts, rfl⟩ := Versions.delete_inversion hcall
    exact .amended rfl hm haccepts
  | setVersionTag name version key value =>
    obtain ⟨_, hcall, -⟩ := (yields_map _ _).mp h
    obtain ⟨m, hm, haccepts, rfl⟩ := Versions.setTag_inversion hcall
    exact .amended rfl hm haccepts
  | deleteVersionTag name version key =>
    obtain ⟨_, hcall, -⟩ := (yields_map _ _).mp h
    obtain ⟨m, hm, haccepts, rfl⟩ := Versions.deleteTag_inversion hcall
    exact .amended rfl hm haccepts

end RunLedger
