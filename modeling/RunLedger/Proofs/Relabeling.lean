import RunLedger.Proofs.Metric.Logging
import RunLedger.Proofs.Work.Relabeling

/-!
# Names of models are interchangeable

A call takes no notice of what the models are called, but that a blank name is none: under other
names it comes to what it comes to, and leaves what it leaves. So two names that no model has lead
to the same answers from then on, whatever became of the models that once had them.

## Main definitions

* `relabelSteps`: calls under other names of models.

## Main results

* `Registry.relabels_loadModel`, `Registry.relabels_loadVersion` and their like: readers of the
  registry.
* `Models.relabels_create`, `Models.relabels_rename`, `Versions.relabels_create` and their like: the
  calls, one by one.
* `Operation.perform_relabel`, `Operation.performAll_relabel`: a call, and calls made one after the
  other.
-/

namespace RunLedger

open Work

variable {π : Equiv.Perm String}

/-! ### Experiments and runs -/

/-- A query that fails or succeeds by what is found in a table that is not of the registry. -/
theorem Query.relabels_read_bind {α : Type} {k : Database → Query α}
    (hsame : ∀ db : Database, k (db.relabel π) = k db) (hk : ∀ db, (k db).Relabels π id (k db)) :
    (read >>= k).Relabels π id (read >>= k) :=
  relabels_bind relabels_read fun db => by
    rw [hsame]
    exact hk db

theorem Work.relabels_get_bind {α : Type} {k : Database → Work α}
    (hsame : ∀ db : Database, k (db.relabel π) = k db) (hk : ∀ db, (k db).Relabels π id (k db)) :
    (get >>= k).Relabels π id (get >>= k) :=
  relabels_bind relabels_get fun db => by
    rw [hsame]
    exact hk db

/-- Attempts on tables that are not of the registry. -/
theorem Work.relabels_attemptOr_outside {e : StoreError} {kind : StatementKind} {table : TableName}
    {rows : List Row} (he : e = e.relabel π) (htable : table ∉ TableName.ofRegistry) :
    (attemptOr e kind table rows).Relabels π id (attemptOr e kind table rows) :=
  relabels_attemptOr he _ _ <|
    ((List.map_congr_left fun row _ => row.relabel_eq_self htable).trans (List.map_id rows)).symm

theorem Work.relabels_attempt_outside {kind : StatementKind} {table : TableName} {rows : List Row}
    (htable : table ∉ TableName.ofRegistry) :
    (attempt kind table rows).Relabels π id (attempt kind table rows) :=
  relabels_attemptOr_outside rfl htable

theorem Work.relabels_upsert_outside {table : TableName} {row : Row} {present : Bool}
    (htable : table ∉ TableName.ofRegistry) :
    (attemptUpsert table row present).Relabels π id (attemptUpsert table row present) :=
  relabels_attemptUpsert _ _ (row.relabel_eq_self htable).symm

namespace Experiments

theorem relabels_require (n : Int) : (require n).Relabels π id (require n) := by
  refine Query.relabels_read_bind (fun _ => rfl) fun db => ?_
  cases db.experiments.get? n with
  | none => exact Query.relabels_throw (.experimentNotFound n)
  | some e => exact Query.relabels_pure rfl

theorem relabels_load (n : Int) : (load n).Relabels π id (load n) :=
  Query.relabels_bind (relabels_require n) fun _ => Query.relabels_pure rfl

theorem relabels_put (n : Int) (e : ExperimentRecord) : (put n e).Relabels π id (put n e) :=
  relabels_modify fun _ => rfl

theorem relabels_setTag (n : Int) (tag : Tag) : (setTag n tag).Relabels π id (setTag n tag) :=
  relabels_bind (relabels_ask (relabels_require n)) fun _ =>
    relabels_bind (relabels_upsert_outside (by decide)) fun _ => relabels_put _ _

theorem relabels_insertNext (e : ExperimentRecord) :
    (insertNext e).Relabels π id (insertNext e) :=
  relabels_get_bind (fun _ => rfl) fun _ =>
    relabels_bind (relabels_attemptOr_outside rfl (by decide)) fun _ =>
    relabels_get_bind (fun _ => rfl) fun _ => relabels_unless Iff.rfl rfl <|
    relabels_bind (relabels_modify fun _ => rfl) fun _ => relabels_pure rfl

theorem relabels_create (name : String) (location : Option String) (tags : List Tag) :
    (create name location tags).Relabels π id (create name location tags) := by
  have hrest (n : Int) : (do
      checkpoint "create_experiment" (.inside 0)
      tags.forM (setTag n)
      return n : Work Int).Relabels π id (do
        checkpoint "create_experiment" (.inside 0)
        tags.forM (setTag n)
        return n) :=
    relabels_bind (relabels_checkpoint _ _) fun _ =>
      relabels_bind (relabels_forM (relabels_setTag n) tags) fun _ => relabels_pure rfl
  refine relabels_unless Iff.rfl rfl <| relabels_transact <| relabels_bind relabels_read fun _ =>
    relabels_bind (relabels_insertNext _) fun n => relabels_ite Iff.rfl ?_ (hrest n)
  exact relabels_bind (relabels_bind (relabels_attempt_outside (by decide)) fun _ =>
    relabels_put _ _) fun _ => hrest n

end Experiments

namespace Runs

theorem relabels_require (runId : String) : (require runId).Relabels π id (require runId) := by
  refine Query.relabels_read_bind (fun _ => rfl) fun db => ?_
  cases db.runs.get? runId with
  | none => exact Query.relabels_throw (.runNotFound runId)
  | some r => exact Query.relabels_pure rfl

theorem relabels_load (runId : String) : (load runId).Relabels π id (load runId) :=
  Query.relabels_bind (relabels_require runId) fun _ => Query.relabels_pure rfl

theorem relabels_requireActive (runId : String) :
    (requireActive runId).Relabels π id (requireActive runId) := by
  refine Query.relabels_bind (relabels_require runId) fun r => ?_
  change Query.Relabels π id (ite _ _ _) (ite (r.stage = .active) _ _)
  split
  · exact Query.relabels_pure rfl
  · exact Query.relabels_throw (.runNotActive runId r.stage)

theorem relabels_requireOpen (n : Int) : (requireOpen n).Relabels π id (requireOpen n) := by
  refine Query.relabels_bind (Experiments.relabels_require n) fun e => ?_
  change Query.Relabels π id (ite _ _ _) (ite (e.stage = .active) _ _)
  split
  · exact Query.relabels_pure rfl
  · exact Query.relabels_throw (.experimentNotActive n e.stage)

theorem relabels_put (runId : String) (r : RunRecord) :
    (put runId r).Relabels π id (put runId r) :=
  relabels_modify fun _ => rfl

theorem relabels_setTag (runId : String) (tag : Tag) :
    (setTag runId tag).Relabels π id (setTag runId tag) :=
  relabels_bind (relabels_ask (relabels_require runId)) fun _ =>
    relabels_bind (relabels_upsert_outside (by decide)) fun _ => relabels_put _ _

theorem relabels_insertNew (runId : String) (r : RunRecord) :
    (insertNew runId r).Relabels π id (insertNew runId r) :=
  relabels_bind (relabels_attemptOr_outside rfl (by decide)) fun _ =>
    relabels_get_bind (fun _ => rfl) fun _ => relabels_unless Iff.rfl rfl (relabels_put _ _)

theorem relabels_create (experimentId : Int) (name : String) (userId : Option String)
    (startTime : Int) (tags : List Tag) :
    (create experimentId name userId startTime tags).Relabels π id
      (create experimentId name userId startTime tags) :=
  relabels_transact <| relabels_bind (relabels_ask (relabels_requireOpen _)) fun _ =>
    relabels_bind relabels_read fun _ => relabels_bind (relabels_insertNew _ _) fun _ =>
    relabels_bind (relabels_forM (relabels_setTag _) tags) fun _ => relabels_ask (relabels_load _)

theorem relabels_alter (runId : String) (f : RunRecord → RunRecord) :
    (alter runId f).Relabels π id (alter runId f) :=
  relabels_bind (relabels_ask (relabels_require runId)) fun _ =>
    relabels_bind (relabels_attempt_outside (by decide)) fun _ => relabels_put _ _

end Runs

/-! ### Metrics -/

namespace MetricLog

theorem relabels_historyOf (runId key : String) :
    (historyOf runId key).Relabels π id (historyOf runId key) :=
  Query.relabels_bind (Runs.relabels_require runId) fun _ =>
    Query.relabels_read_bind (fun _ => rfl) fun _ => Query.relabels_pure rfl

theorem relabels_latestOf (runId : String) :
    (latestOf runId).Relabels π id (latestOf runId) :=
  Query.relabels_bind (Runs.relabels_require runId) fun _ => Query.relabels_pure rfl

theorem relabels_modelMetricsOf (modelId : String) :
    (modelMetricsOf modelId).Relabels π id (modelMetricsOf modelId) :=
  Query.relabels_read_bind (fun _ => rfl) fun _ => Query.relabels_pure rfl

theorem relabels_enterHistory (e : HistoryEntry) :
    (enterHistory e).Relabels π id (enterHistory e) :=
  relabels_bind (relabels_attempt_outside (by decide)) fun _ => relabels_modify fun _ => rfl

theorem relabels_enterModel (e : ModelEntry) : (enterModel e).Relabels π id (enterModel e) :=
  relabels_bind (relabels_attempt_outside (by decide)) fun _ => relabels_modify fun _ => rfl

theorem relabels_putLatest (runId key : String) (p : Point) :
    (putLatest runId key p).Relabels π id (putLatest runId key p) :=
  relabels_bind (relabels_ask (Runs.relabels_require runId)) fun _ =>
    relabels_bind (relabels_upsert_outside (by decide)) fun _ => Runs.relabels_put _ _

theorem relabels_advance (found : Table String Point) (runId key : String) (p : Point) :
    (advance found runId key p).Relabels π id (advance found runId key p) := by
  rw [advance]
  cases found.get? key with
  | none => exact relabels_putLatest _ _ _
  | some current => exact relabels_ite Iff.rfl (relabels_putLatest _ _ _) (relabels_pure rfl)

/-- A look-up that fails says nothing about a model. -/
theorem relabels_lookUp (latest : Table String Point) (size : Nat) (keys : List String) :
    Query.Relabels π id (fun _ => lookUp latest size keys) fun _ => lookUp latest size keys := by
  intro db
  change lookUp latest size keys = relabelResult π id (lookUp latest size keys)
  by_cases h : size ≤ keyLimit ∨ keys.length ≤ keyLimit
  · obtain ⟨found, hfound⟩ := exists_lookUp latest h
    rw [hfound]
    rfl
  · rw [lookUp_eq_error latest h]
    rfl

theorem relabels_enter (runId : String) (r : RunRecord) (entries : List HistoryEntry) :
    (enter runId r entries).Relabels π id (enter runId r entries) :=
  relabels_bind (relabels_forM relabels_enterHistory _) fun _ =>
    relabels_bind (relabels_checkpoint _ _) fun _ =>
    relabels_bind (relabels_forM relabels_enterModel _) fun _ =>
    relabels_bind (relabels_checkpoint _ _) fun _ =>
    relabels_bind (relabels_ask (Runs.relabels_require runId)) fun _ =>
    relabels_bind relabels_read fun _ =>
    relabels_bind (relabels_ask (relabels_lookUp _ _ _)) fun _ =>
    relabels_forM (fun _ => relabels_advance _ _ _ _) _

theorem relabels_record (runId : String) (metrics : List Metric) :
    (record runId metrics).Relabels π id (record runId metrics) := by
  have hkeys : Query.Relabels π id (fun _ => checkKeys metrics) fun _ => checkKeys metrics := by
    intro db
    change checkKeys metrics = relabelResult π id (checkKeys metrics)
    rw [checkKeys]
    split <;> rfl
  refine relabels_within <| relabels_transact <|
    relabels_bind (relabels_ask (Runs.relabels_requireActive runId)) fun r =>
    relabels_bind (relabels_ask hkeys) fun _ => ?_
  cases batch runId metrics with
  | nil => exact relabels_pure rfl
  | cons e es => exact relabels_enter runId r (e :: es)

theorem relabels_rebuild (runId : String) :
    (rebuild runId).Relabels π id (rebuild runId) :=
  relabels_within <| relabels_transact <|
    relabels_bind (relabels_ask (Runs.relabels_require runId)) fun _ =>
    relabels_get_bind (fun _ => rfl) fun _ =>
    relabels_bind (relabels_attempt_outside (by decide)) fun _ =>
    relabels_bind (Runs.relabels_put _ _) fun _ =>
    relabels_bind (relabels_checkpoint _ _) fun _ =>
    relabels_bind (relabels_forM (fun _ => relabels_putLatest _ _ _) _) fun _ =>
    relabels_pure rfl

end MetricLog

/-! ### The registry -/

namespace Registry

variable {name : String}

theorem get?_models_relabel (db : Database) (name : String) :
    (db.relabel π).models.get? (π name) = db.models.get? name :=
  Table.get?_relabel π db.models name

theorem findVersion?_relabel (db : Database) (name : String) (version : Int) :
    findVersion? (db.relabel π) (π name) version = findVersion? db name version := by
  rw [findVersion?, findVersion?, get?_models_relabel]

theorem relabels_requireModel (name : String) :
    (requireModel name).Relabels π id (requireModel (π name)) := by
  intro db
  rw [run_requireModel, run_requireModel, get?_models_relabel]
  cases db.models.get? name <;> rfl

theorem relabels_decode (name : String) (version : Int) (v : VersionRecord) :
    (decode name version v).Relabels π (ModelVersion.relabel π) (decode (π name) version v) := by
  rw [decode, decode, v.entity?_relabel]
  cases v.entity? name version with
  | none => exact Query.relabels_throw .statementFailed
  | some entity => exact Query.relabels_pure rfl

theorem relabels_requireVersion (name : String) (version : Int) :
    (requireVersion name version).Relabels π
      (fun (m, v, entity) => (m, v, entity.relabel π)) (requireVersion (π name) version) := by
  intro db
  rw [run_requireVersion, run_requireVersion, findVersion?_relabel]
  rcases findVersion? db name version with _ | ⟨m, v⟩
  · rfl
  · simp only [v.entity?_relabel]
    cases v.entity? name version <;> rfl

theorem relabels_loadVersion (name : String) (version : Int) :
    (loadVersion name version).Relabels π (ModelVersion.relabel π)
      (loadVersion (π name) version) :=
  Query.relabels_bind (relabels_requireVersion name version) fun _ => Query.relabels_pure rfl

theorem relabels_loadLatest (name : String) (m : ModelRecord) :
    (loadLatest name m).Relabels π (List.map (ModelVersion.relabel π)) (loadLatest (π name) m) :=
  Query.relabels_mapM (fun (version, v) =>
    Query.relabels_bind (relabels_decode name version v) fun _ => Query.relabels_pure rfl) _

theorem relabels_loadModel (name : String) :
    (loadModel name).Relabels π (RegisteredModel.relabel π) (loadModel (π name)) :=
  Query.relabels_bind (relabels_requireModel name) fun m =>
    Query.relabels_bind (relabels_loadLatest name m) fun _ => Query.relabels_pure rfl

theorem relabels_putModel (name : String) (m : ModelRecord) :
    (putModel name m).Relabels π id (putModel (π name) m) :=
  relabels_modify fun db => by
    simp only [Database.relabel, Table.relabel_insert]

theorem relabels_putVersion (name : String) (version : Int) (v : VersionRecord) :
    (putVersion name version v).Relabels π id (putVersion (π name) version v) :=
  relabels_modify fun db => by
    simp only [Database.relabel, Table.relabel_update]

theorem relabels_alterModel (name : String) (f : ModelRecord → ModelRecord) :
    (alterModel name f).Relabels π id (alterModel (π name) f) :=
  relabels_bind (relabels_ask (relabels_requireModel name)) fun m =>
    relabels_bind (relabels_attempt _ _ ((f m).rowsIn_relabel π name .models)) fun _ =>
    relabels_putModel _ _

theorem relabels_touch (name : String) : (touch name).Relabels π id (touch (π name)) :=
  relabels_bind relabels_read fun _ => relabels_alterModel _ _

theorem relabels_alterVersions (name : String) (p : Int → VersionRecord → Bool)
    (f : VersionRecord → VersionRecord) :
    (alterVersions name p f).Relabels π id (alterVersions (π name) p f) :=
  relabels_bind (relabels_ask (relabels_requireModel name)) fun _ =>
    relabels_bind (relabels_attempt _ _ (Row.map_relabel (fun _ => VersionRecord.row_relabel ..) _))
      fun _ => relabels_putModel _ _

end Registry

open Registry

namespace Models

theorem relabels_putTag (name key value : String) :
    (putTag name key value).Relabels π id (putTag (π name) key value) :=
  relabels_bind (relabels_ask (relabels_requireModel name)) fun _ =>
    relabels_bind (relabels_attemptUpsert _ _ (modelTagRow_relabel ..)) fun _ =>
    relabels_putModel _ _

theorem relabels_insertNew (name : String) (m : ModelRecord) (newIsPrompt : Bool) :
    (insertNew name m newIsPrompt).Relabels π id (insertNew (π name) m newIsPrompt) := by
  refine relabels_bind (relabels_attemptOr rfl _ _ (m.rowsIn_relabel π name .models)) fun _ =>
    relabels_bind relabels_get fun db => ?_
  rw [get?_models_relabel]
  cases db.models.get? name with
  | some taken => exact relabels_throw (.modelExists name _ newIsPrompt)
  | none => exact relabels_putModel name m

/-- A blank name is refused; so no other name may stand for a blank one. -/
theorem modelName_relabel (hblank : ∀ name, Text.isBlank (π name) = Text.isBlank name)
    (name : String) : Rules.modelName (π name) = Rules.modelName name := by
  rw [Rules.modelName, Rules.modelName, hblank]

theorem relabels_create (hblank : ∀ name, Text.isBlank (π name) = Text.isBlank name)
    (name : String) (description : Option String) (tags : List Tag) :
    (create name description tags).Relabels π (RegisteredModel.relabel π)
      (create (π name) description tags) :=
  relabels_bind (relabels_ensure (modelName_relabel hblank name)) fun _ =>
    relabels_bind (relabels_ensure rfl) fun _ => relabels_transact <|
    relabels_bind relabels_read fun _ => relabels_bind (relabels_insertNew _ _ _) fun _ =>
    relabels_bind (relabels_forM (fun _ => relabels_putTag _ _ _) _) fun _ =>
    relabels_ask (relabels_loadModel _)

theorem relabels_update (name : String) (description : Option String) :
    (update name description).Relabels π (RegisteredModel.relabel π)
      (update (π name) description) :=
  relabels_within <| relabels_transact <| relabels_bind (relabels_alterModel _ _) fun _ =>
    relabels_bind (relabels_touch _) fun _ => relabels_ask (relabels_loadModel _)

theorem relabels_moveModel (name newName : String) (now : Int) :
    (moveModel name newName now).Relabels π id (moveModel (π name) (π newName) now) := by
  refine relabels_bind (relabels_ask (relabels_requireModel name)) fun m =>
    relabels_bind (relabels_attemptOr rfl _ _ (ModelRecord.rowsIn_relabel π _ newName .models))
      fun _ => relabels_bind relabels_get fun db => relabels_unless ?_ rfl <|
      relabels_modify fun db => ?_
  · simp only [Table.contains, get?_models_relabel, bne_iff_ne, Bool.and_eq_true, ne_eq,
      π.apply_eq_iff_eq]
  · simp only [Database.relabel, Table.relabel_insert, Table.relabel_erase, id]

theorem relabels_rename (hblank : ∀ name, Text.isBlank (π name) = Text.isBlank name)
    (name newName : String) :
    (rename name newName).Relabels π (RegisteredModel.relabel π)
      (rename (π name) (π newName)) :=
  relabels_bind (relabels_ensure (modelName_relabel hblank newName)) fun _ => relabels_within <|
    relabels_transact <| relabels_bind relabels_read fun _ =>
    relabels_bind (relabels_moveModel _ _ _) fun _ =>
    relabels_bind (relabels_checkpoint _ _) fun _ =>
    relabels_bind (relabels_alterVersions _ _ _) fun _ =>
    relabels_bind (relabels_ask (relabels_requireModel newName)) fun m =>
    relabels_bind (relabels_attempt _ _ (m.rowsIn_relabel π newName .versionTags)) fun _ =>
    relabels_bind (relabels_attempt _ _ (m.rowsIn_relabel π newName .modelTags)) fun _ =>
    relabels_bind (relabels_attempt _ _ (m.rowsIn_relabel π newName .aliases)) fun _ =>
    relabels_ask (relabels_loadModel _)

theorem relabels_delete (name : String) : (delete name).Relabels π id (delete (π name)) := by
  refine relabels_within <| relabels_transact <|
    relabels_bind (relabels_ask (relabels_requireModel name)) fun m =>
    relabels_bind (relabels_attempt _ _ (m.rowsIn_relabel π name .versionTags)) fun _ =>
    relabels_bind (relabels_attempt _ _ (m.rowsIn_relabel π name .versions)) fun _ =>
    relabels_bind (relabels_putModel _ _) fun _ =>
    relabels_bind (relabels_checkpoint _ _) fun _ =>
    relabels_bind (relabels_attempt _ _ (m.rowsIn_relabel π name .modelTags)) fun _ =>
    relabels_bind (relabels_attempt _ _ (m.rowsIn_relabel π name .aliases)) fun _ =>
    relabels_bind (relabels_attempt _ _ (m.rowsIn_relabel π name .models)) fun _ =>
    relabels_modify fun db => ?_
  simp only [Database.relabel, Table.relabel_erase]

theorem relabels_setTag (name key value : String) :
    (setTag name key value).Relabels π id (setTag (π name) key value) :=
  relabels_bind (relabels_ensure rfl) fun _ => relabels_transact (relabels_putTag _ _ _)

theorem relabels_deleteTag (name key : String) :
    (deleteTag name key).Relabels π id (deleteTag (π name) key) :=
  relabels_bind (relabels_ensure rfl) fun _ => relabels_transact <|
    relabels_bind (relabels_ask (relabels_requireModel name)) fun _ =>
    relabels_bind (relabels_attempt _ _ (Row.map_relabel (fun _ => modelTagRow_relabel ..) _))
      fun _ => relabels_putModel _ _

end Models

namespace Aliases

theorem relabels_set (name aliasName : String) (version : Int) :
    (set name aliasName version).Relabels π id (set (π name) aliasName version) :=
  relabels_bind (relabels_ensure rfl) fun _ => relabels_transact <|
    relabels_bind (relabels_ask (relabels_requireModel name)) fun _ =>
    relabels_bind (relabels_ask (relabels_requireVersion name version)) fun _ =>
    relabels_bind (relabels_attemptUpsert _ _ (aliasRow_relabel ..)) fun _ =>
    relabels_putModel _ _

theorem relabels_delete (name aliasName : String) :
    (delete name aliasName).Relabels π id (delete (π name) aliasName) :=
  relabels_bind (relabels_ensure rfl) fun _ => relabels_transact <|
    relabels_bind (relabels_ask (relabels_requireModel name)) fun _ =>
    relabels_bind (relabels_attempt _ _ (Row.map_relabel (fun _ => aliasRow_relabel ..) _))
      fun _ => relabels_putModel _ _

theorem relabels_resolve (name aliasName : String) :
    (resolve name aliasName).Relabels π (ModelVersion.relabel π) (resolve (π name) aliasName) := by
  refine Query.relabels_bind (relabels_requireModel name) fun m => ?_
  rw [id]
  cases m.aliases.get? aliasName with
  | some version => exact relabels_loadVersion name version
  | none => exact Query.relabels_throw (.aliasNotFound aliasName)

end Aliases

namespace Versions

theorem relabels_requireNext (name : String) :
    (requireNext name).Relabels π id (requireNext (π name)) := by
  refine Query.relabels_bind (relabels_requireModel name) fun m => ?_
  change Query.Relabels π id (ite _ _ _) (ite (inInt64 (nextNumber m) = true) _ _)
  split
  · exact Query.relabels_pure rfl
  · exact Query.relabels_throw .statementFailed

theorem relabels_putTag (name : String) (version : Int) (key value : String) :
    (putTag name version key value).Relabels π id (putTag (π name) version key value) :=
  relabels_bind (relabels_ask (relabels_requireVersion name version)) fun _ =>
    relabels_bind (relabels_attemptUpsert _ _ (versionTagRow_relabel ..)) fun _ =>
    relabels_putVersion _ _ _

theorem relabels_create (name : String) (new : NewVersion) :
    (create name new).Relabels π (ModelVersion.relabel π) (create (π name) new) :=
  relabels_bind (relabels_ensure rfl) fun _ => relabels_within <| relabels_transact <|
    relabels_bind (relabels_ask (relabels_requireNext name)) fun _ =>
    relabels_bind relabels_read fun _ =>
    relabels_bind (relabels_bind (relabels_attempt _ _ (congrArg List.singleton
      (VersionRecord.row_relabel ..))) fun _ => relabels_putVersion _ _ _) fun _ =>
    relabels_bind (relabels_forM (fun _ => relabels_putTag _ _ _ _) _) fun _ =>
    relabels_bind (relabels_touch _) fun _ => relabels_ask (relabels_loadVersion _ _)

theorem relabels_latestIn (name : String) (stages : List VersionStage) :
    (latestIn name stages).Relabels π (List.map (ModelVersion.relabel π))
      (latestIn (π name) stages) :=
  Query.relabels_bind (relabels_requireModel name) fun m =>
    Query.relabels_bind (relabels_loadLatest name m) fun _ =>
    Query.relabels_pure List.filter_map

theorem relabels_update (name : String) (version : Int) (description : Option String) :
    (update name version description).Relabels π (ModelVersion.relabel π)
      (update (π name) version description) :=
  relabels_within <| relabels_transact <|
    relabels_bind (relabels_ask (relabels_requireVersion name version)) fun _ =>
    relabels_bind relabels_read fun _ => relabels_bind (relabels_alterVersions _ _ _) fun _ =>
    relabels_ask (relabels_loadVersion _ _)

theorem relabels_archiveOthers (name : String) (version : Int) (stage : VersionStage) :
    (archiveOthers name version stage).Relabels π id (archiveOthers (π name) version stage) :=
  relabels_bind (relabels_checkpoint _ _) fun _ => relabels_bind relabels_read fun _ =>
    relabels_alterVersions _ _ _

theorem relabels_transition (name : String) (version : Int) (stage : VersionStage)
    (archiveExisting : Bool) :
    (transition name version stage archiveExisting).Relabels π (ModelVersion.relabel π)
      (transition (π name) version stage archiveExisting) :=
  relabels_bind (relabels_ensure rfl) fun _ => relabels_within <| relabels_transact <|
    relabels_bind (relabels_ask (relabels_requireVersion name version)) fun _ =>
    relabels_bind relabels_read fun _ => relabels_bind (relabels_touch _) fun _ =>
    relabels_bind (relabels_alterVersions _ _ _) fun _ =>
    relabels_ite Iff.rfl
      (relabels_bind (relabels_archiveOthers _ _ _) fun _ =>
        relabels_ask (relabels_loadVersion _ _))
      (relabels_ask (relabels_loadVersion _ _))

theorem relabels_delete (name : String) (version : Int) :
    (delete name version).Relabels π id (delete (π name) version) :=
  relabels_within <| relabels_transact <|
    relabels_bind (relabels_ask (relabels_requireModel name)) fun _ =>
    relabels_bind (relabels_ask (relabels_requireVersion name version)) fun _ =>
    relabels_bind relabels_read fun _ => relabels_bind (relabels_touch _) fun _ =>
    relabels_bind (relabels_ask (relabels_requireModel name)) fun _ =>
    relabels_bind (relabels_attempt _ _ (Row.map_relabel (fun _ => aliasRow_relabel ..) _))
      fun _ => relabels_bind (relabels_putModel _ _) fun _ =>
    relabels_bind (relabels_checkpoint _ _) fun _ => relabels_alterVersions _ _ _

theorem relabels_setTag (name : String) (version : Int) (key value : String) :
    (setTag name version key value).Relabels π id (setTag (π name) version key value) :=
  relabels_bind (relabels_ensure rfl) fun _ => relabels_transact (relabels_putTag _ _ _ _)

theorem relabels_deleteTag (name : String) (version : Int) (key : String) :
    (deleteTag name version key).Relabels π id (deleteTag (π name) version key) :=
  relabels_bind (relabels_ensure rfl) fun _ => relabels_transact <|
    relabels_bind (relabels_ask (relabels_requireVersion name version)) fun _ =>
    relabels_bind (relabels_attempt _ _ (Row.map_relabel (fun _ => versionTagRow_relabel ..) _))
      fun _ => relabels_putVersion _ _ _

end Versions

/-! ### Calls -/

/-- Calls on models of other names. -/
def relabelSteps (π : Equiv.Perm String) (steps : List (Call × Operation)) :
    List (Call × Operation) :=
  steps.map fun (call, operation) => (call.relabel π, operation.relabel π)

namespace Operation

variable (hblank : ∀ name, Text.isBlank (π name) = Text.isBlank name)

include hblank

theorem relabels_run (operation : Operation) :
    operation.run.Relabels π (Answer.relabel π) (operation.relabel π).run := by
  cases operation with
  | createExperiment => exact relabels_map (Experiments.relabels_create _ _ _) fun _ => rfl
  | getExperiment =>
    exact relabels_map (relabels_consult (Experiments.relabels_load _)) fun _ => rfl
  | createRun => exact relabels_map (Runs.relabels_create _ _ _ _ _) fun _ => rfl
  | getRun => exact relabels_map (relabels_consult (Runs.relabels_load _)) fun _ => rfl
  | deleteRun =>
    exact relabels_map (relabels_transact <| relabels_bind relabels_read fun _ =>
      Runs.relabels_alter _ _) fun _ => rfl
  | restoreRun => exact relabels_map (relabels_transact (Runs.relabels_alter _ _)) fun _ => rfl
  | logMetrics => exact relabels_map (MetricLog.relabels_record _ _) fun _ => rfl
  | metricHistory =>
    exact relabels_map (relabels_consult (MetricLog.relabels_historyOf _ _)) fun _ => rfl
  | latestMetrics =>
    exact relabels_map (relabels_consult (MetricLog.relabels_latestOf _)) fun _ => rfl
  | rebuildLatest =>
    exact relabels_map (relabels_map (MetricLog.relabels_rebuild _) fun _ => rfl) fun _ => rfl
  | modelMetrics =>
    exact relabels_map (relabels_consult (MetricLog.relabels_modelMetricsOf _)) fun _ => rfl
  | createModel => exact relabels_map (Models.relabels_create hblank _ _ _) fun _ => rfl
  | getModel => exact relabels_map (relabels_consult (relabels_loadModel _)) fun _ => rfl
  | updateModel => exact relabels_map (Models.relabels_update _ _) fun _ => rfl
  | renameModel => exact relabels_map (Models.relabels_rename hblank _ _) fun _ => rfl
  | deleteModel => exact relabels_map (Models.relabels_delete _) fun _ => rfl
  | setModelTag => exact relabels_map (Models.relabels_setTag _ _ _) fun _ => rfl
  | deleteModelTag => exact relabels_map (Models.relabels_deleteTag _ _) fun _ => rfl
  | setAlias => exact relabels_map (Aliases.relabels_set _ _ _) fun _ => rfl
  | deleteAlias => exact relabels_map (Aliases.relabels_delete _ _) fun _ => rfl
  | getByAlias =>
    exact relabels_map (relabels_bind (relabels_ensure rfl) fun _ =>
      relabels_consult (Aliases.relabels_resolve _ _)) fun _ => rfl
  | createVersion => exact relabels_map (Versions.relabels_create _ _) fun _ => rfl
  | getVersion => exact relabels_map (relabels_consult (relabels_loadVersion _ _)) fun _ => rfl
  | latestVersions =>
    exact relabels_map (relabels_consult (Versions.relabels_latestIn _ _)) fun _ => rfl
  | updateVersion => exact relabels_map (Versions.relabels_update _ _ _) fun _ => rfl
  | transition => exact relabels_map (Versions.relabels_transition _ _ _ _) fun _ => rfl
  | deleteVersion => exact relabels_map (Versions.relabels_delete _ _) fun _ => rfl
  | setVersionTag => exact relabels_map (Versions.relabels_setTag _ _ _ _) fun _ => rfl
  | deleteVersionTag => exact relabels_map (Versions.relabels_deleteTag _ _ _) fun _ => rfl

/-- **A call comes under other names to what it comes to, and leaves what it leaves.** -/
theorem perform_relabel (operation : Operation) (call : Call) (db : Database) :
    (operation.relabel π).run.perform (call.relabel π) (db.relabel π) =
      (relabelResult π (Answer.relabel π) (operation.run.perform call db).1,
        (operation.run.perform call db).2.relabel π) :=
  relabels_run hblank operation call db

/-- **So do calls made one after the other.** -/
theorem performAll_relabel (steps : List (Call × Operation)) (db : Database) :
    performAll (relabelSteps π steps) (db.relabel π) =
      ((performAll steps db).1.map (relabelResult π (Answer.relabel π)),
        (performAll steps db).2.relabel π) := by
  induction steps generalizing db with
  | nil => rfl
  | cons step steps ih =>
    obtain ⟨call, operation⟩ := step
    rw [relabelSteps, List.map_cons, ← relabelSteps, performAll_cons, performAll_cons,
      perform_relabel hblank, ih]
    rfl

end Operation

end RunLedger
