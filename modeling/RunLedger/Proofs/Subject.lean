import RunLedger.Operation
import RunLedger.Proofs.Work.Overlooking

/-!
# What reading calls are about

Every call that only reads is about one subject: an experiment, a run, a logged model or a
registered model. It reads its answer from the part of the database that belongs to the subject, so
it takes no notice of a change that leaves that part alone.

## Main definitions

* `Subject`, `Operation.subject?`: what a call that reads is about.
* `Subject.part`: the part of a database that belongs to a subject.

## Main results

* `Subject.part_experiment_eq_iff`, `Subject.part_run_eq_iff`, …: when two databases have the same
  part.
* `Experiments.overlooks_load`, `Registry.overlooks_loadModel` and their like: what queries take no
  notice of.
* `Operation.overlooks_of_part`: a call that reads takes no notice of changes elsewhere.
-/

namespace RunLedger

open Work

/-- What a call that only reads can be about. -/
inductive Subject
  /-- The experiment with an id. -/
  | experiment (id : Int)
  /-- The run with an id, with its observations and latest points. -/
  | run (id : String)
  /-- The logged model with an id, to which observations are tied. -/
  | loggedModel (id : String)
  /-- The registered model of a name, with everything it owns. -/
  | model (name : String)
deriving DecidableEq

/-- What a call that only reads is about. -/
def Operation.subject? : Operation → Option Subject
  | getExperiment id => some (.experiment id)
  | getRun id | metricHistory id _ | latestMetrics id => some (.run id)
  | modelMetrics id => some (.loggedModel id)
  | getModel name | getByAlias name _ | getVersion name _ | latestVersions name _ =>
    some (.model name)
  | _ => none

theorem Operation.isSome_subject? (operation : Operation) :
    operation.subject?.isSome = operation.isRead := by
  cases operation <;> rfl

namespace Subject

/-- The part of a database that belongs to a subject: the database with everything else emptied. -/
def part : Subject → Database → Database
  | experiment id, db =>
    { Database.empty with experiments := db.experiments.filter fun other _ => other == id }
  | run id, db =>
    { Database.empty with
      runs := db.runs.filter fun other _ => other == id
      history := MetricLog.entriesOf id db }
  | loggedModel id, db =>
    { Database.empty with modelMetrics := db.modelMetrics.filter fun e => e.modelId == id }
  | model name, db =>
    { Database.empty with models := db.models.filter fun other _ => other == name }

end Subject

/-- The entries at one key are determined by the value there. -/
theorem Table.filter_key_eq_iff {κ ρ : Type} [Ord κ] [Std.TransOrd κ] [Std.LawfulEqOrd κ] [BEq κ]
    [LawfulBEq κ] {s t : Table κ ρ} {k : κ} :
    (s.filter fun l _ => l == k) = (t.filter fun l _ => l == k) ↔ s.get? k = t.get? k := by
  have hself (u : Table κ ρ) : (u.filter fun l _ => l == k).get? k = u.get? k := by
    rw [get?_filter]
    cases u.get? k <;> simp
  constructor
  · intro h
    rw [← hself s, h, hself]
  · intro h
    refine ext_get? fun l => ?_
    rw [get?_filter, get?_filter]
    by_cases hl : l = k
    · rw [hl, h]
    · have hnone (o : Option ρ) : o.filter (fun _ => l == k) = none :=
        Option.filter_eq_none_iff.mpr fun _ _ => by simp [hl]
      rw [hnone, hnone]

namespace Subject

variable {db db' : Database}

theorem part_experiment_eq_iff {id : Int} :
    (experiment id).part db' = (experiment id).part db ↔
      db'.experiments.get? id = db.experiments.get? id := by
  rw [← Table.filter_key_eq_iff]
  exact ⟨congrArg Database.experiments, fun h => by rw [part, part, h]⟩

theorem part_run_eq_iff {id : String} :
    (run id).part db' = (run id).part db ↔
      db'.runs.get? id = db.runs.get? id ∧
        MetricLog.entriesOf id db' = MetricLog.entriesOf id db := by
  rw [← Table.filter_key_eq_iff]
  exact ⟨fun h => ⟨congrArg Database.runs h, congrArg Database.history h⟩,
    fun h => by rw [part, part, h.1, h.2]⟩

theorem part_loggedModel_eq_iff {id : String} :
    (loggedModel id).part db' = (loggedModel id).part db ↔
      db'.modelMetrics.filter (fun e => e.modelId == id) =
        db.modelMetrics.filter fun e => e.modelId == id :=
  ⟨congrArg Database.modelMetrics, fun h => by rw [part, part, h]⟩

theorem part_model_eq_iff {name : String} :
    (model name).part db' = (model name).part db ↔
      db'.models.get? name = db.models.get? name := by
  rw [← Table.filter_key_eq_iff]
  exact ⟨congrArg Database.models, fun h => by rw [part, part, h]⟩

/-- Taking the part again changes nothing. -/
theorem part_part (subject : Subject) (db : Database) :
    subject.part (subject.part db) = subject.part db := by
  cases subject <;> simp [part, Table.filter, MetricLog.entriesOf]

end Subject

/-! ### Queries -/

variable {σ : Database → Database}

namespace Experiments

variable {id : Int} (h : ∀ db, (σ db).experiments.get? id = db.experiments.get? id)

include h

theorem overlooks_require : (require id).Overlooks σ :=
  Query.overlooks_read_bind (fun db => by rw [h]) fun db => by
    cases db.experiments.get? id with
    | none => exact Query.overlooks_throw _
    | some e => exact Query.overlooks_pure e

theorem overlooks_load : (load id).Overlooks σ :=
  Query.overlooks_bind (overlooks_require h) fun _ => Query.overlooks_pure _

end Experiments

namespace Runs

variable {id : String} (h : ∀ db, (σ db).runs.get? id = db.runs.get? id)

include h

theorem overlooks_require : (require id).Overlooks σ :=
  Query.overlooks_read_bind (fun db => by rw [h]) fun db => by
    cases db.runs.get? id with
    | none => exact Query.overlooks_throw _
    | some r => exact Query.overlooks_pure r

theorem overlooks_load : (load id).Overlooks σ :=
  Query.overlooks_bind (overlooks_require h) fun _ => Query.overlooks_pure _

theorem overlooks_requireActive : (requireActive id).Overlooks σ :=
  Query.overlooks_bind (overlooks_require h) fun _ =>
    Query.overlooks_ite (Query.overlooks_pure _) (Query.overlooks_throw _)

end Runs

namespace MetricLog

variable {id : String}

theorem overlooks_historyOf (hrun : ∀ db, (σ db).runs.get? id = db.runs.get? id)
    (hentries : ∀ db, entriesOf id (σ db) = entriesOf id db) (key : String) :
    (historyOf id key).Overlooks σ :=
  Query.overlooks_bind (Runs.overlooks_require hrun) fun _ =>
    Query.overlooks_read_bind (fun db => by rw [hentries]) fun _ => Query.overlooks_pure _

theorem overlooks_latestOf (hrun : ∀ db, (σ db).runs.get? id = db.runs.get? id) :
    (latestOf id).Overlooks σ :=
  Query.overlooks_bind (Runs.overlooks_require hrun) fun _ => Query.overlooks_pure _

theorem overlooks_modelMetricsOf
    (h : ∀ db, (σ db).modelMetrics.filter (fun e => e.modelId == id) =
      db.modelMetrics.filter fun e => e.modelId == id) : (modelMetricsOf id).Overlooks σ :=
  Query.overlooks_read_bind (fun db => by rw [h]) fun _ => Query.overlooks_pure _

end MetricLog

namespace Registry

theorem overlooks_decode (name : String) (version : Int) (v : VersionRecord) :
    (decode name version v).Overlooks σ := by
  rw [decode]
  cases v.entity? name version with
  | none => exact Query.overlooks_throw _
  | some entity => exact Query.overlooks_pure entity

theorem overlooks_loadLatest (name : String) (m : ModelRecord) :
    (loadLatest name m).Overlooks σ :=
  Query.overlooks_mapM (fun _ =>
    Query.overlooks_bind (overlooks_decode _ _ _) fun _ => Query.overlooks_pure _) _

variable {name : String} {version : Int}
  (h : ∀ db, (σ db).models.get? name = db.models.get? name)

include h

theorem overlooks_requireModel : (requireModel name).Overlooks σ :=
  Query.overlooks_read_bind (fun db => by rw [h]) fun db => by
    cases db.models.get? name with
    | none => exact Query.overlooks_throw _
    | some m => exact Query.overlooks_pure m

theorem overlooks_requireVersion : (requireVersion name version).Overlooks σ :=
  Query.overlooks_read_bind (fun db => by rw [findVersion?, findVersion?, h]) fun db => by
    cases findVersion? db name version with
    | none => exact Query.overlooks_throw _
    | some mv =>
      exact Query.overlooks_bind (overlooks_decode _ _ _) fun _ => Query.overlooks_pure _

theorem overlooks_loadVersion : (loadVersion name version).Overlooks σ :=
  Query.overlooks_bind (overlooks_requireVersion h) fun _ => Query.overlooks_pure _

theorem overlooks_loadModel : (loadModel name).Overlooks σ :=
  Query.overlooks_bind (overlooks_requireModel h) fun _ =>
    Query.overlooks_bind (overlooks_loadLatest _ _) fun _ => Query.overlooks_pure _

end Registry

open Registry

theorem Aliases.overlooks_resolve {name : String}
    (h : ∀ db, (σ db).models.get? name = db.models.get? name) (aliasName : String) :
    (resolve name aliasName).Overlooks σ :=
  Query.overlooks_bind (overlooks_requireModel h) fun m => by
    cases m.aliases.get? aliasName with
    | none => exact Query.overlooks_throw _
    | some version => exact overlooks_loadVersion h

theorem Versions.overlooks_latestIn {name : String}
    (h : ∀ db, (σ db).models.get? name = db.models.get? name) (stages : List VersionStage) :
    (latestIn name stages).Overlooks σ :=
  Query.overlooks_bind (overlooks_requireModel h) fun _ =>
    Query.overlooks_bind (overlooks_loadLatest _ _) fun _ => Query.overlooks_pure _

/-! ### Calls -/

/-- **A call that reads takes no notice of a change that leaves the part of its subject alone.** -/
theorem Operation.overlooks_of_part {operation : Operation} {subject : Subject}
    (hsubject : operation.subject? = some subject)
    (hσ : ∀ db, subject.part (σ db) = subject.part db) : operation.run.Overlooks σ := by
  cases operation with
  | getExperiment id =>
    obtain rfl := Option.some.inj hsubject
    have h db := Subject.part_experiment_eq_iff.mp (hσ db)
    exact overlooks_map (overlooks_consult (Experiments.overlooks_load h))
  | getRun id =>
    obtain rfl := Option.some.inj hsubject
    have h db := (Subject.part_run_eq_iff.mp (hσ db)).1
    exact overlooks_map (overlooks_consult (Runs.overlooks_load h))
  | metricHistory id key =>
    obtain rfl := Option.some.inj hsubject
    have hrun db := (Subject.part_run_eq_iff.mp (hσ db)).1
    have hentries db := (Subject.part_run_eq_iff.mp (hσ db)).2
    exact overlooks_map (overlooks_consult (MetricLog.overlooks_historyOf hrun hentries key))
  | latestMetrics id =>
    obtain rfl := Option.some.inj hsubject
    have h db := (Subject.part_run_eq_iff.mp (hσ db)).1
    exact overlooks_map (overlooks_consult (MetricLog.overlooks_latestOf h))
  | modelMetrics id =>
    obtain rfl := Option.some.inj hsubject
    have h db := Subject.part_loggedModel_eq_iff.mp (hσ db)
    exact overlooks_map (overlooks_consult (MetricLog.overlooks_modelMetricsOf h))
  | getModel name =>
    obtain rfl := Option.some.inj hsubject
    have h db := Subject.part_model_eq_iff.mp (hσ db)
    exact overlooks_map (overlooks_consult (overlooks_loadModel h))
  | getByAlias name aliasName =>
    obtain rfl := Option.some.inj hsubject
    have h db := Subject.part_model_eq_iff.mp (hσ db)
    exact overlooks_map <| overlooks_bind (overlooks_ensure _) fun _ =>
      overlooks_consult (Aliases.overlooks_resolve h aliasName)
  | getVersion name version =>
    obtain rfl := Option.some.inj hsubject
    have h db := Subject.part_model_eq_iff.mp (hσ db)
    exact overlooks_map (overlooks_consult (overlooks_loadVersion h))
  | latestVersions name stages =>
    obtain rfl := Option.some.inj hsubject
    have h db := Subject.part_model_eq_iff.mp (hσ db)
    exact overlooks_map (overlooks_consult (Versions.overlooks_latestIn h stages))
  | _ => cases hsubject

/-- **A call that reads answers alike on databases with the same part for its subject.** -/
theorem Operation.answer_eq_of_part_eq {operation : Operation} {subject : Subject}
    (hsubject : operation.subject? = some subject) {db db' : Database}
    (h : subject.part db' = subject.part db) (call : Call) :
    (operation.run.perform call db').1 = (operation.run.perform call db).1 := by
  have hpart (d : Database) : (operation.run.perform call (subject.part d)).1 =
      (operation.run.perform call d).1 := by
    rw [overlooks_of_part hsubject subject.part_part]
  rw [← hpart db', h, hpart]

end RunLedger
