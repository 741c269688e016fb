import RunLedger.Proofs.Experiments.Change
import RunLedger.Proofs.Metric.LatestInStep
import RunLedger.Proofs.Registry.Effect
import RunLedger.Proofs.Subject

/-!
# Calls keep to their subjects

All models share their tables, and so do all runs. Still a call changes only what belongs to the
subjects that it is addressed to: one model by its name, or two if it renames one; one run, and the
logged models that a batch of observations names; or a new experiment or run. Whatever else a call
that reads can be about, it answers afterwards as it would have before.

## Main definitions

* `Operation.addressees`: the subjects that a call is addressed to.
* `Subject.IsSpared`: no call of a sequence is addressed to a subject.

## Main results

* `Operation.get?_experiments_of_yields`, `Operation.get?_runs_of_yields`, …: what a successful call
  leaves alone, table by table.
* `Operation.part_perform`, `Operation.part_performAll`: a call, and calls made one after the other,
  leave alone what belongs to other subjects.
* `calls_keep_to_their_subjects`: answers about other subjects are the same after a call.
-/

namespace RunLedger

open Work

/-- The subjects that a call is addressed to. Those of a call that only reads are none. -/
def Operation.addressees (call : Call) (db : Database) : Operation → List Subject
  | createExperiment _ _ _ => [.experiment (db.lastExperimentId + 1)]
  | createRun _ _ _ _ _ => [.run (Runs.identifier call.entropy)]
  | deleteRun id | restoreRun id | rebuildLatest id => [.run id]
  | logMetrics id metrics => .run id :: (metrics.filterMap Metric.modelId).map .loggedModel
  | createModel name _ _ | updateModel name _ | deleteModel name | setModelTag name _ _
  | deleteModelTag name _ | setAlias name _ _ | deleteAlias name _ | createVersion name _
  | updateVersion name _ _ | transition name _ _ _ | deleteVersion name _ | setVersionTag name _ _ _
  | deleteVersionTag name _ _ => [.model name]
  | renameModel name newName => [.model name, .model newName]
  | getExperiment _ | getRun _ | metricHistory _ _ | latestMetrics _ | modelMetrics _ | getModel _
  | getByAlias _ _ | getVersion _ _ | latestVersions _ _ => []

theorem Operation.mem_addressees_of_target? {operation : Operation} {name : String}
    (h : operation.target? = some name) (call : Call) (db : Database) :
    .model name ∈ operation.addressees call db := by
  cases operation with
  | updateModel | setModelTag | deleteModelTag | setAlias | deleteAlias | createVersion
  | updateVersion | transition | deleteVersion | setVersionTag | deleteVersionTag =>
    obtain rfl := Option.some.inj h
    exact List.mem_cons_self
  | _ => cases h

/-- Work on anything but experiments leaves the experiments alone. -/
theorem Area.experiments_eq_of_outside {area : Area} (harea : area ≠ .experiments)
    {db db' : Database} (h : area.outside db' = area.outside db) :
    db'.experiments = db.experiments := by
  have hexperiments := congrArg Database.experiments h
  cases area with
  | experiments => exact absurd rfl harea
  | runs | metrics | registry => exact hexperiments

namespace Operation

variable {operation : Operation} {call : Call} {db db' : Database} {a : Answer}

/-! ### What a successful call leaves alone -/

theorem get?_experiments_of_yields (h : operation.run.Yields call db a db') {id : Int}
    (hid : .experiment id ∉ operation.addressees call db) :
    db'.experiments.get? id = db.experiments.get? id := by
  have hother (harea : operation.area ≠ .experiments) :
      db'.experiments.get? id = db.experiments.get? id := by
    rw [Area.experiments_eq_of_outside harea (outside_eq h)]
  cases operation with
  | createExperiment name location tags =>
    obtain ⟨n, hcall, -⟩ := (yields_map _ _).mp h
    obtain ⟨-, -, -, rfl⟩ := Experiments.create_inversion hcall
    exact Database.get?_withNextExperiment_of_ne (by simpa [addressees] using hid) _
  | getExperiment => rw [eq_of_isRead rfl h]
  | _ => exact hother nofun

theorem get?_models_of_yields (h : operation.run.Yields call db a db') {name : String}
    (hname : .model name ∉ operation.addressees call db) :
    db'.models.get? name = db.models.get? name := by
  cases registryEffect h with
  | created hnew => exact Database.get?_withModel_of_ne (by simpa [addressees] using hname)
  | amended htarget hm haccepts =>
    refine Database.get?_withModel_of_ne ?_
    rintro rfl
    exact hname (mem_addressees_of_target? htarget call db)
  | renamed hm hfree =>
    obtain ⟨hold, hnew⟩ : name ≠ _ ∧ name ≠ _ := by simpa [addressees] using hname
    rw [Database.get?_withModel_of_ne hnew]
    exact db.models.get?_erase_of_ne hold
  | deleted hm => exact db.models.get?_erase_of_ne (by simpa [addressees] using hname)
  | none hop hmodels => rw [hmodels]

theorem get?_runs_of_yields (h : operation.run.Yields call db a db') {id : String}
    (hid : .run id ∉ operation.addressees call db) :
    db'.runs.get? id = db.runs.get? id := by
  have hother (harea : operation.area = .experiments ∨ operation.area = .registry) :
      db'.runs.get? id = db.runs.get? id := by
    rw [Area.runs_eq_of_outside harea (outside_eq h)]
  cases operation with
  | getRun | metricHistory | latestMetrics | modelMetrics => rw [eq_of_isRead rfl h]
  | createRun =>
    obtain ⟨run, hcall, -⟩ := (yields_map _ _).mp h
    obtain ⟨-, r, -, -, hrun, -, -, rfl⟩ := Runs.create_inversion hcall
    exact Database.get?_withRun_of_ne (by simpa [addressees, hrun] using hid)
  | deleteRun =>
    obtain ⟨_, hcall, -⟩ := (yields_map _ _).mp h
    obtain ⟨r, -, rfl⟩ := Runs.delete_inversion hcall
    exact Database.get?_withRun_of_ne (by simpa [addressees] using hid)
  | restoreRun =>
    obtain ⟨_, hcall, -⟩ := (yields_map _ _).mp h
    obtain ⟨r, -, rfl⟩ := Runs.restore_inversion hcall
    exact Database.get?_withRun_of_ne (by simpa [addressees] using hid)
  | logMetrics =>
    obtain ⟨_, hcall, -⟩ := (yields_map _ _).mp h
    obtain ⟨r, -, -, -, rfl⟩ := MetricLog.record_inversion hcall
    exact Database.get?_logged_of_ne (List.ne_of_not_mem_cons hid ∘ congrArg Subject.run) _ _ _
  | rebuildLatest =>
    obtain ⟨_, hnumber, -⟩ := (yields_map _ _).mp h
    rw [bind_pure_comp] at hnumber
    obtain ⟨n, hcall, -⟩ := (yields_map _ _).mp hnumber
    obtain ⟨-, rfl⟩ := MetricLog.rebuild_inversion hcall
    exact Database.get?_alterLatest_of_ne (by simpa [addressees] using hid) _ _
  | _ => exact hother (by simp [area])

theorem entriesOf_of_yields (h : operation.run.Yields call db a db') {id : String}
    (hid : .run id ∉ operation.addressees call db) :
    MetricLog.entriesOf id db' = MetricLog.entriesOf id db := by
  cases metricEffect h with
  | @logged runId metrics _ r hrun =>
    refine MetricLog.filter_history_of_ne (fun e he heq => hid ?_) db.history
    obtain ⟨m, -, rfl⟩ := List.mem_map.mp he
    rw [← heq]
    exact List.mem_cons_self
  | rebuilt hrun => rfl
  | none hop hsame => rw [MetricLog.entriesOf, MetricLog.entriesOf, hsame.history]

theorem modelMetrics_of_yields (h : operation.run.Yields call db a db') {id : String}
    (hid : .loggedModel id ∉ operation.addressees call db) :
    db'.modelMetrics.filter (fun e => e.modelId == id) =
      db.modelMetrics.filter fun e => e.modelId == id := by
  cases metricEffect h with
  | @logged runId metrics _ r hrun =>
    have hslot (e f : ModelEntry) (hsame : f.sameSlot e = true) :
        (f.modelId == id) = (e.modelId == id) := by
      rw [ModelEntry.modelId_eq_of_sameSlot hsame]
    have hnone : ((metrics.map (HistoryEntry.ofMetric runId)).filterMap
        (HistoryEntry.modelEntry? r.experimentId)).filter (fun e => e.modelId == id) = [] := by
      refine List.filter_eq_nil_iff.mpr fun e he heq => hid ?_
      obtain ⟨entry, hentry, he⟩ := List.mem_filterMap.mp he
      obtain ⟨m, hm, rfl⟩ := List.mem_map.mp hentry
      obtain ⟨modelId, hmodelId, rfl⟩ := Option.map_eq_some_iff.mp he
      obtain rfl : modelId = id := beq_iff_eq.mp heq
      exact List.mem_cons_of_mem _ <| List.mem_map_of_mem <|
        List.mem_filterMap.mpr ⟨m, hm, hmodelId⟩
    exact (filter_foldl_appendNew hslot _ _).trans (by rw [hnone, List.foldl_nil])
  | rebuilt hrun => rfl
  | none hop hsame => rw [hsame.modelMetrics]

/-! ### What a call leaves alone -/

/-- **A call leaves alone what belongs to subjects that it is not addressed to**, whether it
succeeds or fails. -/
theorem part_perform (operation : Operation) (call : Call) (db : Database) {subject : Subject}
    (hsubject : subject ∉ operation.addressees call db) :
    subject.part (operation.run.perform call db).2 = subject.part db := by
  rcases hresult : operation.run.perform call db with ⟨e | a, db'⟩
  · rw [eq_of_perform_error hresult]
  · cases subject with
    | experiment id =>
      exact Subject.part_experiment_eq_iff.mpr (get?_experiments_of_yields hresult hsubject)
    | run id =>
      exact Subject.part_run_eq_iff.mpr
        ⟨get?_runs_of_yields hresult hsubject, entriesOf_of_yields hresult hsubject⟩
    | loggedModel id =>
      exact Subject.part_loggedModel_eq_iff.mpr (modelMetrics_of_yields hresult hsubject)
    | model name => exact Subject.part_model_eq_iff.mpr (get?_models_of_yields hresult hsubject)

end Operation

/-- None of the calls, made one after the other, is addressed to the subject. -/
def Subject.IsSpared (subject : Subject) : List (Call × Operation) → Database → Prop
  | [], _ => True
  | (call, operation) :: steps, db =>
    subject ∉ operation.addressees call db ∧
      subject.IsSpared steps (operation.run.perform call db).2

/-- **Calls made one after the other leave alone what belongs to a subject that they spare.** -/
theorem Operation.part_performAll {subject : Subject} (steps : List (Call × Operation))
    {db : Database} (h : subject.IsSpared steps db) :
    subject.part (performAll steps db).2 = subject.part db := by
  induction steps generalizing db with
  | nil => rfl
  | cons step steps ih =>
    obtain ⟨call, operation⟩ := step
    obtain ⟨hfirst, hrest⟩ := h
    rw [performAll_cons, ih hrest, operation.part_perform call db hfirst]

/-- **Calls change no answers about subjects that they are not addressed to.** On every database and
for every call, whether it succeeds or fails: a call that reads answers afterwards as it would have
before, unless it is about one of the subjects that the call was addressed to. A call on the
registry is addressed to the model that it names, or to the two names of a rename; a call on a run
to that run, and to the logged models that a batch of observations names; a call that creates
something to what it creates. A call leaves alone all tables that are not those of its area. And the
answers about a subject stay the same for as long as no call is addressed to it. -/
theorem calls_keep_to_their_subjects (db : Database) :
    (∀ (operation : Operation) (call : Call) (reading : Operation), reading.isRead = true →
      (∀ subject ∈ operation.addressees call db, reading.subject? ≠ some subject) →
      ∀ reader, (reading.run.perform reader (operation.run.perform call db).2).1 =
        (reading.run.perform reader db).1) ∧
    (∀ (operation : Operation) (call : Call),
      operation.area.outside (operation.run.perform call db).2 = operation.area.outside db) ∧
    ∀ steps (reading : Operation) subject, reading.subject? = some subject →
      subject.IsSpared steps db →
      ∀ reader, (reading.run.perform reader (Operation.performAll steps db).2).1 =
        (reading.run.perform reader db).1 := by
  refine ⟨fun operation call reading hread hother reader => ?_,
    fun operation call => operation.fixes_outside call db,
    fun steps _ _ hsubject hspared =>
      Operation.answer_eq_of_part_eq hsubject (Operation.part_performAll steps hspared)⟩
  rw [← reading.isSome_subject?] at hread
  obtain ⟨subject, hsubject⟩ := Option.isSome_iff_exists.mp hread
  have hapart : subject ∉ operation.addressees call db := fun h => hother subject h hsubject
  exact Operation.answer_eq_of_part_eq hsubject (operation.part_perform call db hapart) reader

/-- A database with two models, each with a version, and with a run that has an observation. -/
private def neighbours : List (Call × Operation) :=
  [(.plain, .createModel "m" none []), (.plain, .createVersion "m" (.ofTags [])),
    (.plain, .createModel "n" none []), (.plain, .createVersion "n" (.ofTags [])),
    (.plain, .createExperiment "e" none []), (.plain, .createRun 1 "" none 0 []),
    (.plain, .logMetrics zeroRun [lossOf .zero])]

/-- The version of the first model is deleted and the model renamed. -/
private def neighbourLeaves : List (Call × Operation) :=
  [(.plain, .deleteVersion "m" 1), (.plain, .renameModel "m" "k")]

/-- The version of one model is read as before after the version of another model that has the same
number is deleted and that model renamed; and so are the latest points of a run, after the first of
these calls. -/
theorem neighbours_are_read_as_before :
    let db := (Operation.performAll neighbours .empty).2
    let deleted := (Operation.deleteVersion "m" 1).run.perform .plain db
    Reachable db ∧ deleted.1 = .ok .nothing ∧
      ((Operation.latestMetrics zeroRun).run.perform .plain deleted.2).1 =
        .ok (.metrics [lossOf .zero]) ∧
      ((Operation.getVersion "n" 1).run.perform .plain
        (Operation.performAll neighbourLeaves db).2).1 = .ok (.version (.ofTags "n" 1 [])) := by
  intro db deleted
  obtain ⟨hothers, -, hspares⟩ := calls_keep_to_their_subjects db
  have hlatest := hothers (.deleteVersion "m" 1) .plain (.latestMetrics zeroRun) rfl
    (by simp [Operation.addressees, Operation.subject?]) .plain
  have hspared : (Subject.model "n").IsSpared neighbourLeaves db :=
    ⟨by simp [Operation.addressees], by simp [Operation.addressees], trivial⟩
  have hversion := hspares neighbourLeaves (.getVersion "n" 1) (.model "n") rfl hspared .plain
  refine ⟨⟨neighbours, rfl⟩, by decide +kernel, hlatest.trans ?_, hversion.trans ?_⟩
  · decide +kernel
  · decide +kernel

end RunLedger
