import RunLedger.Proofs.Runs.Permanence
import RunLedger.Proofs.Separation

/-!
# The life of a run

A run can be deleted and restored any number of times. Both set its stage and the time of its
deletion together, and nothing else does once the run is there; so the last of them that succeeded
says whether the run accepts observations. Everything else of the run, and all that was logged for
it, stays through deletions, and a restored run reads as it did when it was created.

## Main definitions

* `Operation.mark?`: the stage that a call sets a run to.
* `Operation.marks`: the stages that a sequence of calls has set a run to.
* `RunEffect`: what a successful call can make of a run.
* `Database.unmarked`: a database without what deletions and restorations set.
* `BatchEnds`: how a call that logs a batch ends.
* `ReadsAlike`: what is read of a run is the same but for its stage and the time of its deletion.

## Main results

* `Operation.runEffect`: every successful call has one of these effects on a run.
* `Operation.stageOf_performAll`: the stage of a run is the last one that it was set to.
* `Operation.batchEnds`: how logging ends depends on the run, its stages and the keys.
* `Operation.fixes_unmarked`: deletions and restorations leave everything else alone.
* `runs_are_deleted_and_restored`: the life of a run.
-/

namespace RunLedger

open MetricLog Work

/-! ### What a call makes of a run -/

namespace Operation

/-- The stage that a call sets a run to if it succeeds, if it deletes or restores that run. -/
def mark? (runId : String) : Operation → Option LifecycleStage
  | deleteRun id => if id = runId then some .deleted else none
  | restoreRun id => if id = runId then some .active else none
  | _ => none

/-- The stage that a call has set a run to, if it has. -/
def markedBy (runId : String) (operation : Operation) :
    Except StoreError Answer → Option LifecycleStage
  | .ok _ => operation.mark? runId
  | .error _ => none

/-- The stages that deletions and restorations of a run have set it to, in the order in which the
calls were made. -/
def marks (runId : String) : List (Call × Operation) → Database → List LifecycleStage
  | [], _ => []
  | (call, operation) :: steps, db =>
    (markedBy runId operation (operation.run.perform call db).1).toList ++
      marks runId steps (operation.run.perform call db).2

/-- Whether a call deletes or restores a run. -/
def isMark : Operation → Bool
  | deleteRun _ | restoreRun _ => true
  | _ => false

end Operation

/-- What a successful call can make of the run with an identifier. -/
inductive RunEffect (call : Call) (id : String) :
    Operation → Option RunRecord → RunRecord → Prop
  /-- It creates the run. -/
  | created {operation : Operation} {r : RunRecord} (hop : operation.mark? id = none)
      (hstage : r.stage = .active) (htime : r.deletedTime = none) :
      RunEffect call id operation none r
  /-- It deletes the run. -/
  | deleted (r : RunRecord) :
      RunEffect call id (.deleteRun id) (some r)
        { r with stage := .deleted, deletedTime := some call.now }
  /-- It restores the run. -/
  | restored (r : RunRecord) :
      RunEffect call id (.restoreRun id) (some r) { r with stage := .active, deletedTime := none }
  /-- It changes at most the latest points of the run. -/
  | kept {operation : Operation} {r : RunRecord} (hop : operation.mark? id = none)
      (latest : Table String Point) : RunEffect call id operation (some r) { r with latest }

namespace Operation

variable {operation : Operation} {call : Call} {db db' : Database} {a : Answer} {id : String}
  {r : RunRecord}

/-- **What a successful call makes of a run.** -/
theorem runEffect (h : operation.run.Yields call db a db') (hr : db'.runs.get? id = some r) :
    RunEffect call id operation (db.runs.get? id) r := by
  by_cases hid : .run id ∈ operation.addressees call db
  · cases operation with
    | createRun experimentId name userId startTime tags =>
      obtain ⟨run, hcreate, -⟩ := (yields_map _ _).mp h
      obtain ⟨_, created, -, hcreated, hrun, -, hnew, rfl⟩ := Runs.create_inversion hcreate
      obtain rfl : id = run.id := by simpa [addressees, ← hrun] using hid
      rw [Database.get?_withRun_self, Option.some.injEq] at hr
      rw [hnew, ← hr, hcreated]
      exact .created rfl rfl rfl
    | deleteRun other =>
      obtain rfl : id = other := by simpa [addressees] using hid
      obtain ⟨_, hdelete, -⟩ := (yields_map _ _).mp h
      obtain ⟨old, hold, rfl⟩ := Runs.delete_inversion hdelete
      rw [Database.get?_withRun_self, Option.some.injEq] at hr
      rw [hold, ← hr]
      exact .deleted old
    | restoreRun other =>
      obtain rfl : id = other := by simpa [addressees] using hid
      obtain ⟨_, hrestore, -⟩ := (yields_map _ _).mp h
      obtain ⟨old, hold, rfl⟩ := Runs.restore_inversion hrestore
      rw [Database.get?_withRun_self, Option.some.injEq] at hr
      rw [hold, ← hr]
      exact .restored old
    | logMetrics other metrics =>
      obtain rfl : id = other := by simpa [addressees] using hid
      obtain ⟨_, hrecord, -⟩ := (yields_map _ _).mp h
      obtain ⟨old, hold, -, -, rfl⟩ := record_inversion hrecord
      rw [Database.get?_logged_self hold, Option.some.injEq] at hr
      rw [hold, ← hr]
      exact .kept rfl _
    | rebuildLatest other =>
      obtain rfl : id = other := by simpa [addressees] using hid
      obtain ⟨_, hnumber, -⟩ := (yields_map _ _).mp h
      rw [bind_pure_comp] at hnumber
      obtain ⟨n, hrebuild, -⟩ := (yields_map _ _).mp hnumber
      obtain ⟨⟨old, hold⟩, rfl⟩ := rebuild_inversion hrebuild
      rw [Database.get?_alterLatest_self hold, Option.some.injEq] at hr
      rw [hold, ← hr]
      exact .kept rfl _
    | _ => simp [addressees] at hid
  · rw [← get?_runs_of_yields h hid, hr]
    refine .kept ?_ r.latest
    cases operation with
    | deleteRun other | restoreRun other =>
      exact if_neg fun hother => hid (by simp [addressees, hother])
    | _ => rfl

/-- Only a run that is there is deleted or restored. -/
theorem isSome_get?_of_mark? (h : operation.run.Yields call db a db')
    (hmark : operation.mark? id ≠ none) : (db'.runs.get? id).isSome = true := by
  cases operation with
  | deleteRun other =>
    obtain rfl : other = id := by simpa [mark?] using hmark
    obtain ⟨_, hdelete, -⟩ := (yields_map _ _).mp h
    obtain ⟨old, -, rfl⟩ := Runs.delete_inversion hdelete
    rw [Database.get?_withRun_self]
    rfl
  | restoreRun other =>
    obtain rfl : other = id := by simpa [mark?] using hmark
    obtain ⟨_, hrestore, -⟩ := (yields_map _ _).mp h
    obtain ⟨old, -, rfl⟩ := Runs.restore_inversion hrestore
    rw [Database.get?_withRun_self]
    rfl
  | _ => exact absurd rfl hmark

end Operation

/-! ### The stage of a run -/

/-- The stage of a run. One that is not there yet counts as active. -/
def Database.stageOf (db : Database) (id : String) : LifecycleStage :=
  ((db.runs.get? id).map RunRecord.stage).getD .active

namespace Operation

variable {operation : Operation} {call : Call} {db db' : Database} {a : Answer} {id : String}

/-- A successful call sets the stage of a run if it deletes or restores it, and else keeps it. -/
theorem stageOf_of_yields (h : operation.run.Yields call db a db') (id : String) :
    db'.stageOf id = (operation.mark? id).getD (db.stageOf id) := by
  cases hr : db'.runs.get? id with
  | none =>
    have hmark : operation.mark? id = none := by
      by_contra hmark
      simpa [hr] using isSome_get?_of_mark? h hmark
    have hold : db.runs.get? id = none := by
      by_contra hold
      obtain ⟨old, hold⟩ := Option.ne_none_iff_exists'.mp hold
      obtain ⟨r, hnew, -⟩ := keepsRuns h id old hold
      cases hr.symm.trans hnew
    rw [hmark, Database.stageOf, Database.stageOf, hr, hold]
    rfl
  | some r =>
    have heffect := runEffect h hr
    rw [Database.stageOf, Database.stageOf, hr]
    generalize db.runs.get? id = old at heffect
    cases heffect with
    | created hop hstage htime =>
      rw [hop]
      exact hstage
    | deleted old | restored old => simp [mark?]
    | kept hop latest =>
      rw [hop]
      rfl

/-- **The stage of a run is the last one that it was set to**, or the one that it had. -/
theorem stageOf_performAll (steps : List (Call × Operation)) (db : Database) (id : String) :
    (performAll steps db).2.stageOf id = (marks id steps db).getLast?.getD (db.stageOf id) := by
  induction steps generalizing db with
  | nil => rfl
  | cons step steps ih =>
    obtain ⟨call, operation⟩ := step
    have hstep : (operation.run.perform call db).2.stageOf id =
        (markedBy id operation (operation.run.perform call db).1).getD (db.stageOf id) := by
      rcases hresult : operation.run.perform call db with ⟨e | a, db'⟩
      · rw [eq_of_perform_error hresult]
        rfl
      · exact stageOf_of_yields hresult id
    rw [performAll_cons, ih, hstep, marks, List.getLast?_append]
    cases (marks id steps (operation.run.perform call db).2).getLast? <;>
      cases markedBy id operation (operation.run.perform call db).1 <;> rfl

end Operation

/-- The time of its deletion is there exactly while the run is deleted. -/
def RunRecord.IsTimed (r : RunRecord) : Prop := r.stage = .deleted ↔ r.deletedTime.isSome = true

/-- **The time of its deletion is there exactly while a run is deleted.** -/
theorem Reachable.isTimed {db : Database} (hdb : Reachable db) {id : String} {r : RunRecord}
    (hr : db.runs.get? id = some r) : r.IsTimed := by
  obtain ⟨steps, rfl⟩ := hdb
  revert id r
  refine Operation.performAll_invariant
    (I := fun db => ∀ {id r}, db.runs.get? id = some r → r.IsTimed) ?_ steps ?_
  case refine_2 => simp [Database.empty]
  intro operation call db a db' hold hyields id r hr
  have heffect := Operation.runEffect hyields hr
  generalize hprevious : db.runs.get? id = old at heffect
  cases heffect with
  | created hop hstage htime => simp [RunRecord.IsTimed, hstage, htime]
  | deleted old | restored old => simp [RunRecord.IsTimed]
  | @kept _ old _ latest =>
    have htimed : old.IsTimed := hold hprevious
    exact htimed

/-! ### Logging for a run -/

theorem Runs.run_requireActive (id : String) (db : Database) :
    (requireActive id).run db = match db.runs.get? id with
      | some r => if r.stage = .active then .ok r else .error (.runNotActive id r.stage)
      | none => .error (.runNotFound id) := by
  rw [requireActive, ReaderT.run_bind, require, Query.run_read_bind]
  cases db.runs.get? id with
  | none => rfl
  | some r =>
    change (if r.stage = .active then pure r else throw (StoreError.runNotActive id r.stage) :
      Query RunRecord).run db = if r.stage = .active then .ok r else _
    split <;> rfl

namespace MetricLog

variable {call : Call} {db : Database} {id : String} {r : RunRecord}

theorem failsWith_record_of_requireActive (hcall : call.Unhindered) {e : StoreError}
    (h : (Runs.requireActive id).run db = .error e) (metrics : List Metric) :
    (record id metrics).FailsWith call db e.code :=
  .within _ <| .transact hcall _ <| failsWith_ask_bind h _

theorem failsWith_record_of_blank (hcall : call.Unhindered) (hr : db.runs.get? id = some r)
    (hactive : r.stage = .active) {metrics : List Metric}
    (hblank : ∃ m ∈ metrics, Text.isBlank m.key = true) :
    (record id metrics).FailsWith call db .invalidParameterValue := by
  obtain ⟨m, hm, hkey⟩ := hblank
  have hsome : (metrics.find? fun m => Text.isBlank m.key).isSome = true :=
    List.find?_isSome.mpr ⟨m, hm, hkey⟩
  obtain ⟨m', hfound⟩ := Option.isSome_iff_exists.mp hsome
  have hcheck : checkKeys metrics = .error (.blankMetricKey m'.key) := by
    rw [checkKeys, hfound]
  refine .within _ <| .transact hcall _ <|
    .ask_bind (Runs.requireActive_eq_ok_iff.mpr ⟨hr, hactive⟩) ?_
  exact failsWith_ask_bind (q := fun _ => checkKeys metrics) hcheck _

end MetricLog

/-! ### What deletions and restorations leave alone -/

/-- The run without what deletions and restorations set. -/
def RunRecord.unmarked (r : RunRecord) : RunRecord :=
  { r with stage := .active, deletedTime := none }

/-- The database without what deletions and restorations set. -/
def Database.unmarked (db : Database) : Database :=
  { db with runs := db.runs.map fun _ r => r.unmarked }

theorem Database.unmarked_withRun {db : Database} {id : String} {r r' : RunRecord}
    (h : db.runs.get? id = some r) (hr : r'.unmarked = r.unmarked) :
    (db.withRun id r').unmarked = db.unmarked := by
  have hruns : (db.withRun id r').runs.map (fun _ r => r.unmarked) =
      db.runs.map fun _ r => r.unmarked := by
    refine Table.ext_get? fun other => ?_
    rw [Table.get?_map, Table.get?_map]
    by_cases hother : other = id
    · subst hother
      rw [get?_withRun_self, h, Option.map_some, Option.map_some, hr]
    · rw [get?_withRun_of_ne hother]
  rw [unmarked, hruns]
  rfl

namespace Operation

/-- **Deletions and restorations leave everything else alone**, whether they succeed or fail. -/
theorem fixes_unmarked {operation : Operation} (h : operation.isMark = true) :
    operation.run.Fixes Database.unmarked := by
  refine operation.atomic_run.fixes fun call db a db' hyields => ?_
  cases operation with
  | deleteRun id =>
    obtain ⟨_, hdelete, -⟩ := (yields_map _ _).mp hyields
    obtain ⟨r, hr, rfl⟩ := Runs.delete_inversion hdelete
    exact Database.unmarked_withRun hr rfl
  | restoreRun id =>
    obtain ⟨_, hrestore, -⟩ := (yields_map _ _).mp hyields
    obtain ⟨r, hr, rfl⟩ := Runs.restore_inversion hrestore
    exact Database.unmarked_withRun hr rfl
  | _ => cases h

theorem unmarked_performAll {steps : List (Call × Operation)}
    (h : ∀ step ∈ steps, step.2.isMark = true) (db : Database) :
    (performAll steps db).2.unmarked = db.unmarked := by
  induction steps generalizing db with
  | nil => rfl
  | cons step steps ih =>
    obtain ⟨call, operation⟩ := step
    rw [performAll_cons, ih fun step' h' => h step' (List.mem_cons_of_mem _ h')]
    exact fixes_unmarked (h _ List.mem_cons_self) call db

end Operation

/-- What is done with a run must be the same with its marks or without them. -/
theorem Runs.overlooks_require_bind {α : Type} {id : String} {f : RunRecord → Query α}
    (hf : ∀ r, f r.unmarked = f r) (hrest : ∀ r, (f r).Overlooks Database.unmarked) :
    (require id >>= f).Overlooks Database.unmarked := by
  intro db
  have hget : db.unmarked.runs.get? id = (db.runs.get? id).map RunRecord.unmarked :=
    Table.get?_map _ _ _
  rw [ReaderT.run_bind, ReaderT.run_bind, require, Query.run_read_bind, Query.run_read_bind, hget]
  cases db.runs.get? id with
  | none => rfl
  | some r =>
    change (f r.unmarked).run db.unmarked = (f r).run db
    rw [hf, hrest]

theorem MetricLog.overlooks_historyOf_unmarked (id key : String) :
    (historyOf id key).Overlooks Database.unmarked :=
  Runs.overlooks_require_bind (fun _ => rfl) fun _ =>
    Query.overlooks_read_bind (fun _ => rfl) fun _ => Query.overlooks_pure _

theorem MetricLog.overlooks_latestOf_unmarked (id : String) :
    (latestOf id).Overlooks Database.unmarked :=
  Runs.overlooks_require_bind (fun _ => rfl) fun _ => Query.overlooks_pure _

/-- A call that takes no notice of the marks answers alike before deletions and restorations and
after them. -/
theorem Operation.answer_eq_of_unmarked_eq {operation : Operation}
    (h : operation.run.Overlooks Database.unmarked) {db db' : Database}
    (hdb : db'.unmarked = db.unmarked) (call : Call) :
    (operation.run.perform call db').1 = (operation.run.perform call db).1 := by
  have hunmarked (d : Database) : (operation.run.perform call d.unmarked).1 =
      (operation.run.perform call d).1 := by rw [h]
  rw [← hunmarked db', hdb, hunmarked]

/-! ### Reading a run -/

theorem Operation.yields_getRun {reader : Call} {db db' : Database} {id : String} {run : Run} :
    (getRun id).run.Yields reader db (.run run) db' ↔
      reader.pulse .entry = none ∧ reader.hidden .runs = false ∧
        (∃ r, db.runs.get? id = some r ∧ run = r.entity id) ∧ db' = db := by
  rw [Operation.run, Runs.get, yields_map_consult fun _ _ => Answer.run.inj, Runs.load,
    Query.bind_eq_ok_iff]
  refine and_congr_right fun _ => and_congr_right fun _ => and_congr_left fun _ =>
    exists_congr fun r => and_congr Runs.require_eq_ok_iff ?_
  exact ⟨fun h => (Except.ok.inj h).symm, fun h => congrArg Except.ok h.symm⟩

/-- **A restored run is read as it was answered when it was created.** -/
theorem Operation.exists_get?_of_restored {call restorer : Call} {db db₁ db₂ : Database}
    {a : Answer} {experimentId : Int} {name : String} {userId : Option String} {startTime : Int}
    {tags : List Tag} {run : Run}
    (hcreate : (createRun experimentId name userId startTime tags).run.Yields call db (.run run)
      db₁)
    (steps : List (Call × Operation))
    (hrestore : (restoreRun run.id).run.Yields restorer (performAll steps db₁).2 a db₂) :
    ∃ r, db₂.runs.get? run.id = some r ∧ run = r.entity run.id := by
  obtain ⟨created, hcall, hanswer⟩ := (yields_map _ _).mp hcreate
  obtain rfl : run = created := Answer.run.inj hanswer
  obtain ⟨_, r, -, hr, -, hrun, -, rfl⟩ := Runs.create_inversion hcall
  obtain ⟨_, hcall, -⟩ := (yields_map _ _).mp hrestore
  obtain ⟨kept, hkept, rfl⟩ := Runs.restore_inversion hcall
  obtain ⟨kept', hkept', hsame⟩ :=
    keepsRuns_performAll steps _ run.id r (Database.get?_withRun_self _ _ _)
  obtain rfl : kept = kept' := Option.some.inj (hkept.symm.trans hkept')
  refine ⟨_, Database.get?_withRun_self _ _ _, ?_⟩
  have hentity := congrArg (RunRecord.entity · run.id) hsame
  have hnew : r.permanent.entity run.id = r.entity run.id := by
    rw [hr]
    rfl
  exact hrun.trans (hnew.symm.trans hentity.symm)

/-- A run that is there can be restored. -/
theorem Operation.exists_yields_restoreRun {call : Call} (hcall : call.Undisturbed) {db : Database}
    {id : String} {r : RunRecord} (hr : db.runs.get? id = some r) :
    ∃ db', (restoreRun id).run.Yields call db .nothing db' := by
  have hleads : (Runs.restore id).Leads call db ()
      (db.withRun id { r with stage := .active, deletedTime := none }) :=
    leads_transact (Runs.leads_alter hr _)
  exact ⟨_, (yields_map _ _).mpr ⟨(), hleads.2 hcall, rfl⟩⟩

/-- How a call that logs a batch for a run ends, where `marks` are the stages that deletions and
restorations of the run have set it to. The context of the call is alive when it starts. -/
structure BatchEnds (call : Call) (db : Database) (id : String) (metrics : List Metric)
    (marks : List LifecycleStage) : Prop where
  /-- There is no such run. -/
  missing : db.runs.get? id = none →
    (Operation.logMetrics id metrics).run.FailsWith call db .resourceDoesNotExist
  /-- The last one of its deletions and restorations is a deletion. -/
  deleted : db.runs.get? id ≠ none → marks.getLast? = some .deleted →
    (Operation.logMetrics id metrics).run.FailsWith call db .invalidState
  /-- Some key is blank. -/
  blank : db.runs.get? id ≠ none → marks.getLast? ≠ some .deleted →
    (∃ m ∈ metrics, Text.trim m.key.toList = []) →
    (Operation.logMetrics id metrics).run.FailsWith call db .invalidParameterValue
  /-- Nothing of this is the case, nothing disturbs the call, and it has room for the batch. -/
  accepted : db.runs.get? id ≠ none → marks.getLast? ≠ some .deleted →
    (∀ m ∈ metrics, Text.trim m.key.toList ≠ []) → call.Undisturbed →
    call.HasRoomFor (metrics.map Metric.key) →
    ∃ db', (Operation.logMetrics id metrics).run.Yields call db .nothing db'

/-- **How logging ends depends on the run, on the last of its deletions and restorations, and on the
keys, in this order.** -/
theorem Operation.batchEnds (steps : List (Call × Operation)) (id : String)
    (metrics : List Metric) {call : Call} (hcall : call.Unhindered) :
    BatchEnds call (performAll steps .empty).2 id metrics (marks id steps .empty) := by
  let db := (performAll steps .empty).2
  have hstage (r : RunRecord) (hr : db.runs.get? id = some r) :
      r.stage = ((marks id steps .empty).getLast?).getD .active := by
    have hlast := stageOf_performAll steps .empty id
    rwa [Database.stageOf, hr] at hlast
  have hactive (r : RunRecord) (hr : db.runs.get? id = some r)
      (hlive : (marks id steps .empty).getLast? ≠ some .deleted) : r.stage = .active := by
    rw [hstage r hr]
    rcases hlast : (marks id steps .empty).getLast? with _ | _ | _
    · rfl
    · rfl
    · exact absurd hlast hlive
  have hblank (m : Metric) : Text.isBlank m.key = true ↔ Text.trim m.key.toList = [] :=
    (Text.trim_eq_nil_iff _).symm
  have hfails (e : StoreError) (h : (Runs.requireActive id).run db = .error e) :
      (logMetrics id metrics).run.FailsWith call db e.code :=
    (failsWith_record_of_requireActive hcall h metrics).map _
  constructor
  case missing =>
    intro hr
    exact hfails (.runNotFound id) (by rw [Runs.run_requireActive, hr])
  case deleted =>
    intro hr hdeleted
    obtain ⟨r, hr⟩ := Option.ne_none_iff_exists'.mp hr
    have hnot : r.stage ≠ .active := by
      rw [hstage r hr, hdeleted]
      decide
    refine hfails (.runNotActive id r.stage) ?_
    rw [Runs.run_requireActive, hr]
    exact if_neg hnot
  case blank =>
    rintro hr hlive ⟨m, hm, hkey⟩
    obtain ⟨r, hr⟩ := Option.ne_none_iff_exists'.mp hr
    exact (failsWith_record_of_blank hcall hr (hactive r hr hlive)
      ⟨m, hm, (hblank m).mpr hkey⟩).map _
  case accepted =>
    intro hr hlive hkeys hquiet hroom
    obtain ⟨r, hr⟩ := Option.ne_none_iff_exists'.mp hr
    have hgiven : checkKeys metrics = .ok () := by
      rw [checkKeys_eq_ok_iff]
      intro m hm
      rw [← Bool.not_eq_true, hblank]
      exact hkeys m hm
    have hleads : (record id metrics).Leads call _ () _ :=
      leads_record hr (hactive r hr hlive) hgiven hroom
    exact ⟨_, (yields_map _ _).mpr ⟨(), hleads.2 hquiet, rfl⟩⟩

/-- What is read of a run is the same but for its stage and the time of its deletion, and what was
logged for it is read alike. -/
structure ReadsAlike (id : String) (reader : Call) (db db' : Database) : Prop where
  run : ∀ run, (Operation.getRun id).run.Yields reader db (.run run) db → ∃ stage deletedTime,
    (Operation.getRun id).run.Yields reader db' (.run { run with stage, deletedTime }) db'
  history : ∀ key, ((Operation.metricHistory id key).run.perform reader db').1 =
    ((Operation.metricHistory id key).run.perform reader db).1
  latest : ((Operation.latestMetrics id).run.perform reader db').1 =
    ((Operation.latestMetrics id).run.perform reader db).1

theorem Database.readsAlike_of_unmarked_eq {db db' : Database} (h : db'.unmarked = db.unmarked)
    (id : String) (reader : Call) : ReadsAlike id reader db db' where
  run run hrun := by
    obtain ⟨hentry, hhidden, ⟨r, hr, rfl⟩, -⟩ := Operation.yields_getRun.mp hrun
    have hget := congrArg (fun d : Database => d.runs.get? id) h
    simp only [unmarked, Table.get?_map, hr, Option.map_some] at hget
    obtain ⟨r', hr', hsame⟩ := Option.map_eq_some_iff.mp hget
    refine ⟨r'.stage, r'.deletedTime,
      Operation.yields_getRun.mpr ⟨hentry, hhidden, ⟨r', hr', ?_⟩, rfl⟩⟩
    have hentity := congrArg (RunRecord.entity · id) hsame
    simp only [RunRecord.unmarked, RunRecord.entity, Run.mk.injEq] at hentity ⊢
    simp [hentity]
  history key := Operation.answer_eq_of_unmarked_eq
    (overlooks_map (overlooks_consult (overlooks_historyOf_unmarked id key))) h reader
  latest := Operation.answer_eq_of_unmarked_eq
    (overlooks_map (overlooks_consult (overlooks_latestOf_unmarked id))) h reader

/-- **Runs are deleted and restored, and keep everything else.** After whatever calls, successful or
not: the time of its deletion is there exactly while a run is deleted. Logging a batch for a run,
even an empty one, fails if there is no such run; else if the last of the deletions and restorations
of the run that succeeded is a deletion; else if some key is blank; and else it succeeds, if nothing
disturbs the call and it has room for the batch. However often runs are deleted and restored, what
is read of a run is the same but for its stage and the time of its deletion, and so is everything
that was logged for it. A run can be restored whatever calls follow its creation, and then reads as
it did when it was created. -/
theorem runs_are_deleted_and_restored (steps : List (Call × Operation)) :
    let db := (Operation.performAll steps .empty).2
    (∀ id r, db.runs.get? id = some r →
      (r.stage = .deleted ↔ r.deletedTime.isSome = true)) ∧
    (∀ id metrics call, call.Unhindered →
      BatchEnds call db id metrics (Operation.marks id steps .empty)) ∧
    (∀ turns : List (Call × Operation), (∀ step ∈ turns, step.2.isMark = true) →
      ∀ id reader, ReadsAlike id reader db (Operation.performAll turns db).2) ∧
    ∀ call experimentId name userId startTime tags run db₁,
      (Operation.createRun experimentId name userId startTime tags).run.Yields call db (.run run)
        db₁ →
      ∀ later restorer,
        let restoring := (Operation.restoreRun run.id).run
        let db₂ := (Operation.performAll later db₁).2
        (restorer.Undisturbed → ∃ db₃, restoring.Yields restorer db₂ .nothing db₃) ∧
        ∀ answer db₃, restoring.Yields restorer db₂ answer db₃ → ∀ reader, reader.Unhindered →
          (Operation.getRun run.id).run.Yields reader db₃ (.run run) db₃ := by
  intro db
  refine ⟨fun id r hr => Reachable.isTimed ⟨steps, rfl⟩ hr,
    fun id metrics call hcall => Operation.batchEnds steps id metrics hcall,
    fun turns hturns =>
      Database.readsAlike_of_unmarked_eq (Operation.unmarked_performAll hturns db), ?_⟩
  intro call experimentId name userId startTime tags run db₁ hcreate later restorer restoring db₂
  refine ⟨fun hrestorer => ?_, fun answer db₃ hrestore reader hreader => ?_⟩
  · obtain ⟨created, hcall, hanswer⟩ := (yields_map _ _).mp hcreate
    obtain rfl : run = created := Answer.run.inj hanswer
    obtain ⟨_, r, -, -, -, -, -, rfl⟩ := Runs.create_inversion hcall
    obtain ⟨kept, hkept, -⟩ :=
      Operation.keepsRuns_performAll later _ run.id r (Database.get?_withRun_self _ _ _)
    exact Operation.exists_yields_restoreRun hrestorer hkept
  · obtain ⟨r, hr, hrun⟩ := Operation.exists_get?_of_restored hcreate later hrestore
    exact Operation.yields_getRun.mpr
      ⟨hreader.entry, hreader.hidden _, ⟨r, hr, hrun⟩, rfl⟩

/-- A run is created, deleted twice, restored, and deleted again. -/
private def deletedAgain : List (Call × Operation) :=
  [(.plain, .createExperiment "e" none []), (.plain, .createRun 1 "" none 0 []),
    (.plain, .deleteRun zeroRun), (.plainAt 5, .deleteRun zeroRun),
    (.plain, .restoreRun zeroRun), (.plainAt 7, .deleteRun zeroRun),
    (.late, .restoreRun zeroRun)]

/-- An observation whose key is blank. -/
private def blankKey : Metric := { lossOf .zero with key := " " }

/-- The run as it is answered when it is created. -/
private def createdRun : Run where
  id := zeroRun
  experimentId := 1
  name := ""
  userId := none
  status := "RUNNING"
  startTime := 0
  endTime := none
  artifactUri := "./mlruns/1/" ++ zeroRun ++ "/artifacts"
  stage := .active
  deletedTime := none

/-- A run was deleted twice, restored and deleted again; the restoration after that was cancelled.
It accepts no batch, not even an empty one, and that is what is said of one with a blank key, until
the run is restored. -/
theorem deleted_run_accepts_nothing :
    let db := (Operation.performAll deletedAgain .empty).2
    Call.plain.Undisturbed ∧
    Operation.marks zeroRun deletedAgain .empty = [.deleted, .deleted, .active, .deleted] ∧
    (Operation.logMetrics zeroRun []).run.FailsWith .plain db .invalidState ∧
    (Operation.logMetrics zeroRun [blankKey]).run.FailsWith .plain db .invalidState ∧
    ∃ db₁ db₂,
      (Operation.createRun 1 "" none 0 []).run.Yields .plain
        (Operation.performAll (deletedAgain.take 1) .empty).2 (.run createdRun) db₁ ∧
      (Operation.restoreRun zeroRun).run.Yields .plain
        (Operation.performAll (deletedAgain.drop 2) db₁).2 .nothing db₂ ∧
      (Operation.getRun zeroRun).run.Yields .plain db₂ (.run createdRun) db₂ := by
  intro db
  obtain ⟨-, hlogging, -, -⟩ := runs_are_deleted_and_restored deletedAgain
  obtain ⟨-, -, -, hrestored⟩ := runs_are_deleted_and_restored (deletedAgain.take 1)
  have hends (metrics : List Metric) :=
    hlogging zeroRun metrics .plain Call.plain_undisturbed.unhindered
  have hmarks : Operation.marks zeroRun deletedAgain .empty =
      [.deleted, .deleted, .active, .deleted] := by decide +kernel
  have hthere : db.runs.get? zeroRun ≠ none := by decide +kernel
  have hlast : (Operation.marks zeroRun deletedAgain .empty).getLast? = some .deleted := by
    rw [hmarks]
    rfl
  let creation := (Operation.createRun 1 "" none 0 []).run.perform .plain
    (Operation.performAll (deletedAgain.take 1) .empty).2
  have hcreated : creation.1 = .ok (.run createdRun) := by decide +kernel
  obtain ⟨hcan, hreads⟩ := hrestored .plain 1 "" none 0 [] createdRun creation.2
    (Prod.ext hcreated rfl) (deletedAgain.drop 2) .plain
  obtain ⟨db₂, hdb₂⟩ := hcan Call.plain_undisturbed
  exact ⟨Call.plain_undisturbed, hmarks, (hends []).deleted hthere hlast,
    (hends [blankKey]).deleted hthere hlast, creation.2, db₂, Prod.ext hcreated rfl, hdb₂,
    hreads .nothing db₂ hdb₂ .plain Call.plain_undisturbed.unhindered⟩

end RunLedger
