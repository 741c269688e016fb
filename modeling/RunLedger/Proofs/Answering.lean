import RunLedger.Proofs.Experiments.Change
import RunLedger.Proofs.Registry.WellFormed

/-!
# Reads that never break

Stages and statuses are stored as texts, and an alias is stored with a number. A reader that comes
upon a text that is no spelling of a stage or status breaks off with an internal error, and nothing
in the layout of the tables keeps such a text out. The calls do: in every database that they lead
to, each reader either answers or says that what it was asked for is not there.

For each query a condition says what must be there for it to be answered. Where the condition
fails, so does the query, for that reason and for no other. Queries that ask one thing after the
other are put together by `Query.AnswersIf.bind`; what a second part needs in a database that calls
lead to, a readable status or the version of an alias, is what models are well-formed for.

## Main definitions

* `Call.CanRead`: nothing outside the database keeps a call from reading.
* `Query.AnswersIf`: a query is answered if something holds, and otherwise misses something.
* `Operation.Finds`: what a call asks for is there.
* `Row.Decodes`: the text in a column of a row can be decoded.

## Main results

* `Query.AnswersIf.bind`: queries one after the other.
* `Experiments.answersIf_load`, `Runs.answersIf_load`, `MetricLog.answersIf_historyOf`, …,
  `Reachable.answersIf_resolve`: the queries of the calls that read.
* `Reachable.settles`: what becomes of a call that reads.
* `reads_never_break`: calls that read do not break, and what is stored can be decoded.
-/

namespace RunLedger

open Work Registry

/-- The call can read: its context is alive when it starts, and no table is kept from being read. It
may be unable to write. -/
structure Call.CanRead (call : Call) : Prop where
  entry : call.pulse .entry = none
  hidden : ∀ table, call.hidden table = false

theorem Call.Undisturbed.canRead {call : Call} (h : call.Undisturbed) : call.CanRead where
  entry := h.pulse .entry
  hidden := h.hidden

/-! ### Queries -/

namespace Query

variable {α β : Type} {db : Database} {P Q : Prop}

/-- On `db` the query is answered if `P` holds, and otherwise something it asks for is not there. -/
structure AnswersIf (q : Query α) (db : Database) (P : Prop) : Prop where
  answers : P → ∃ a, q.run db = .ok a
  misses : ¬ P → ∃ e, q.run db = .error e ∧ e.code = .resourceDoesNotExist

theorem answersIf_of_ok {q : Query α} {a : α} (h : q.run db = .ok a) (hP : P) :
    q.AnswersIf db P where
  answers _ := ⟨a, h⟩
  misses hnot := absurd hP hnot

theorem answersIf_of_error {q : Query α} {e : StoreError} (h : q.run db = .error e)
    (hcode : e.code = .resourceDoesNotExist) (hP : ¬ P) : q.AnswersIf db P where
  answers h := absurd h hP
  misses _ := ⟨e, h, hcode⟩

theorem run_bind_of_ok {q : Query α} {a : α} (h : q.run db = .ok a) (f : α → Query β) :
    (q >>= f).run db = (f a).run db := by
  change (q.run db >>= fun a => (f a).run db) = _
  rw [h]
  rfl

theorem run_bind_of_error {q : Query α} {e : StoreError} (h : q.run db = .error e)
    (f : α → Query β) : (q >>= f).run db = .error e := by
  change (q.run db >>= fun a => (f a).run db) = _
  rw [h]
  rfl

/-- A query that needs its first part to be answered is settled by what its second part needs on
top of that. -/
theorem AnswersIf.bind {q : Query α} {f : α → Query β} (hq : q.AnswersIf db P) (hQ : Q → P)
    (hf : ∀ a, q.run db = .ok a → P → (f a).AnswersIf db Q) : (q >>= f).AnswersIf db Q := by
  by_cases h : P
  · obtain ⟨a, ha⟩ := hq.answers h
    obtain ⟨hanswers, hmisses⟩ := hf a ha h
    rw [← run_bind_of_ok ha f] at hanswers hmisses
    exact ⟨hanswers, hmisses⟩
  · obtain ⟨e, he, hcode⟩ := hq.misses h
    exact answersIf_of_error (run_bind_of_error he f) hcode (mt hQ h)

/-- A second part that is always answered needs nothing on top. -/
theorem AnswersIf.bind_of_ok {q : Query α} {f : α → Query β} (hq : q.AnswersIf db P)
    (hf : ∀ a, ∃ b, (f a).run db = .ok b) : (q >>= f).AnswersIf db P := by
  refine hq.bind (fun h => h) fun a _ h => ?_
  obtain ⟨b, hb⟩ := hf a
  exact answersIf_of_ok hb h

/-- A query for what is stored under a key. -/
theorem answersIf_contains {κ ρ : Type} [Ord κ] {t : Table κ ρ} {k : κ} {q : Query ρ}
    (e : StoreError) (hcode : e.code = .resourceDoesNotExist)
    (hfound : ∀ v, t.get? k = some v → q.run db = .ok v)
    (hmissing : t.get? k = none → q.run db = .error e) : q.AnswersIf db (t.contains k) := by
  cases hv : t.get? k with
  | some v => exact answersIf_of_ok (hfound v hv) (Table.contains_of_get? hv)
  | none => exact answersIf_of_error (hmissing hv) hcode (by simp [Table.contains, hv])

end Query

open Query

/-! ### Experiments and runs -/

section Tracking

variable {db : Database}

theorem Experiments.answersIf_require (id : Int) :
    (require id).AnswersIf db (db.experiments.contains id) := by
  refine answersIf_contains (.experimentNotFound id) rfl (fun _ => require_eq_ok_iff.mpr)
    fun h => ?_
  rw [require, run_read_bind, h]
  rfl

theorem Experiments.answersIf_load (id : Int) :
    (load id).AnswersIf db (db.experiments.contains id) :=
  (answersIf_require id).bind_of_ok fun _ => ⟨_, rfl⟩

theorem Runs.answersIf_require (id : String) :
    (require id).AnswersIf db (db.runs.contains id) := by
  refine answersIf_contains (.runNotFound id) rfl (fun _ => require_eq_ok_iff.mpr) fun h => ?_
  rw [require, run_read_bind, h]
  rfl

theorem Runs.answersIf_load (id : String) : (load id).AnswersIf db (db.runs.contains id) :=
  (answersIf_require id).bind_of_ok fun _ => ⟨_, rfl⟩

theorem MetricLog.answersIf_historyOf (runId key : String) :
    (historyOf runId key).AnswersIf db (db.runs.contains runId) :=
  (Runs.answersIf_require runId).bind_of_ok fun _ => ⟨_, rfl⟩

theorem MetricLog.answersIf_latestOf (runId : String) :
    (latestOf runId).AnswersIf db (db.runs.contains runId) :=
  (Runs.answersIf_require runId).bind_of_ok fun _ => ⟨_, rfl⟩

theorem MetricLog.answersIf_modelMetricsOf (modelId : String) :
    (modelMetricsOf modelId).AnswersIf db True :=
  answersIf_of_ok rfl trivial

end Tracking

/-! ### The registry -/

theorem Registry.answersIf_requireModel {db : Database} (name : String) :
    (requireModel name).AnswersIf db (db.models.contains name) :=
  answersIf_contains (.modelNotFound name) rfl (fun _ => requireModel_eq_ok_iff.mpr) fun h => by
    rw [run_requireModel, h]

namespace Reachable

variable {db : Database} (hdb : Reachable db)

include hdb

/-- The highest versions of a model can be read whenever the model is there. -/
theorem answersIf_bind_loadLatest {α : Type} (name : String)
    (f : ModelRecord → List ModelVersion → α) :
    (do
      let m ← requireModel name
      let versions ← loadLatest name m
      return f m versions : Query α).AnswersIf db (db.models.contains name) := by
  refine (answersIf_requireModel name).bind (fun h => h) fun m hm h => ?_
  obtain ⟨versions, hversions⟩ :=
    exists_loadLatest (hdb.wellFormed (requireModel_eq_ok_iff.mp hm)).readable name db
  exact (answersIf_of_ok hversions h).bind_of_ok fun _ => ⟨_, rfl⟩

theorem answersIf_loadModel (name : String) :
    (loadModel name).AnswersIf db (db.models.contains name) :=
  hdb.answersIf_bind_loadLatest name _

theorem answersIf_latestIn (name : String) (stages : List VersionStage) :
    (Versions.latestIn name stages).AnswersIf db (db.models.contains name) :=
  hdb.answersIf_bind_loadLatest name _

theorem answersIf_requireVersion (name : String) (version : Int) :
    (requireVersion name version).AnswersIf db
      (∃ m, db.models.get? name = some m ∧ m.IsLive version) := by
  cases hfound : findVersion? db name version with
  | some found =>
    obtain ⟨m, v⟩ := found
    obtain ⟨hm, hv, hlive⟩ := findVersion?_eq_some_iff.mp hfound
    have hreadable : v.IsReadable := (hdb.wellFormed hm).readable version v hv
    obtain ⟨entity, hentity⟩ := exists_requireVersion hm hv hlive hreadable
    exact answersIf_of_ok hentity ⟨m, hm, v, hv, hlive⟩
  | none =>
    have hmissing : (requireVersion name version).run db =
        .error (.versionNotFound name version) := by
      rw [run_requireVersion, hfound]
    refine answersIf_of_error hmissing rfl ?_
    rintro ⟨m, hm, v, hv, hlive⟩
    rw [findVersion?_eq_some_iff.mpr ⟨hm, hv, hlive⟩] at hfound
    cases hfound

theorem answersIf_loadVersion (name : String) (version : Int) :
    (loadVersion name version).AnswersIf db
      (∃ m, db.models.get? name = some m ∧ m.IsLive version) :=
  (hdb.answersIf_requireVersion name version).bind_of_ok fun _ => ⟨_, rfl⟩

/-- An alias that is bound leads to a version that is read: a version takes its aliases along when
it is deleted, so the second look-up finds what the first one names. -/
theorem answersIf_resolve (name aliasName : String) :
    (Aliases.resolve name aliasName).AnswersIf db
      (∃ m, db.models.get? name = some m ∧ m.aliases.contains aliasName) := by
  refine (answersIf_requireModel name).bind ?_ fun m hrequire _ => ?_
  · rintro ⟨m, hm, -⟩
    exact Table.contains_of_get? hm
  · have hm : db.models.get? name = some m := requireModel_eq_ok_iff.mp hrequire
    cases hbound : m.aliases.get? aliasName with
    | some k =>
      obtain ⟨-, hlive⟩ := (hdb.wellFormed hm).aliases aliasName k hbound
      obtain ⟨v, hv, -⟩ := (hdb.wellFormed hm).exists_loadVersion hm hlive
      exact answersIf_of_ok hv ⟨m, hm, Table.contains_of_get? hbound⟩
    | none =>
      refine answersIf_of_error (e := .aliasNotFound aliasName) rfl rfl ?_
      rintro ⟨m', hm', hcontains⟩
      obtain rfl := Option.some.inj (hm.symm.trans hm')
      simp [Table.contains, hbound] at hcontains

end Reachable

/-! ### Calls -/

section Calls

variable {call : Call} {db : Database}

/-- A call that reads does what its query does. -/
theorem Query.AnswersIf.consult {α : Type} {q : Query α} {P : Prop} (hq : q.AnswersIf db P)
    (hcall : call.CanRead) (operation : String) (first : TableName) (f : α → Answer) :
    (P ∧ ∃ answer, (f <$> Work.consult operation first q).Yields call db answer db) ∨
      (¬ P ∧ (f <$> Work.consult operation first q).FailsWith call db .resourceDoesNotExist) := by
  by_cases h : P
  · obtain ⟨a, ha⟩ := hq.answers h
    have hread := (yields_consult operation first q).mpr
      ⟨hcall.entry, hcall.hidden first, ha, rfl⟩
    exact .inl ⟨h, f a, (yields_map f _).mpr ⟨a, hread, rfl⟩⟩
  · obtain ⟨e, he, hcode⟩ := hq.misses h
    have hread : (Work.consult operation first q).perform call db = (.error e, db) := by
      rw [perform_consult_eq, hcall.entry, hcall.hidden, he]
      rfl
    exact .inr ⟨h, FailsWith.map f ⟨e, hread, hcode⟩⟩

namespace Operation

/-- What a call asks for is there: something is stored under the id or the name that it gives, under
the number that it gives a version that is not deleted, and the alias that it gives is bound. A call
for the observations of a logged model asks for nothing, since any id may be the id of one. -/
def Finds (db : Database) : Operation → Prop
  | getExperiment id => db.experiments.contains id
  | getRun id | metricHistory id _ | latestMetrics id => db.runs.contains id
  | modelMetrics _ => True
  | getModel name | latestVersions name _ => db.models.contains name
  | getVersion name version => ∃ m, db.models.get? name = some m ∧ m.IsLive version
  | getByAlias name aliasName =>
    ∃ m, db.models.get? name = some m ∧ m.aliases.contains aliasName
  | _ => False

/-- The call gives an alias that breaks the rules for aliases. -/
def NamesNoAlias : Operation → Prop
  | getByAlias _ aliasName => Rules.aliasName aliasName ≠ .ok ()
  | _ => False

end Operation

/-- **What becomes of a call that reads**: it is answered if what it asks for is there, and fails if
it is not, for that reason or because it asks for an alias that cannot be one. -/
theorem Reachable.settles (hdb : Reachable db) {operation : Operation}
    (hread : operation.isRead = true) (hcall : call.CanRead) :
    (operation.Finds db ∧ ∃ answer, operation.run.Yields call db answer db) ∨
      (¬ operation.Finds db ∧ operation.run.FailsWith call db .resourceDoesNotExist) ∨
      (operation.NamesNoAlias ∧ operation.run.FailsWith call db .invalidParameterValue) := by
  cases operation with
  | getExperiment id => exact ((Experiments.answersIf_load id).consult hcall ..).imp_right .inl
  | getRun id => exact ((Runs.answersIf_load id).consult hcall ..).imp_right .inl
  | metricHistory runId key =>
    exact ((MetricLog.answersIf_historyOf runId key).consult hcall ..).imp_right .inl
  | latestMetrics runId =>
    exact ((MetricLog.answersIf_latestOf runId).consult hcall ..).imp_right .inl
  | modelMetrics modelId =>
    exact ((MetricLog.answersIf_modelMetricsOf modelId).consult hcall ..).imp_right .inl
  | getModel name => exact ((hdb.answersIf_loadModel name).consult hcall ..).imp_right .inl
  | latestVersions name stages =>
    exact ((hdb.answersIf_latestIn name stages).consult hcall ..).imp_right .inl
  | getVersion name version =>
    exact ((hdb.answersIf_loadVersion name version).consult hcall ..).imp_right .inl
  | getByAlias name aliasName =>
    cases hrule : Rules.aliasName aliasName with
    | ok u =>
      have hget : (Operation.getByAlias name aliasName).run = .version <$>
          Work.consult "get_model_version_by_alias" .models (Aliases.resolve name aliasName) := by
        rw [Operation.run, Aliases.get, hrule]
        rfl
      rw [hget]
      exact ((hdb.answersIf_resolve name aliasName).consult hcall ..).imp_right .inl
    | error violation =>
      have hget : (Aliases.get name aliasName).FailsWith call db .invalidParameterValue := by
        rw [Aliases.get, hrule]
        exact ⟨.rule violation, rfl, rfl⟩
      exact .inr (.inr ⟨by simp [Operation.NamesNoAlias, hrule], hget.map Answer.version⟩)
  | _ => cases hread

end Calls

/-! ### Stored texts -/

/-- The column of the row holds a text that can be decoded. -/
def Row.Decodes {α : Type} (row : Row) (column : String) (decode : String → Option α) : Prop :=
  ∃ text a, row.lookup column = some (.text text) ∧ decode text = some a

theorem ExperimentRecord.decodes_row (e : ExperimentRecord) (id : Int) :
    (e.row id).Decodes "lifecycle_stage" LifecycleStage.ofStored? :=
  ⟨e.stage.stored, e.stage, rfl, e.stage.ofStored?_stored⟩

theorem RunRecord.decodes_row (r : RunRecord) (id : String) :
    (r.row id).Decodes "lifecycle_stage" LifecycleStage.ofStored? :=
  ⟨r.stage.stored, r.stage, rfl, r.stage.ofStored?_stored⟩

theorem VersionRecord.decodes_row (v : VersionRecord) (name : String) (version : Int) :
    (v.row name version).Decodes "current_stage" VersionStage.ofStored? :=
  ⟨v.stage.stored, v.stage, rfl, v.stage.ofStored?_stored⟩

theorem VersionRecord.IsReadable.decodes_row {v : VersionRecord} (h : v.IsReadable) (name : String)
    (version : Int) : (v.row name version).Decodes "status" VersionStatus.ofStored? := by
  obtain ⟨status, hstatus⟩ := h
  exact ⟨v.status, status, rfl, hstatus⟩

/-- **Reads never break.** In every database that calls lead to, a call that reads, with any
arguments and as long as its context is alive and no unit of work that is open elsewhere keeps a
table from it, either answers or fails because what it asks for is not there or because an alias
breaks the rules; it answers exactly if what it asks for is there, and it never fails in any other
way. Every stored row can be read: the lifecycle stages of experiments and runs and the stages and
statuses of versions, deleted ones included, are texts that can be decoded, and every stored alias
leads to its version. Times are integers of any size here. -/
theorem reads_never_break {db : Database} (hdb : Reachable db) :
    (∀ operation : Operation, operation.isRead = true → ∀ call : Call, call.CanRead →
      (operation.Finds db ∧ ∃ answer, operation.run.Yields call db answer db) ∨
      (¬ operation.Finds db ∧ operation.run.FailsWith call db .resourceDoesNotExist) ∨
      (operation.NamesNoAlias ∧ operation.run.FailsWith call db .invalidParameterValue)) ∧
    (∀ row ∈ db.rows .experiments, row.Decodes "lifecycle_stage" LifecycleStage.ofStored?) ∧
    (∀ row ∈ db.rows .runs, row.Decodes "lifecycle_stage" LifecycleStage.ofStored?) ∧
    (∀ row ∈ db.rows .versions, row.Decodes "current_stage" VersionStage.ofStored? ∧
      row.Decodes "status" VersionStatus.ofStored?) ∧
    ∀ row ∈ db.rows .aliases, ∃ name aliasName version v,
      row = aliasRow name aliasName version ∧ v.version = version ∧ ∀ call : Call, call.CanRead →
        (Operation.getByAlias name aliasName).run.Yields call db (.version v) db := by
  refine ⟨fun operation hread call hcall => hdb.settles hread hcall, ?_, ?_, ?_, ?_⟩
  · rintro row hrow
    obtain ⟨⟨id, e⟩, -, rfl⟩ := List.mem_map.mp hrow
    exact e.decodes_row id
  · rintro row hrow
    obtain ⟨⟨id, r⟩, -, rfl⟩ := List.mem_map.mp hrow
    exact r.decodes_row id
  · rintro row hrow
    obtain ⟨⟨name, m⟩, hm, hrow⟩ := List.mem_flatMap.mp hrow
    obtain ⟨⟨version, v⟩, hv, rfl⟩ := List.mem_map.mp hrow
    have hwell : m.WellFormed := hdb.wellFormed (Table.mem_entries_iff.mp hm)
    exact ⟨v.decodes_row name version,
      (hwell.readable version v (Table.mem_entries_iff.mp hv)).decodes_row name version⟩
  · rintro row hrow
    obtain ⟨⟨name, m⟩, hm, hrow⟩ := List.mem_flatMap.mp hrow
    obtain ⟨⟨aliasName, version⟩, hbound, rfl⟩ := List.mem_map.mp hrow
    rw [Table.mem_entries_iff] at hm hbound
    obtain ⟨hrule, hlive⟩ := (hdb.wellFormed hm).aliases aliasName version hbound
    obtain ⟨v, hv, -⟩ := (hdb.wellFormed hm).exists_loadVersion hm hlive
    have hresolve := Aliases.resolve_eq_ok_iff.mpr ⟨m, version, hm, hbound, hv⟩
    refine ⟨name, aliasName, version, v, rfl, version_of_loadVersion hv, fun call hcall => ?_⟩
    exact Operation.yields_getByAlias.mpr
      ⟨hrule, hcall.entry, hcall.hidden .models, hresolve, rfl⟩

/-- A model with two versions, an alias for each, of which the second is deleted. -/
private def secondDeleted : List (Call × Operation) :=
  [(.plain, .createModel "m" none []), (.plain, .createVersion "m" (.ofTags [])),
    (.plain, .createVersion "m" (.ofTags [])), (.plain, .setAlias "m" "baseline" 1),
    (.plain, .setAlias "m" "champion" 2), (.plain, .deleteVersion "m" 2)]

/-- The alias of the version that is left is read, and that of the deleted one is not there. -/
theorem alias_of_deleted_version_is_not_there :
    let db := (Operation.performAll secondDeleted .empty).2
    Reachable db ∧
      (∃ answer, (Operation.getByAlias "m" "baseline").run.Yields .plain db answer db) ∧
      (Operation.getByAlias "m" "champion").run.FailsWith .plain db .resourceDoesNotExist := by
  intro db
  have hdb : Reachable db := ⟨secondDeleted, rfl⟩
  have hcall := Call.plain_undisturbed.canRead
  have hstored : (db.models.get? "m").map (fun m => (m.aliases.contains "baseline",
      m.aliases.contains "champion")) = some (true, false) := by decide +kernel
  obtain ⟨m, hm, hbound⟩ := Option.map_eq_some_iff.mp hstored
  obtain ⟨hbaseline, hchampion⟩ := Prod.mk.inj hbound
  have hkeeps (aliasName : String) (h : Rules.aliasName aliasName = .ok ()) :
      ¬ (Operation.getByAlias "m" aliasName).NamesNoAlias := fun hno => hno h
  obtain ⟨hreads, -⟩ := reads_never_break hdb
  refine ⟨hdb, ?_, ?_⟩
  · have hfinds : (Operation.getByAlias "m" "baseline").Finds db := ⟨m, hm, hbaseline⟩
    rcases hreads (.getByAlias "m" "baseline") rfl .plain hcall with ⟨-, h⟩ | ⟨h, -⟩ | ⟨h, -⟩
    · exact h
    · exact absurd hfinds h
    · exact absurd h (hkeeps _ (by decide +kernel))
  · have hmisses : ¬ (Operation.getByAlias "m" "champion").Finds db := by
      rintro ⟨m', hm', hfound⟩
      obtain rfl := Option.some.inj (hm.symm.trans hm')
      rw [hchampion] at hfound
      cases hfound
    rcases hreads (.getByAlias "m" "champion") rfl .plain hcall with ⟨h, -⟩ | ⟨-, h⟩ | ⟨h, -⟩
    · exact absurd h hmisses
    · exact h
    · exact absurd h (hkeeps _ (by decide +kernel))

end RunLedger
