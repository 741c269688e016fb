import RunLedger.CommandLine.Run
import RunLedger.Proofs.Answering
import RunLedger.Proofs.Experiments.Change
import RunLedger.Proofs.Metric.Logging
import RunLedger.Proofs.Registry.VersionChange
import RunLedger.Proofs.Runs.Change
import RunLedger.Proofs.Work.Failure
import RunLedger.Proofs.Work.Stopping

/-!
# What commands print

What the command for a call prints depends on the call alone. It is what the call answers with, or,
where the call answers with nothing that is worth showing, what is read of the thing that it has
written, or an acknowledgement. Since a call leaves what it has written where a reader finds it, the
reading never fails once the call has succeeded.

## Main definitions

* `Operation.report`: what is printed after a call.
* `Report.Prints`: what is printed for an answer.
* `Command.Fits`: what can come of reading the arguments of a command.

## Main results

* `Command.fits_request`: a command prints what there is to print for its call.
* `Operation.finds_of_report`: what has been written is found.
* `Request.perform_cases`: the call of a request and the printing.
-/

namespace RunLedger

open CommandLine Work

/-- What is printed after a call: for one that sets up, changes or tags something without answering
with it, the thing as it is read then; for one that removes something, or counts, a note; for any
other one its answer. -/
def Operation.report : Operation → Report
  | createExperiment _ _ _ => .read fun answer => .getExperiment (answerNumber answer)
  | deleteRun id | restoreRun id => .read fun _ => .getRun id
  | logMetrics runId _ => .read fun _ => .latestMetrics runId
  | setModelTag name _ _ | deleteModelTag name _ => .read fun _ => .getModel name
  | setVersionTag name version _ _ | deleteVersionTag name version _ =>
    .read fun _ => .getVersion name version
  | setAlias name aliasName _ => .read fun _ => .getByAlias name aliasName
  | rebuildLatest runId => .acknowledge fun answer => Json.ofFields
      [("rows_written", .ofInt (answerNumber answer)), ("run_id", .ofString runId)]
  | deleteModel name => .acknowledge fun _ => Json.ofFields [("deleted", .ofString name)]
  | deleteVersion name version => .acknowledge fun _ => Json.ofFields
      [("deleted_version", .ofInt version), ("name", .ofString name)]
  | deleteAlias name aliasName => .acknowledge fun _ => Json.ofFields
      [("deleted_alias", .ofString aliasName), ("name", .ofString name)]
  | _ => .answer

namespace CommandLine

/-- What is printed for the answer of a call that has left the database `db`. -/
inductive Report.Prints (call : Call) (answer : Answer) (db : Database) : Report → Json → Prop
  /-- The answer. -/
  | answer : Prints call answer db .answer (answerJson answer)
  /-- What is read then. The reading changes nothing. -/
  | read {next : Answer → Operation} {found : Answer}
      (hread : (next answer).run.Yields call db found db) :
      Prints call answer db (.read next) (answerJson found)
  /-- A note. -/
  | acknowledge (note : Answer → Json) : Prints call answer db (.acknowledge note) (note answer)

/-- What can come of reading the arguments of a command: a call, and to print what there is to print
for it, or a failure that is not about the database. Only migrating has no call. -/
def Command.Fits (command : Command) : Except Failure (Option Request) → Prop
  | .ok none => command = .migrate
  | .ok (some r) => r.report = r.operation.report
  | .error failure => ∀ path e, failure ≠ .opening path e

theorem Command.fits_ruled_bind {α : Type} {command : Command} {rule : Except RuleViolation α}
    {f : α → Except Failure (Option Request)} (hf : ∀ a, command.Fits (f a)) :
    command.Fits (ruled rule >>= f) := by
  cases rule with
  | ok a => exact hf a
  | error violation => exact fun _ _ => nofun

/-- **A command prints what there is to print for its call**, whatever its arguments are read as. -/
theorem Command.fits_request (command : Command) (s : Surroundings) :
    command.Fits (command.request s) := by
  cases command with
  | logBatch runId file =>
    rw [request, metricsIn]
    split
    · exact fun _ _ => nofun
    · split
      · exact rfl
      · exact fun _ _ => nofun
  | getVersion | latestVersions | updateVersion | deleteVersion | setVersionTag
  | deleteVersionTag | setAlias => exact fits_ruled_bind fun _ => rfl
  | transition => exact fits_ruled_bind fun _ => fits_ruled_bind fun _ => rfl
  | _ => exact rfl

end CommandLine

/-! ### Reading what has been written -/

section ReadBack

variable {operation : Operation} {call : Call} {db db' : Database} {answer : Answer}
  {next : Answer → Operation}

/-- **What a call has written is found**: the call that reads it asks for nothing but what is there
then, by a name that can be asked for. -/
theorem Operation.finds_of_report (hreport : operation.report = .read next)
    (h : operation.run.Yields call db answer db') :
    (next answer).isRead = true ∧ (next answer).Finds db' ∧ ¬ (next answer).NamesNoAlias := by
  cases operation with
  | createExperiment name location tags =>
    cases hreport
    obtain ⟨n, hcreate, rfl⟩ := (yields_map _ _).mp h
    obtain ⟨-, -, rfl, rfl⟩ := Experiments.create_inversion hcreate
    refine ⟨rfl, ?_, id⟩
    exact Table.contains_of_get? (Database.get?_withNextExperiment_self db _)
  | deleteRun id =>
    cases hreport
    obtain ⟨_, hdelete, rfl⟩ := (yields_map _ _).mp h
    obtain ⟨r, -, rfl⟩ := Runs.delete_inversion hdelete
    exact ⟨rfl, Table.contains_of_get? (Database.get?_withRun_self db id _), fun h => h⟩
  | restoreRun id =>
    cases hreport
    obtain ⟨_, hrestore, rfl⟩ := (yields_map _ _).mp h
    obtain ⟨r, -, rfl⟩ := Runs.restore_inversion hrestore
    exact ⟨rfl, Table.contains_of_get? (Database.get?_withRun_self db id _), fun h => h⟩
  | logMetrics runId metrics =>
    cases hreport
    obtain ⟨_, hrecord, rfl⟩ := (yields_map _ _).mp h
    obtain ⟨r, hr, -, -, rfl⟩ := MetricLog.record_inversion hrecord
    exact ⟨rfl, Table.contains_of_get? (Database.get?_logged_self hr _ _), fun h => h⟩
  | setModelTag name key value =>
    cases hreport
    obtain ⟨_, hset, rfl⟩ := (yields_map _ _).mp h
    obtain ⟨m, -, rfl⟩ := Models.setTag_inversion hset
    exact ⟨rfl, Table.contains_of_get? (Database.get?_withModel_self db name _), fun h => h⟩
  | deleteModelTag name key =>
    cases hreport
    obtain ⟨_, hdelete, rfl⟩ := (yields_map _ _).mp h
    obtain ⟨m, -, rfl⟩ := Models.deleteTag_inversion hdelete
    exact ⟨rfl, Table.contains_of_get? (Database.get?_withModel_self db name _), fun h => h⟩
  | setVersionTag name version key value =>
    cases hreport
    obtain ⟨_, hset, rfl⟩ := (yields_map _ _).mp h
    obtain ⟨m, -, hlive, rfl⟩ := Versions.setTag_inversion hset
    have hstays : ((setVersionTag name version key value).amend call.now m).IsLive version :=
      isLive_amend hlive hlive nofun
    exact ⟨rfl, ⟨_, Database.get?_withModel_self db name _, hstays⟩, fun h => h⟩
  | deleteVersionTag name version key =>
    cases hreport
    obtain ⟨_, hdelete, rfl⟩ := (yields_map _ _).mp h
    obtain ⟨m, -, hlive, rfl⟩ := Versions.deleteTag_inversion hdelete
    have hstays : ((deleteVersionTag name version key).amend call.now m).IsLive version :=
      isLive_amend hlive hlive nofun
    exact ⟨rfl, ⟨_, Database.get?_withModel_self db name _, hstays⟩, fun h => h⟩
  | setAlias name aliasName version =>
    cases hreport
    obtain ⟨_, hset, rfl⟩ := (yields_map _ _).mp h
    obtain ⟨m, -, ⟨hrule, -⟩, rfl⟩ := Aliases.set_inversion hset
    refine ⟨rfl, ⟨_, Database.get?_withModel_self db name _, ?_⟩, fun h => h hrule⟩
    exact Table.contains_of_get? (Table.get?_insert_self _ aliasName version)
  | _ => cases hreport

/-- **Once a call has succeeded, what it has written is read.** -/
theorem Reachable.exists_yields_of_report (hdb : Reachable db)
    (hvisible : ∀ table, call.hidden table = false) (hreport : operation.report = .read next)
    (h : operation.run.Yields call db answer db') :
    ∃ found, (next answer).run.Yields call db' found db' := by
  have hentry : call.pulse .entry = none := by
    cases hpulse : call.pulse .entry with
    | none => rfl
    | some cause =>
      obtain ⟨e, he⟩ := operation.stops_of_hasFired call db ⟨cause, hpulse⟩
      cases he.symm.trans h
  obtain ⟨hread, hfinds, hname⟩ := Operation.finds_of_report hreport h
  rcases (hdb.of_yields h).settles hread ⟨hentry, hvisible⟩ with
    ⟨-, hfound⟩ | ⟨hmissing, -⟩ | ⟨hnone, -⟩
  · exact hfound
  · exact absurd hfinds hmissing
  · exact absurd hnone hname

/-- **What becomes of the call of a request**: it fails, or it is carried out and there is something
to print. -/
theorem CommandLine.Request.perform_cases {r : Request} (hr : r.report = r.operation.report)
    (hdb : Reachable db) (hvisible : ∀ table, call.hidden table = false) :
    (∃ e, r.operation.run.Raises call db e ∧ r.perform call db = (.error e, db)) ∨
      ∃ answer db' json, r.operation.run.Yields call db answer db' ∧
        r.operation.report.Prints call answer db' json ∧ r.perform call db = (.ok json, db') := by
  rw [perform]
  rcases hresult : r.operation.run.perform call db with ⟨e | answer, db'⟩
  · obtain rfl := Operation.eq_of_perform_error hresult
    exact .inl ⟨e, congrArg Prod.fst hresult, rfl⟩
  · right
    refine ⟨answer, db', ?_⟩
    rw [← hr]
    cases hreport : r.report with
    | answer => exact ⟨_, hresult, .answer, rfl⟩
    | acknowledge note => exact ⟨_, hresult, .acknowledge note, rfl⟩
    | read next =>
      obtain ⟨found, hfound⟩ :=
        hdb.exists_yields_of_report hvisible (hr.symm.trans hreport) hresult
      refine ⟨_, hresult, .read hfound, ?_⟩
      change (next answer).run.perform call db' = _ at hfound
      simp only [hfound]

end ReadBack

end RunLedger
