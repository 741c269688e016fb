import RunLedger.Proofs.Metric.Effect
import RunLedger.Proofs.Work.Stopping

/-!
# Calls that may not write

A handle may be open on a database that it cannot change: its statements are refused, or its units
of work do not even begin. Every call that writes attempts a statement before its first write, so
it cannot succeed, except that a batch without observations has nothing to write. Whatever succeeds
through such a handle has changed nothing.

## Main definitions

* `Work.Balks`: a computation does not succeed where statements are refused.
* `Work.Heeds`: a computation that succeeds where statements are refused has changed nothing.

## Main results

* `Operation.heeds_run`: every call heeds that statements are refused.
* `Operation.eq_of_writing_ne_free`: a call that may not write changes nothing.
-/

namespace RunLedger

namespace Work

variable {α β : Type}

/-! ### Computations that attempt a statement -/

/-- Where statements are refused the computation does not succeed. -/
def Balks (w : Work α) : Prop :=
  ∀ call db a db', call.writing = .refused → ¬ w.Yields call db a db'

theorem balks_attemptOr (e : StoreError) (kind : StatementKind) (table : TableName)
    (rows : List Row) : (attemptOr e kind table rows).Balks := by
  intro call db a db' hrefused h
  obtain ⟨hpermits, -⟩ := (yields_attemptOr e kind table rows a).mp h
  exact hpermits.1 hrefused

theorem balks_attempt (kind : StatementKind) (table : TableName) (rows : List Row) :
    (attempt kind table rows).Balks :=
  balks_attemptOr _ _ _ _

/-- A computation that does not succeed is not continued. -/
theorem balks_bind {w : Work α} (hw : w.Balks) (f : α → Work β) : (w >>= f).Balks := by
  intro call db b db' hrefused h
  obtain ⟨a, db₁, ha, -⟩ := (yields_bind w f).mp h
  exact hw call db a db₁ hrefused ha

theorem balks_attemptUpsert (table : TableName) (row : Row) (present : Bool) :
    (attemptUpsert table row present).Balks :=
  balks_bind (balks_attempt _ _ _) _

/-- Nor does one succeed that does not succeed in what comes last. -/
theorem balks_after {w : Work α} {f : α → Work β} (hf : ∀ a, (f a).Balks) : (w >>= f).Balks := by
  intro call db b db' hrefused h
  obtain ⟨a, db₁, -, hb⟩ := (yields_bind w f).mp h
  exact hf a call db₁ b db' hrefused hb

theorem balks_unless {c : Prop} [Decidable c] {e : StoreError} {w : Work α} (hw : w.Balks) :
    (if c then (throw e : Work Unit) >>= fun _ => w else w).Balks := by
  split
  · exact balks_after fun _ => hw
  · exact hw

theorem balks_map {f : α → β} {w : Work α} (hw : w.Balks) : (f <$> w).Balks := by
  intro call db b db' hrefused h
  obtain ⟨a, ha, -⟩ := (yields_map f w).mp h
  exact hw call db a db' hrefused ha

theorem balks_within {activity : String} {w : Work α} (hw : w.Balks) :
    (within activity w).Balks := fun call db a db' hrefused h =>
  hw call db a db' hrefused ((yields_within activity w).mp h)

theorem balks_transact {operation : String} {body : Work α} (hbody : body.Balks) :
    (transact operation body).Balks := by
  intro call db a db' hrefused h
  obtain ⟨-, -, hyields, -⟩ := (yields_transact operation body).mp h
  exact hbody call db a db' hrefused hyields

/-! ### Computations that change nothing -/

/-- If the computation succeeds where statements are refused, it has changed nothing. -/
def Heeds (w : Work α) : Prop :=
  ∀ call db a db', call.writing = .refused → w.Yields call db a db' → db' = db

theorem Balks.heeds {w : Work α} (hw : w.Balks) : w.Heeds :=
  fun call db a db' hrefused h => absurd h (hw call db a db' hrefused)

theorem Fixes.heeds {w : Work α} (hw : w.Fixes id) : w.Heeds := by
  intro call db a db' _ h
  simpa only [id, show w.perform call db = (.ok a, db') from h] using hw call db

end Work

open Work

/-! ### The building blocks of calls -/

theorem Experiments.balks_insertNext (e : ExperimentRecord) : (insertNext e).Balks :=
  balks_after fun _ => balks_bind (balks_attemptOr _ _ _ _) _

theorem Runs.balks_insertNew (id : String) (r : RunRecord) : (insertNew id r).Balks :=
  balks_bind (balks_attemptOr _ _ _ _) _

theorem Runs.balks_alter (id : String) (f : RunRecord → RunRecord) : (alter id f).Balks :=
  balks_after fun _ => balks_bind (balks_attempt _ _ _) _

namespace Registry

theorem balks_touch (name : String) : (touch name).Balks :=
  balks_after fun _ => balks_after fun _ => balks_bind (balks_attempt _ _ _) _

theorem balks_alterVersions (name : String) (p : Int → VersionRecord → Bool)
    (f : VersionRecord → VersionRecord) : (alterVersions name p f).Balks :=
  balks_after fun _ => balks_bind (balks_attempt _ _ _) _

end Registry

/-- A batch with observations is refused at the first of them; one without has nothing to enter. -/
theorem MetricLog.heeds_record (runId : String) (metrics : List Metric) :
    (record runId metrics).Heeds := by
  cases hbatch : batch runId metrics with
  | nil =>
    intro call db u db' _ h
    simp only [record, hbatch, yields_within, yields_transact, yields_ask_bind, yields_pure] at h
    obtain ⟨-, -, ⟨_, -, _, -, -, rfl⟩, -⟩ := h
    rfl
  | cons e es =>
    have henter (r : RunRecord) : (enter runId r (e :: es)).Balks :=
      balks_bind (balks_bind (balks_bind (balks_attempt _ _ _) _) _) _
    have hbalks : (record runId metrics).Balks := by
      rw [record]
      simp only [hbatch]
      exact balks_within <| balks_transact <| balks_after fun r => balks_after fun _ => henter r
    exact hbalks.heeds

/-! ### Calls -/

namespace Operation

/-- **Every call heeds that statements are refused**: it fails, or it has nothing to write. -/
theorem heeds_run (operation : Operation) : operation.run.Heeds := by
  cases operation with
  | getExperiment | getRun | metricHistory | latestMetrics | modelMetrics | getModel | getByAlias
  | getVersion | latestVersions => exact Fixes.heeds (fixes_of_isRead rfl)
  | logMetrics runId metrics =>
    intro call db a db' hrefused h
    obtain ⟨u, hu, -⟩ := (yields_map _ _).mp h
    exact MetricLog.heeds_record runId metrics call db u db' hrefused hu
  | createExperiment name location tags =>
    exact Balks.heeds <| balks_map <| balks_unless <| balks_transact <| balks_after fun _ =>
      balks_bind (Experiments.balks_insertNext _) _
  | createRun experimentId name userId startTime tags =>
    exact Balks.heeds <| balks_map <| balks_transact <| balks_after fun _ => balks_after fun _ =>
      balks_bind (Runs.balks_insertNew _ _) _
  | deleteRun id =>
    exact Balks.heeds <| balks_map <| balks_transact <| balks_after fun _ => Runs.balks_alter _ _
  | restoreRun id => exact Balks.heeds <| balks_map <| balks_transact <| Runs.balks_alter _ _
  | rebuildLatest runId =>
    exact Balks.heeds <| balks_map <| balks_bind (balks_within <| balks_transact <|
      balks_after fun _ => balks_after fun _ => balks_bind (balks_attempt _ _ _) _) _
  | createModel name description tags =>
    exact Balks.heeds <| balks_map <| balks_after fun _ => balks_after fun _ => balks_transact <|
      balks_after fun _ => balks_bind (balks_bind (balks_attemptOr _ _ _ _) _) _
  | updateModel name description =>
    exact Balks.heeds <| balks_map <| balks_within <| balks_transact <|
      balks_bind (balks_after fun _ => balks_bind (balks_attempt _ _ _) _) _
  | renameModel name newName =>
    exact Balks.heeds <| balks_map <| balks_after fun _ => balks_within <| balks_transact <|
      balks_after fun _ =>
        balks_bind (balks_after fun _ => balks_bind (balks_attemptOr _ _ _ _) _) _
  | deleteModel name =>
    exact Balks.heeds <| balks_map <| balks_within <| balks_transact <| balks_after fun _ =>
      balks_bind (balks_attempt _ _ _) _
  | setModelTag | setVersionTag =>
    exact Balks.heeds <| balks_map <| balks_after fun _ => balks_transact <|
      balks_after fun _ => balks_bind (balks_attemptUpsert _ _ _) _
  | deleteModelTag | deleteAlias | deleteVersionTag =>
    exact Balks.heeds <| balks_map <| balks_after fun _ => balks_transact <|
      balks_after fun _ => balks_bind (balks_attempt _ _ _) _
  | setAlias name aliasName version =>
    exact Balks.heeds <| balks_map <| balks_after fun _ => balks_transact <|
      balks_after fun _ => balks_after fun _ => balks_bind (balks_attemptUpsert _ _ _) _
  | createVersion name new =>
    exact Balks.heeds <| balks_map <| balks_after fun _ => balks_within <| balks_transact <|
      balks_after fun _ => balks_after fun _ =>
        balks_bind (balks_bind (balks_attempt _ _ _) _) _
  | updateVersion name version description =>
    exact Balks.heeds <| balks_map <| balks_within <| balks_transact <| balks_after fun _ =>
      balks_after fun _ => balks_bind (Registry.balks_alterVersions _ _ _) _
  | transition name version stage archiveExisting =>
    exact Balks.heeds <| balks_map <| balks_after fun _ => balks_within <| balks_transact <|
      balks_after fun _ => balks_after fun _ => balks_bind (Registry.balks_touch _) _
  | deleteVersion name version =>
    exact Balks.heeds <| balks_map <| balks_within <| balks_transact <| balks_after fun _ =>
      balks_after fun _ => balks_after fun _ => balks_bind (Registry.balks_touch _) _

/-- A unit of work that does not begin stops the call. -/
theorem stops_of_barred {operation : Operation} (hread : operation.isRead = false) :
    operation.run.Stops fun call => call.writing = .barred := by
  have hstart (name : String) : (start name).Stops fun call => call.writing = .barred := by
    intro call db hbarred
    rw [perform_start]
    cases call.pulse .entry with
    | some cause => exact ⟨_, rfl⟩
    | none =>
      obtain ⟨e, he⟩ : ∃ e, call.hindrance? name = some e := by
        rw [Call.hindrance?]
        split <;> exact ⟨_, rfl⟩
      exact ⟨e, by simp only [he]⟩
  exact operation.stops_run (fun name _ => stops_bind (hstart name) _) fun h => by
    simp [hread] at h

/-- **A call that may not write changes nothing**, even if it succeeds. -/
theorem eq_of_writing_ne_free {operation : Operation} {call : Call} {db db' : Database}
    {answer : Answer} (hwriting : call.writing ≠ .free)
    (h : operation.run.Yields call db answer db') : db' = db := by
  cases hkind : call.writing with
  | free => exact absurd hkind hwriting
  | refused => exact operation.heeds_run call db answer db' hkind h
  | barred =>
    cases hread : operation.isRead with
    | true => exact eq_of_isRead hread h
    | false =>
      obtain ⟨e, he⟩ := stops_of_barred hread call db hkind
      cases he.symm.trans h

end Operation

end RunLedger
