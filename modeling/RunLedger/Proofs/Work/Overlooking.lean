import RunLedger.Work

/-!
# What a computation takes no notice of

A computation takes no notice of a change of the database if it comes to the same result on the
changed database, and leaves what it would have left, changed likewise. So two databases that differ
by the change alone cannot be told apart by it, and go on to differ by the change alone. What all
parts of a computation take no notice of, the whole takes no notice of.

## Main definitions

* `Query.Overlooks`, `Work.Overlooks`: a query, or a computation, takes no notice of a change of the
  database.

## Main results

* `Query.overlooks_bind`, `Work.overlooks_bind`, `Work.overlooks_transact`, …: changes that the
  parts take no notice of.
-/

namespace RunLedger

variable {α β : Type} {σ : Database → Database}

/-! ### Queries -/

namespace Query

/-- The query takes no notice of the change. -/
def Overlooks (σ : Database → Database) (q : Query α) : Prop :=
  ∀ db, q.run (σ db) = q.run db

theorem overlooks_pure (a : α) : (pure a : Query α).Overlooks σ := fun _ => rfl

theorem overlooks_throw (e : StoreError) : (throw e : Query α).Overlooks σ := fun _ => rfl

theorem overlooks_bind {q : Query α} {f : α → Query β} (hq : q.Overlooks σ)
    (hf : ∀ a, (f a).Overlooks σ) : (q >>= f).Overlooks σ := by
  intro db
  rw [ReaderT.run_bind, ReaderT.run_bind, hq]
  cases q.run db with
  | error e => rfl
  | ok a => exact hf a db

/-- What is done with the database must be the same with the change or without it. -/
theorem overlooks_read_bind {f : Database → Query α} (hchange : ∀ db, f (σ db) = f db)
    (hf : ∀ db, (f db).Overlooks σ) : (read >>= f).Overlooks σ := by
  intro db
  change (f (σ db)).run (σ db) = _
  rw [hchange]
  exact hf db db

theorem overlooks_ite {c : Prop} [Decidable c] {q r : Query α} (hq : q.Overlooks σ)
    (hr : r.Overlooks σ) : (if c then q else r).Overlooks σ := by
  split
  · exact hq
  · exact hr

theorem overlooks_mapM {f : β → Query α} (hf : ∀ x, (f x).Overlooks σ) (xs : List β) :
    (xs.mapM f).Overlooks σ := by
  induction xs with
  | nil =>
    rw [List.mapM_nil]
    exact overlooks_pure []
  | cons x xs ih =>
    rw [List.mapM_cons]
    exact overlooks_bind (hf x) fun _ => overlooks_bind ih fun _ => overlooks_pure _

end Query

/-! ### Units of work -/

namespace Work

/-- The computation takes no notice of the change. -/
def Overlooks (σ : Database → Database) (w : Work α) : Prop :=
  ∀ call db, w.perform call (σ db) = ((w.perform call db).1, σ (w.perform call db).2)

theorem overlooks_pure (a : α) : (pure a : Work α).Overlooks σ := fun _ _ => rfl

theorem overlooks_throw (e : StoreError) : (throw e : Work α).Overlooks σ := fun _ _ => rfl

theorem overlooks_read : (read : Work Call).Overlooks σ := fun _ _ => rfl

theorem overlooks_modify {f : Database → Database} (hf : ∀ db, f (σ db) = σ (f db)) :
    (modify f : Work PUnit).Overlooks σ := fun _ db => Prod.ext rfl (hf db)

theorem overlooks_bind {w : Work α} {f : α → Work β} (hw : w.Overlooks σ)
    (hf : ∀ a, (f a).Overlooks σ) : (w >>= f).Overlooks σ := by
  intro call db
  rw [perform_bind, perform_bind, hw]
  rcases w.perform call db with ⟨e | a, db'⟩
  · rfl
  · exact hf a call db'

/-- What is done with the state must be the same with the change or without it. -/
theorem overlooks_get_bind {f : Database → Work α} (hchange : ∀ db, f (σ db) = f db)
    (hf : ∀ db, (f db).Overlooks σ) : (get >>= f).Overlooks σ := by
  intro call db
  change (f (σ db)).perform call (σ db) = _
  rw [hchange]
  exact hf db call db

theorem overlooks_map {f : α → β} {w : Work α} (hw : w.Overlooks σ) :
    (f <$> w).Overlooks σ := by
  rw [← bind_pure_comp]
  exact overlooks_bind hw fun _ => overlooks_pure _

theorem overlooks_ask {q : Query α} (hq : q.Overlooks σ) :
    (ask q).Overlooks σ := fun call db => by
  rw [perform_ask, perform_ask, hq]

theorem overlooks_checkpoint (operation : String) (c : Checkpoint) :
    (checkpoint operation c).Overlooks σ := fun call db => by
  rw [perform_checkpoint, perform_checkpoint]
  cases call.pulse c <;> rfl

theorem overlooks_ensure (rule : Except RuleViolation α) : (ensure rule).Overlooks σ := by
  cases rule with
  | ok a => exact overlooks_pure a
  | error violation => exact overlooks_throw (.rule violation)

theorem overlooks_ite {c : Prop} [Decidable c] {v w : Work α} (hv : v.Overlooks σ)
    (hw : w.Overlooks σ) : (if c then v else w).Overlooks σ := by
  split
  · exact hv
  · exact hw

/-- A guard in front of a computation. -/
theorem overlooks_unless {c : Prop} [Decidable c] {e : StoreError} {w : Work α}
    (hw : w.Overlooks σ) :
    (if c then (throw e : Work Unit) >>= fun _ => w else w).Overlooks σ :=
  overlooks_ite (overlooks_bind (overlooks_throw e) fun _ => hw) hw

theorem overlooks_attemptOr (e : StoreError) (kind : StatementKind) (table : TableName)
    (rows : List Row) : (attemptOr e kind table rows).Overlooks σ :=
  overlooks_bind overlooks_read fun _ => overlooks_ite (overlooks_throw _) (overlooks_pure _)

theorem overlooks_attempt (kind : StatementKind) (table : TableName) (rows : List Row) :
    (attempt kind table rows).Overlooks σ :=
  overlooks_attemptOr _ _ _ _

theorem overlooks_attemptUpsert (table : TableName) (row : Row) (present : Bool) :
    (attemptUpsert table row present).Overlooks σ :=
  overlooks_bind (overlooks_attempt _ _ _) fun _ =>
    overlooks_ite (overlooks_attempt _ _ _) (overlooks_pure _)

theorem overlooks_within {activity : String} {w : Work α} (hw : w.Overlooks σ) :
    (within activity w).Overlooks σ := by
  intro call db
  rw [within, perform_tryCatch, perform_tryCatch, hw]
  rcases w.perform call db with ⟨e | a, db'⟩ <;> rfl

theorem overlooks_start (operation : String) : (start operation).Overlooks σ := by
  refine overlooks_bind (overlooks_checkpoint _ _) fun _ =>
    overlooks_bind overlooks_read fun call => ?_
  cases call.hindrance? operation with
  | some e => exact overlooks_throw e
  | none => exact overlooks_pure _

theorem overlooks_transact {operation : String} {body : Work α} (hbody : body.Overlooks σ) :
    (transact operation body).Overlooks σ := by
  intro call db
  rw [perform_transact, perform_transact, hbody]
  cases call.pulse .entry with
  | some cause => rfl
  | none =>
    cases call.hindrance? operation with
    | some e => rfl
    | none =>
      rcases body.perform call db with ⟨e | a, db'⟩
      · rfl
      · cases call.pulse .commit <;> rfl

theorem overlooks_consult {operation : String} {first : TableName} {q : Query α}
    (hq : q.Overlooks σ) : (consult operation first q).Overlooks σ :=
  overlooks_bind (overlooks_checkpoint _ _) fun _ => overlooks_bind overlooks_read fun _ =>
    overlooks_unless (overlooks_ask hq)

theorem overlooks_forM {step : β → Work PUnit} (hstep : ∀ x, (step x).Overlooks σ) :
    (xs : List β) → (forM xs step : Work PUnit).Overlooks σ
  | [] => overlooks_pure _
  | x :: xs => overlooks_bind (hstep x) fun _ => overlooks_forM hstep xs

end Work

end RunLedger
