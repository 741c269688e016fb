import RunLedger.Work

/-!
# What a computation leaves alone

A computation leaves a view of the database alone if the view is the same before and after, whether
the computation succeeds or fails. A view that all parts leave alone is left alone by the whole.

## Main definitions

* `Work.Fixes`: a computation leaves a view of the database alone.

## Main results

* `Work.fixes_bind`, `Work.fixes_transact`, …: views that the parts leave alone.
-/

namespace RunLedger

namespace Work

variable {α β γ : Type}

/-- The computation leaves the view alone, whether it succeeds or fails. -/
def Fixes (view : Database → γ) (w : Work α) : Prop :=
  ∀ call db, view (w.perform call db).2 = view db

variable {view : Database → γ}

theorem fixes_pure (a : α) : (pure a : Work α).Fixes view := fun _ _ => rfl

theorem fixes_throw (e : StoreError) : (throw e : Work α).Fixes view := fun _ _ => rfl

theorem fixes_read : (read : Work Call).Fixes view := fun _ _ => rfl

theorem fixes_get : (get : Work Database).Fixes view := fun _ _ => rfl

theorem fixes_modify {f : Database → Database} (h : ∀ db, view (f db) = view db) :
    (modify f : Work PUnit).Fixes view := fun _ db => h db

theorem fixes_bind {w : Work α} {f : α → Work β} (hw : w.Fixes view)
    (hf : ∀ a, (f a).Fixes view) : (w >>= f).Fixes view := by
  intro call db
  have hw := hw call db
  rw [perform_bind]
  rcases h : w.perform call db with ⟨e | a, db'⟩ <;> rw [h] at hw
  · exact hw
  · exact (hf a call db').trans hw

theorem fixes_map {f : α → β} {w : Work α} (hw : w.Fixes view) :
    (f <$> w).Fixes view := by
  rw [← bind_pure_comp]
  exact fixes_bind hw fun _ => fixes_pure _

theorem fixes_ask (q : Query α) : (ask q).Fixes view := fun call db => by
  rw [perform_ask]

theorem fixes_checkpoint (operation : String) (c : Checkpoint) :
    (checkpoint operation c).Fixes view := fun call db => by
  rw [perform_checkpoint]
  cases call.pulse c <;> rfl

theorem fixes_ensure (rule : Except RuleViolation α) : (ensure rule).Fixes view := by
  cases rule with
  | ok a => exact fixes_pure a
  | error violation => exact fixes_throw (.rule violation)

theorem fixes_ite {c : Prop} [Decidable c] {v w : Work α} (hv : v.Fixes view)
    (hw : w.Fixes view) : (if c then v else w).Fixes view := by
  split
  · exact hv
  · exact hw

/-- A guard in front of a computation. -/
theorem fixes_unless {c : Prop} [Decidable c] {e : StoreError} {w : Work α} (hw : w.Fixes view) :
    (if c then (throw e : Work Unit) >>= fun _ => w else w).Fixes view :=
  fixes_ite (fixes_bind (fixes_throw e) fun _ => hw) hw

theorem fixes_attemptOr (e : StoreError) (kind : StatementKind) (table : TableName)
    (rows : List Row) : (attemptOr e kind table rows).Fixes view :=
  fixes_bind fixes_read fun _ => fixes_ite (fixes_throw _) (fixes_pure _)

theorem fixes_attempt (kind : StatementKind) (table : TableName) (rows : List Row) :
    (attempt kind table rows).Fixes view :=
  fixes_attemptOr _ _ _ _

theorem fixes_attemptUpsert (table : TableName) (row : Row) (present : Bool) :
    (attemptUpsert table row present).Fixes view :=
  fixes_bind (fixes_attempt _ _ _) fun _ => fixes_ite (fixes_attempt _ _ _) (fixes_pure _)

theorem fixes_tryCatch {w : Work α} {f : StoreError → Work α} (hw : w.Fixes view)
    (hf : ∀ e, (f e).Fixes view) : (tryCatch w f).Fixes view := by
  intro call db
  have hw := hw call db
  rw [perform_tryCatch]
  rcases h : w.perform call db with ⟨e | a, db'⟩ <;> rw [h] at hw
  · exact (hf e call db').trans hw
  · exact hw

theorem fixes_within {activity : String} {w : Work α} (hw : w.Fixes view) :
    (within activity w).Fixes view :=
  fixes_tryCatch hw fun _ => fixes_throw _

theorem fixes_transact {operation : String} {body : Work α} (hbody : body.Fixes view) :
    (transact operation body).Fixes view := by
  intro call db
  have hbody := hbody call db
  rw [perform_transact]
  cases call.pulse .entry with
  | some cause => rfl
  | none =>
    cases call.hindrance? operation with
    | some e => rfl
    | none =>
      rcases h : body.perform call db with ⟨e | a, db'⟩
      · rfl
      · rw [h] at hbody
        cases call.pulse .commit with
        | some cause => rfl
        | none => exact hbody

theorem fixes_consult (operation : String) (first : TableName) (q : Query α) :
    (consult operation first q).Fixes view :=
  fixes_bind (fixes_checkpoint _ _) fun _ => fixes_bind fixes_read fun _ =>
    fixes_unless (fixes_ask q)

theorem fixes_forM {step : β → Work PUnit} (hstep : ∀ x, (step x).Fixes view) :
    (xs : List β) → (forM xs step : Work PUnit).Fixes view
  | [] => fixes_pure _
  | x :: xs => fixes_bind (hstep x) fun _ => fixes_forM hstep xs

end Work

end RunLedger
