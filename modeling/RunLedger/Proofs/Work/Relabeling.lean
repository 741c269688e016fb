import RunLedger.Proofs.Registry.Labels

/-!
# Computations under other names

Two computations do the same under other names of models if, from the same database under the other
names, the second comes to what the first comes to and leaves what the first leaves, all under the
other names. What holds of the parts of two computations holds of the whole.

## Main definitions

* `relabelResult`: a result under other names.
* `Query.Relabels`, `Work.Relabels`: a query, or a computation, does under other names what another
  one does.

## Main results

* `Query.relabels_bind`, `Work.relabels_bind`, `Work.relabels_transact`, …: computations whose parts
  do the same.
-/

namespace RunLedger

variable {α β γ δ : Type} {π : Equiv.Perm String} {f : α → β} {g : γ → δ}

/-- A result under other names of models, where `f` puts the value under other names. -/
def relabelResult (π : Equiv.Perm String) (f : α → β) : Except StoreError α → Except StoreError β
  | .ok a => .ok (f a)
  | .error e => .error (e.relabel π)

/-! ### Queries -/

namespace Query

/-- The second query reads under other names what the first one reads. -/
def Relabels (π : Equiv.Perm String) (f : α → β) (q : Query α) (q' : Query β) : Prop :=
  ∀ db, q'.run (db.relabel π) = relabelResult π f (q.run db)

theorem relabels_pure {a : α} {b : β} (h : b = f a) :
    (pure a : Query α).Relabels π f (pure b) := by
  subst h
  exact fun _ => rfl

theorem relabels_throw (e : StoreError) :
    (throw e : Query α).Relabels π f (throw (e.relabel π)) := fun _ => rfl

theorem relabels_bind {q : Query α} {q' : Query β} {k : α → Query γ} {k' : β → Query δ}
    (hq : q.Relabels π f q') (hk : ∀ a, (k a).Relabels π g (k' (f a))) :
    (q >>= k).Relabels π g (q' >>= k') := by
  intro db
  rw [ReaderT.run_bind, ReaderT.run_bind, hq]
  cases q.run db with
  | error e => rfl
  | ok a => exact hk a db

theorem relabels_read : (read : Query Database).Relabels π (Database.relabel π) read :=
  fun _ => rfl

theorem relabels_mapM {k : γ → Query α} {k' : γ → Query β}
    (hk : ∀ x, (k x).Relabels π f (k' x)) (xs : List γ) :
    (xs.mapM k).Relabels π (List.map f) (xs.mapM k') := by
  induction xs with
  | nil =>
    rw [List.mapM_nil, List.mapM_nil]
    exact relabels_pure rfl
  | cons x xs ih =>
    rw [List.mapM_cons, List.mapM_cons]
    exact relabels_bind (hk x) fun _ => relabels_bind ih fun _ => relabels_pure rfl

end Query

/-! ### Units of work -/

namespace Work

/-- The second computation does under other names what the first one does. -/
def Relabels (π : Equiv.Perm String) (f : α → β) (w : Work α) (w' : Work β) : Prop :=
  ∀ call db, w'.perform (call.relabel π) (db.relabel π) =
    (relabelResult π f (w.perform call db).1, (w.perform call db).2.relabel π)

theorem relabels_pure {a : α} {b : β} (h : b = f a) :
    (pure a : Work α).Relabels π f (pure b) := by
  subst h
  exact fun _ _ => rfl

theorem relabels_throw (e : StoreError) :
    (throw e : Work α).Relabels π f (throw (e.relabel π)) := fun _ _ => rfl

theorem relabels_read : (read : Work Call).Relabels π (Call.relabel π) read := fun _ _ => rfl

theorem relabels_get : (get : Work Database).Relabels π (Database.relabel π) get := fun _ _ => rfl

theorem relabels_modify {h h' : Database → Database}
    (hh : ∀ db, h' (db.relabel π) = (h db).relabel π) :
    (modify h : Work PUnit).Relabels π id (modify h') := fun _ db => Prod.ext rfl (hh db)

theorem relabels_bind {w : Work α} {w' : Work β} {k : α → Work γ} {k' : β → Work δ}
    (hw : w.Relabels π f w') (hk : ∀ a, (k a).Relabels π g (k' (f a))) :
    (w >>= k).Relabels π g (w' >>= k') := by
  intro call db
  rw [perform_bind, perform_bind, hw]
  rcases w.perform call db with ⟨e | a, db'⟩
  · rfl
  · exact hk a call db'

theorem relabels_map {w : Work α} {w' : Work β} {h : α → γ} {h' : β → δ}
    (hw : w.Relabels π f w') (hh : ∀ a, h' (f a) = g (h a)) :
    (h <$> w).Relabels π g (h' <$> w') := by
  rw [← bind_pure_comp, ← bind_pure_comp]
  exact relabels_bind hw fun a => relabels_pure (hh a)

theorem relabels_ask {q : Query α} {q' : Query β} (hq : q.Relabels π f q') :
    (ask q).Relabels π f (ask q') := fun call db => by
  rw [perform_ask, perform_ask, hq]

theorem relabels_checkpoint (operation : String) (c : Checkpoint) :
    (checkpoint operation c).Relabels π id (checkpoint operation c) := by
  intro call db
  rw [perform_checkpoint, perform_checkpoint, show (call.relabel π).pulse c = call.pulse c from rfl]
  cases call.pulse c <;> rfl

theorem relabels_ensure {rule rule' : Except RuleViolation α} (h : rule' = rule) :
    (ensure rule).Relabels π id (ensure rule') := by
  subst h
  cases rule' with
  | ok a => exact relabels_pure rfl
  | error violation => exact relabels_throw (.rule violation)

theorem relabels_ite {c c' : Prop} [Decidable c] [Decidable c'] {v w : Work α} {v' w' : Work β}
    (hc : c' ↔ c) (hv : v.Relabels π f v') (hw : w.Relabels π f w') :
    (if c then v else w).Relabels π f (if c' then v' else w') := by
  by_cases h : c
  · rw [if_pos h, if_pos (hc.mpr h)]
    exact hv
  · rw [if_neg h, if_neg (mt hc.mp h)]
    exact hw

/-- A guard in front of a computation. -/
theorem relabels_unless {c c' : Prop} [Decidable c] [Decidable c'] {e e' : StoreError}
    {w : Work α} {w' : Work β} (hc : c' ↔ c) (he : e' = e.relabel π) (hw : w.Relabels π f w') :
    (if c then (throw e : Work Unit) >>= fun _ => w else w).Relabels π f
      (if c' then (throw e' : Work Unit) >>= fun _ => w' else w') := by
  subst he
  exact relabels_ite hc (relabels_bind (f := id) (relabels_throw e) fun _ => hw) hw

/-- Faults hit the rows under other names that they hit. -/
theorem relabels_attemptOr {e e' : StoreError} (he : e' = e.relabel π) (kind : StatementKind)
    (table : TableName) {rows rows' : List Row} (hrows : rows' = rows.map (Row.relabel π table)) :
    (attemptOr e kind table rows).Relabels π id (attemptOr e' kind table rows') := by
  subst he hrows
  refine relabels_bind relabels_read fun call => relabels_ite ?_ (relabels_throw _)
    (relabels_pure rfl)
  have hhit : ((rows.map (Row.relabel π table)).any fun row =>
        (call.relabel π).faults.any fun fault => fault.hits kind table row) =
      rows.any fun row => call.faults.any fun fault => fault.hits kind table row := by
    simp only [Call.relabel, List.any_map, Function.comp_def, Fault.hits_relabel]
  rw [hhit]
  exact Iff.rfl

theorem relabels_attempt (kind : StatementKind) (table : TableName) {rows rows' : List Row}
    (hrows : rows' = rows.map (Row.relabel π table)) :
    (attempt kind table rows).Relabels π id (attempt kind table rows') :=
  relabels_attemptOr rfl kind table hrows

theorem relabels_attemptUpsert (table : TableName) {row row' : Row} (present : Bool)
    (hrow : row' = row.relabel π table) :
    (attemptUpsert table row present).Relabels π id (attemptUpsert table row' present) := by
  subst hrow
  exact relabels_bind (relabels_attempt _ _ rfl) fun _ =>
    relabels_ite Iff.rfl (relabels_attempt _ _ rfl) (relabels_pure rfl)

theorem relabels_within {activity : String} {w : Work α} {w' : Work β}
    (hw : w.Relabels π f w') : (within activity w).Relabels π f (within activity w') := by
  intro call db
  rw [within, within, perform_tryCatch, perform_tryCatch, hw]
  rcases w.perform call db with ⟨e | a, db'⟩
  · exact Prod.ext (congrArg Except.error (e.during_relabel π activity)) rfl
  · rfl

theorem relabels_transact {operation : String} {body : Work α} {body' : Work β}
    (hbody : body.Relabels π f body') :
    (transact operation body).Relabels π f (transact operation body') := by
  intro call db
  have hpulse (c : Checkpoint) : (call.relabel π).pulse c = call.pulse c := rfl
  have hhindrance : (call.relabel π).hindrance? operation = call.hindrance? operation := rfl
  have herror (e : StoreError) (he : call.hindrance? operation = some e) : e.relabel π = e := by
    rw [Call.hindrance?] at he
    split_ifs at he <;> cases he <;> rfl
  rw [perform_transact, perform_transact, hbody, hpulse, hpulse, hhindrance]
  cases call.pulse .entry with
  | some cause => rfl
  | none =>
    cases hh : call.hindrance? operation with
    | some e => simp only [relabelResult, herror e hh]
    | none =>
      rcases body.perform call db with ⟨e | a, db'⟩
      · rfl
      · cases call.pulse .commit <;> rfl

theorem relabels_consult {operation : String} {first : TableName} {q : Query α} {q' : Query β}
    (hq : q.Relabels π f q') :
    (consult operation first q).Relabels π f (consult operation first q') :=
  relabels_bind (relabels_checkpoint _ _) fun _ => relabels_bind relabels_read fun _ =>
    relabels_unless Iff.rfl rfl (relabels_ask hq)

theorem relabels_forM {step step' : γ → Work PUnit}
    (hstep : ∀ x, (step x).Relabels π id (step' x)) :
    (xs : List γ) → (forM xs step : Work PUnit).Relabels π id (forM xs step')
  | [] => relabels_pure rfl
  | x :: xs => relabels_bind (hstep x) fun _ => relabels_forM hstep xs

end Work

end RunLedger
