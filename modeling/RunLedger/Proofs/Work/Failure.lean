import RunLedger.Proofs.Work.Success

/-!
# What a computation fails with

The error that a composed computation fails with is that of the part which failed, and the parts
before it have succeeded. So an error is traced back through a call, from its answer to the
statement that it comes from, as a success is. Where only the code of an error matters, whole parts
of a call can be passed over, because no error with that code comes from them.

## Main definitions

* `Work.Raises`: a computation fails with an error.
* `Work.Spares`: no error that a computation fails with has some code.

## Main results

* `Work.raises_bind`, `Work.raises_ask`, `Work.raises_attemptOr`, …: the errors of each building
  block.
* `Work.raises_within`, `Work.raises_transact`: the errors of a unit of work.
* `Work.Raises.of_transact`: an error that is no internal one comes from the body.
* `Work.Raises.failsWith_transact`: a unit of work whose body fails.
* `Work.spares_bind`, `Work.spares_forM`, …: the codes that do not come from composed computations.
-/

namespace RunLedger

namespace Query

variable {α β : Type} {db : Database} {e : StoreError}

theorem bind_eq_error_iff {q : Query α} {f : α → Query β} :
    (q >>= f).run db = .error e ↔
      q.run db = .error e ∨ ∃ a, q.run db = .ok a ∧ (f a).run db = .error e := by
  change (q.run db >>= fun a => (f a).run db) = _ ↔ _
  cases hq : q.run db with
  | error e' => simp [bind, Except.bind]
  | ok a => simp [bind, Except.bind]

/-- Of the queries for the members of a list, one fails. -/
theorem exists_of_mapM_eq_error {f : α → Query β} {xs : List α}
    (h : (xs.mapM f).run db = .error e) : ∃ x ∈ xs, (f x).run db = .error e := by
  induction xs with
  | nil => cases h
  | cons x xs ih =>
    rw [List.mapM_cons] at h
    rcases bind_eq_error_iff.mp h with h | ⟨y, -, h⟩
    · exact ⟨x, List.mem_cons_self, h⟩
    · rcases bind_eq_error_iff.mp h with h | ⟨ys, -, h⟩
      · obtain ⟨x', hx', hfails⟩ := ih h
        exact ⟨x', List.mem_cons_of_mem x hx', hfails⟩
      · cases h

end Query

namespace Work

variable {α β : Type}

/-- On `db`, the computation fails with the error `e`. -/
def Raises (w : Work α) (call : Call) (db : Database) (e : StoreError) : Prop :=
  (w.perform call db).1 = .error e

variable {call : Call} {db db' : Database} {a : α} {e : StoreError}

/-- A computation that leads somewhere fails only while it is disturbed. -/
theorem Raises.not_yields {w : Work α} (h : w.Raises call db e) : ¬ w.Yields call db a db' := by
  intro hyields
  rw [Raises, hyields] at h
  cases h

/-! ### Building blocks -/

@[simp] theorem raises_pure (c : α) : ¬ (pure c : Work α).Raises call db e := nofun

@[simp] theorem raises_read : ¬ (read : Work Call).Raises call db e := nofun

@[simp] theorem raises_get : ¬ (get : Work Database).Raises call db e := nofun

@[simp] theorem raises_modify (f : Database → Database) :
    ¬ (modify f : Work PUnit).Raises call db e := nofun

@[simp] theorem raises_throw (e' : StoreError) :
    (throw e' : Work α).Raises call db e ↔ e = e' := by
  simp [Raises, perform_throw, eq_comm]

/-- The part that fails has what the parts before it left. -/
@[simp] theorem raises_bind (w : Work α) (f : α → Work β) :
    (w >>= f).Raises call db e ↔
      w.Raises call db e ∨ ∃ a db₁, w.Yields call db a db₁ ∧ (f a).Raises call db₁ e := by
  simp only [Raises, Yields, perform_bind]
  rcases w.perform call db with ⟨_ | _, _⟩ <;> simp

@[simp] theorem raises_map (f : α → β) (w : Work α) :
    (f <$> w).Raises call db e ↔ w.Raises call db e := by
  simp only [Raises, perform_map]
  rcases w.perform call db with ⟨_ | _, _⟩ <;> simp

@[simp] theorem raises_ask (q : Query α) : (ask q).Raises call db e ↔ q.run db = .error e := by
  rw [Raises, perform_ask]

@[simp] theorem raises_checkpoint (operation : String) (c : Checkpoint) :
    (checkpoint operation c).Raises call db e ↔
      ∃ cause, call.pulse c = some cause ∧ e = .interrupted operation cause := by
  simp only [Raises, perform_checkpoint]
  cases call.pulse c <;> simp [eq_comm]

@[simp] theorem raises_ensure (rule : Except RuleViolation α) :
    (ensure rule).Raises call db e ↔
      ∃ violation, rule = .error violation ∧ e = .rule violation := by
  cases rule <;> simp [ensure]

@[simp] theorem raises_attemptOr (e' : StoreError) (kind : StatementKind) (table : TableName)
    (rows : List Row) :
    (attemptOr e' kind table rows).Raises call db e ↔
      ¬ call.Permits kind table rows ∧ e = e' := by
  have hraises {e : StoreError} (h : (attemptOr e' kind table rows).Raises call db e) : e = e' := by
    simp only [attemptOr, raises_bind, raises_read, false_or] at h
    obtain ⟨_, _, -, h⟩ := h
    split at h
    · exact (raises_throw e').mp h
    · exact absurd h (raises_pure _)
  rcases hresult : (attemptOr e' kind table rows).perform call db with ⟨e'' | u, db'⟩
  · obtain rfl := hraises (congrArg Prod.fst hresult)
    have hdenied : ¬ call.Permits kind table rows := fun hpermits =>
      Raises.not_yields (congrArg Prod.fst hresult)
        ((yields_attemptOr e'' kind table rows ()).mpr ⟨hpermits, rfl⟩)
    exact ⟨fun h => ⟨hdenied, hraises h⟩, fun h => h.2 ▸ congrArg Prod.fst hresult⟩
  · have hpermits := ((yields_attemptOr e' kind table rows u).mp hresult).1
    exact iff_of_false (fun h => h.not_yields hresult) fun h => h.1 hpermits

/-- What follows a computation that nothing disturbs fails as it would from where that one leads. -/
theorem Leads.raises_next {w : Work α} {f : α → Work β} {d : Database} (hw : w.Leads call db a d)
    (hcall : call.Undisturbed) : (w >>= f).Raises call db e ↔ (f a).Raises call d e := by
  have hyields : w.perform call db = (.ok a, d) := hw.2 hcall
  rw [Raises, Raises, perform_bind, hyields]

/-! ### Units of work -/

/-- A unit of work that starts and fails says why, and leaves nothing of what its body has done. -/
theorem Raises.failsWith_transact {body : Work α} (h : body.Raises call db e)
    (hcall : call.Unhindered) (operation : String) :
    (transact operation body).FailsWith call db e.code := by
  refine ⟨e, ?_, rfl⟩
  rw [perform_transact, hcall.entry]
  simp only [hcall.hindrance?_eq_none]
  rw [Raises] at h
  rcases hbody : body.perform call db with ⟨e' | a, d⟩ <;> rw [hbody] at h <;> cases h
  rfl

@[simp] theorem raises_within (activity : String) (w : Work α) :
    (within activity w).Raises call db e ↔ ∃ e', w.Raises call db e' ∧ e = e'.during activity := by
  simp only [Raises, within, perform_tryCatch]
  rcases w.perform call db with ⟨_ | _, _⟩ <;> simp [perform_throw, eq_comm]

/-- A unit of work fails with what keeps it from starting, with the error of its body, or because
its context has fired by the end. -/
theorem raises_transact (operation : String) (body : Work α) :
    (transact operation body).Raises call db e ↔
      (∃ cause, call.pulse .entry = some cause ∧ e = .interrupted operation cause) ∨
      call.pulse .entry = none ∧ (call.hindrance? operation = some e ∨
        call.hindrance? operation = none ∧ (body.Raises call db e ∨
          ∃ a db' cause, body.Yields call db a db' ∧ call.pulse .commit = some cause ∧
            e = .interrupted operation cause)) := by
  simp only [Raises, Yields, perform_transact]
  cases call.pulse .entry with
  | some cause => simp [eq_comm]
  | none =>
    cases call.hindrance? operation with
    | some e' => simp
    | none =>
      rcases body.perform call db with ⟨_ | _, _⟩
      · simp
      · cases call.pulse .commit <;> simp [eq_comm]

/-- An error of a unit of work that is no internal one comes from its body. -/
theorem Raises.of_transact {operation : String} {body : Work α}
    (h : (transact operation body).Raises call db e) (hcode : e.code ≠ .internalError) :
    body.Raises call db e := by
  rcases (raises_transact operation body).mp h with
    ⟨cause, -, rfl⟩ | ⟨-, hhindrance | ⟨-, hbody | ⟨_, _, cause, -, -, rfl⟩⟩⟩
  · exact absurd rfl hcode
  · rw [Call.hindrance?] at hhindrance
    split_ifs at hhindrance <;>
      exact absurd (congrArg StoreError.code (Option.some.inj hhindrance).symm) hcode
  · exact hbody
  · exact absurd rfl hcode

/-! ### Codes that do not come from a computation -/

/-- No error that the computation fails with has the code. -/
def Spares (w : Work α) (code : ErrorCode) : Prop :=
  ∀ call db e, w.Raises call db e → e.code ≠ code

variable {code : ErrorCode}

theorem Raises.code_ne {w : Work α} (h : w.Raises call db e) (hw : w.Spares code) :
    e.code ≠ code := hw call db e h

/-- If no error with the code comes from a part that can succeed in one way only, it comes from what
follows. -/
theorem Raises.after {w : Work α} {f : α → Work β} (h : (w >>= f).Raises call db e)
    (hcode : e.code = code) (hspares : w.Spares code) (hleads : w.Leads call db a db') :
    (f a).Raises call db' e := by
  rcases (raises_bind w f).mp h with hw | ⟨a', d, hyields, hf⟩
  · exact absurd hcode (hspares call db e hw)
  · obtain ⟨rfl, rfl⟩ := hleads.1 a' d hyields
    exact hf

/-- An error with another code than those of broken rules comes from what the rule guards. -/
theorem Raises.of_ensure_bind {rule : Except RuleViolation α} {f : α → Work β}
    (h : (ensure rule >>= f).Raises call db e) (hcode : e.code ≠ .invalidParameterValue) :
    ∃ a, rule = .ok a ∧ (f a).Raises call db e := by
  cases rule with
  | ok a => exact ⟨a, rfl, h⟩
  | error violation =>
    obtain rfl : e = .rule violation := by simpa [ensure] using h
    exact absurd rfl hcode

theorem spares_read : (read : Work Call).Spares code := fun _ _ _ h => absurd h raises_read

theorem spares_get : (get : Work Database).Spares code := fun _ _ _ h => absurd h raises_get

theorem spares_ask {q : Query α} (h : ∀ db e, q.run db = .error e → e.code ≠ code) :
    (ask q).Spares code := fun _ db e hraises => h db e ((raises_ask q).mp hraises)

theorem spares_modify (f : Database → Database) : (modify f : Work PUnit).Spares code :=
  fun _ _ _ h => absurd h (raises_modify f)

/-- The part that fails spares the code. -/
theorem spares_bind {w : Work α} {f : α → Work β} (hw : w.Spares code)
    (hf : ∀ a, (f a).Spares code) : (w >>= f).Spares code := by
  intro call db e h
  rcases (raises_bind w f).mp h with h | ⟨a, db₁, -, h⟩
  · exact hw call db e h
  · exact hf a call db₁ e h

theorem spares_forM {f : β → Work Unit} (h : ∀ x, (f x).Spares code) (xs : List β) :
    (xs.forM f).Spares code := by
  induction xs with
  | nil => exact fun _ _ _ h => absurd h (raises_pure _)
  | cons x xs ih => exact spares_bind (h x) fun _ => ih

theorem spares_checkpoint (hcode : code ≠ .internalError) (operation : String) (c : Checkpoint) :
    (checkpoint operation c).Spares code := by
  intro call db e h
  obtain ⟨cause, -, rfl⟩ := (raises_checkpoint operation c).mp h
  exact hcode.symm

theorem spares_attemptOr {e' : StoreError} (hcode : e'.code ≠ code) (kind : StatementKind)
    (table : TableName) (rows : List Row) : (attemptOr e' kind table rows).Spares code := by
  intro call db e h
  obtain ⟨-, rfl⟩ := (raises_attemptOr ..).mp h
  exact hcode

theorem spares_attempt (hcode : code ≠ .internalError) (kind : StatementKind) (table : TableName)
    (rows : List Row) : (attempt kind table rows).Spares code := by
  have herror : StoreError.statementFailed.code ≠ code := hcode.symm
  exact spares_attemptOr herror kind table rows

theorem spares_attemptUpsert (hcode : code ≠ .internalError) (table : TableName) (row : Row)
    (present : Bool) : (attemptUpsert table row present).Spares code := by
  refine spares_bind (spares_attempt hcode _ _ _) fun _ => ?_
  cases present with
  | true => exact spares_attempt hcode _ _ _
  | false => exact fun _ _ _ h => absurd h (raises_pure _)

end Work

end RunLedger
