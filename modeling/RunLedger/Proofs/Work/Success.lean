import Mathlib.Data.List.Forall2
import RunLedger.Work

/-!
# When a computation succeeds

A computation succeeds if each of its parts does: no statement is refused or hit by a fault, no
checkpoint finds the context fired, no query fails. This file says so for every way in which
computations are put together, each time as an equivalence, so that it can be read in both
directions: what a success has left behind, and what is enough for a success.

## Main definitions

* `Work.Yields`: a computation succeeds with an answer and leaves a database.
* `Work.Leads`: the only way in which a computation can succeed, and one in which it does.
* `Work.FailsWith`: a computation fails with an error of some code and changes nothing.
* `Call.Permits`: an attempt on rows is let through.
* `Call.Undisturbed`: nothing outside the database disturbs a call; `Call.plain` is such a call,
  and `Call.plainAt` one at another time.
* `Call.Unhindered`: nothing outside the database keeps a call from reading.

## Main results

* `Query.bind_eq_ok_iff`, `Query.mapM_eq_ok_iff`: success of a query.
* `Work.yields_bind`, `Work.yields_ask`, `Work.yields_attempt`, …: success of each building block.
* `Work.yields_transact`: success of a unit of work.
* `Work.leads_bind`, `Work.leads_transact`, …: what composed computations and units of work lead to.
* `Work.perform_consult`: calls that only read.
* `Work.FailsWith.transact`, `Work.failsWith_ask_bind`, …: calls that fail on what they read.
-/

namespace RunLedger

/-- Whether an attempt on rows is let through: rows may be changed, and no fault hits one. -/
def Call.Permits (call : Call) (kind : StatementKind) (table : TableName) (rows : List Row) :
    Prop :=
  call.writing ≠ .refused ∧ ∀ row ∈ rows, ∀ fault ∈ call.faults, fault.hits kind table row = false

/-- Nothing outside the database disturbs the call: no fault is set, nobody holds the write lock or
keeps a table from being read, rows may be changed, and the context does not fire. What it asks for
may still be too much for one statement: a call that logs observations fails if it would have to
look up more keys at a time than a statement takes. -/
structure Call.Undisturbed (call : Call) : Prop where
  faults : call.faults = []
  locked : call.locked = false
  hidden : ∀ table, call.hidden table = false
  writing : call.writing = .free
  pulse : ∀ checkpoint, call.pulse checkpoint = none

/-- The call gets as far as its first read: its context is alive when it starts, nobody holds the
write lock or keeps a table from being read, and a unit of work can begin. Statements may still be
hit by faults, and the context may fire later on. -/
structure Call.Unhindered (call : Call) : Prop where
  entry : call.pulse .entry = none
  locked : call.locked = false
  hidden : ∀ table, call.hidden table = false
  writing : call.writing ≠ .barred

/-- A call with the default configuration that nothing disturbs. -/
def Call.plain : Call where
  config := .atPath Config.inMemoryPath
  now := 0
  entropy := 0
  faults := []
  locked := false
  hidden := fun _ => false
  writing := .free
  pulse := fun _ => none

/-- A call like that one, at some reading of the clock. -/
def Call.plainAt (now : Int) : Call := { Call.plain with now }

/-- A call whose context is cancelled after the last statement. -/
def Call.late : Call :=
  { Call.plain with pulse := fun c => if c = .commit then some .cancelled else none }

theorem Call.plain_undisturbed : Call.plain.Undisturbed where
  faults := rfl
  locked := rfl
  hidden _ := rfl
  writing := rfl
  pulse _ := rfl

namespace Call.Undisturbed

variable {call : Call} (h : call.Undisturbed)

include h

theorem permits (kind : StatementKind) (table : TableName) (rows : List Row) :
    call.Permits kind table rows :=
  ⟨by simp [h.writing], by simp [h.faults]⟩

theorem unhindered : call.Unhindered where
  entry := h.pulse .entry
  locked := h.locked
  hidden := h.hidden
  writing := by simp [h.writing]

end Call.Undisturbed

theorem Call.Unhindered.hindrance?_eq_none {call : Call} (h : call.Unhindered)
    (operation : String) : call.hindrance? operation = none := by
  simp [Call.hindrance?, h.locked, h.writing]

/-! ### Queries -/

/-- What succeeds has succeeded in both parts. -/
theorem exists_of_bind_eq_ok {ε α β : Type} {x : Except ε α} {f : α → Except ε β} {b : β}
    (h : (x >>= f) = .ok b) : ∃ a, x = .ok a ∧ f a = .ok b := by
  cases x with
  | error e => cases h
  | ok a => exact ⟨a, rfl, h⟩

namespace Query

variable {α β : Type} {db : Database}

theorem bind_eq_ok_iff {q : Query α} {f : α → Query β} {b : β} :
    (q >>= f).run db = .ok b ↔ ∃ a, q.run db = .ok a ∧ (f a).run db = .ok b := by
  change (q.run db >>= fun a => (f a).run db) = _ ↔ _
  cases q.run db with
  | error e => exact iff_of_false nofun nofun
  | ok a =>
    constructor
    · exact fun h => ⟨a, rfl, h⟩
    · rintro ⟨a', ha, h⟩
      obtain rfl := Except.ok.inj ha
      exact h

theorem run_read_bind (f : Database → Query α) : (read >>= f : Query α).run db = (f db).run db := rfl

theorem exists_mem_of_forall₂ {R : α → β → Prop} {xs : List α} {ys : List β}
    (h : List.Forall₂ R xs ys) {x : α} (hx : x ∈ xs) : ∃ y ∈ ys, R x y := by
  induction h with
  | nil => cases hx
  | @cons w y xs ys hw hrest ih =>
    rcases List.mem_cons.mp hx with rfl | hx
    · exact ⟨y, List.mem_cons_self, hw⟩
    · obtain ⟨z, hz, hxz⟩ := ih hx
      exact ⟨z, List.mem_cons_of_mem y hz, hxz⟩

/-- Queries for the members of a list succeed if each of them does. -/
theorem mapM_eq_ok_iff {f : α → Query β} {xs : List α} {ys : List β} :
    (xs.mapM f).run db = .ok ys ↔ List.Forall₂ (fun x y => (f x).run db = .ok y) xs ys := by
  induction xs generalizing ys with
  | nil =>
    rw [List.mapM_nil, List.forall₂_nil_left_iff]
    exact ⟨fun h => (Except.ok.inj h).symm, fun h => congrArg Except.ok h.symm⟩
  | cons x xs ih =>
    rw [List.mapM_cons, bind_eq_ok_iff, List.forall₂_cons_left_iff]
    refine exists_congr fun y => ?_
    rw [bind_eq_ok_iff, exists_and_left]
    refine and_congr_right fun _ => exists_congr fun zs => and_congr ih ?_
    exact ⟨fun h => (Except.ok.inj h).symm, fun h => congrArg Except.ok h.symm⟩

/-- What the queries for the members of a list answer, each answers for some member. -/
theorem exists_of_mem_mapM {f : α → Query β} {xs : List α} {ys : List β}
    (h : (xs.mapM f).run db = .ok ys) {y : β} (hy : y ∈ ys) : ∃ x ∈ xs, (f x).run db = .ok y :=
  exists_mem_of_forall₂ (R := fun y x => (f x).run db = .ok y) (mapM_eq_ok_iff.mp h).flip hy

theorem exists_mem_mapM {f : α → Query β} {xs : List α} {ys : List β}
    (h : (xs.mapM f).run db = .ok ys) {x : α} (hx : x ∈ xs) : ∃ y ∈ ys, (f x).run db = .ok y :=
  exists_mem_of_forall₂ (mapM_eq_ok_iff.mp h) hx

theorem exists_mapM {f : α → Query β} {xs : List α} (h : ∀ x ∈ xs, ∃ y, (f x).run db = .ok y) :
    ∃ ys, (xs.mapM f).run db = .ok ys := by
  simp only [mapM_eq_ok_iff]
  induction xs with
  | nil => exact ⟨[], .nil⟩
  | cons x xs ih =>
    obtain ⟨y, hy⟩ := h x List.mem_cons_self
    obtain ⟨ys, hys⟩ := ih fun x' hx' => h x' (List.mem_cons_of_mem x hx')
    exact ⟨y :: ys, .cons hy hys⟩

end Query

namespace Work

variable {α β : Type}

/-- On `db`, the computation succeeds with the answer `a` and leaves `db'`. -/
def Yields (w : Work α) (call : Call) (db : Database) (a : α) (db' : Database) : Prop :=
  w.perform call db = (.ok a, db')

variable {call : Call} {db db' : Database} {a : α} {b : β}

/-! ### Building blocks -/

@[simp] theorem yields_pure (c : α) :
    (pure c : Work α).Yields call db a db' ↔ a = c ∧ db' = db := by
  simp only [Yields, perform_pure, Prod.mk.injEq, Except.ok.injEq]
  exact and_congr eq_comm eq_comm

@[simp] theorem yields_throw (e : StoreError) : ¬ (throw e : Work α).Yields call db a db' := by
  simp [Yields, perform_throw]

@[simp] theorem yields_bind (w : Work α) (f : α → Work β) :
    (w >>= f).Yields call db b db' ↔
      ∃ a db₁, w.Yields call db a db₁ ∧ (f a).Yields call db₁ b db' := by
  simp only [Yields, perform_bind]
  rcases w.perform call db with ⟨_ | _, _⟩ <;> simp

@[simp] theorem yields_map (f : α → β) (w : Work α) :
    (f <$> w).Yields call db b db' ↔ ∃ a, w.Yields call db a db' ∧ b = f a := by
  simp only [Yields, perform_map]
  rcases w.perform call db with ⟨_ | _, _⟩ <;> simp [and_comm, eq_comm]

@[simp] theorem yields_read (c : Call) :
    (read : Work Call).Yields call db c db' ↔ c = call ∧ db' = db := by
  change (pure call : Work Call).Yields call db c db' ↔ _
  exact yields_pure call

@[simp] theorem yields_get (d : Database) :
    (get : Work Database).Yields call db d db' ↔ d = db ∧ db' = db := by
  change (pure db : Work Database).Yields call db d db' ↔ _
  exact yields_pure db

@[simp] theorem yields_modify (f : Database → Database) (u : PUnit) :
    (modify f : Work PUnit).Yields call db u db' ↔ db' = f db := by
  change (Except.ok PUnit.unit, f db) = (Except.ok u, db') ↔ _
  simp [eq_comm]

@[simp] theorem yields_ask (q : Query α) :
    (ask q).Yields call db a db' ↔ q.run db = .ok a ∧ db' = db := by
  simp only [Yields, perform_ask, Prod.mk.injEq]
  exact and_congr_right fun _ => eq_comm

theorem yields_ask_bind {q : Query α} {f : α → Work β} :
    (ask q >>= f).Yields call db b db' ↔ ∃ a, q.run db = .ok a ∧ (f a).Yields call db b db' := by
  simp [and_assoc]

@[simp] theorem yields_checkpoint (operation : String) (c : Checkpoint) (u : Unit) :
    (checkpoint operation c).Yields call db u db' ↔ call.pulse c = none ∧ db' = db := by
  simp only [Yields, perform_checkpoint]
  cases call.pulse c <;> simp [eq_comm]

@[simp] theorem yields_ensure (rule : Except RuleViolation α) :
    (ensure rule).Yields call db a db' ↔ rule = .ok a ∧ db' = db := by
  cases rule with
  | error violation => simp [ensure]
  | ok c => simpa [ensure] using fun _ => eq_comm

theorem yields_ensure_bind {rule : Except RuleViolation α} {f : α → Work β} :
    (ensure rule >>= f).Yields call db b db' ↔ ∃ a, rule = .ok a ∧ (f a).Yields call db b db' := by
  simp [and_assoc]

/-! ### Statements -/

@[simp] theorem yields_attemptOr (e : StoreError) (kind : StatementKind) (table : TableName)
    (rows : List Row) (u : Unit) :
    (attemptOr e kind table rows).Yields call db u db' ↔
      call.Permits kind table rows ∧ db' = db := by
  simp only [attemptOr, yields_bind, yields_read]
  constructor
  · rintro ⟨c, db₁, ⟨rfl, rfl⟩, h⟩
    split at h
    · exact absurd h (yields_throw _)
    · next hc =>
      refine ⟨⟨?_, ?_⟩, ((yields_pure _).mp h).2⟩ <;> simp_all
  · rintro ⟨⟨hwriting, hfaults⟩, rfl⟩
    refine ⟨call, _, ⟨rfl, rfl⟩, ?_⟩
    rw [if_neg (by simp_all)]
    simp

@[simp] theorem yields_attempt (kind : StatementKind) (table : TableName) (rows : List Row)
    (u : Unit) :
    (attempt kind table rows).Yields call db u db' ↔ call.Permits kind table rows ∧ db' = db :=
  yields_attemptOr ..

theorem yields_attemptOr_bind {e : StoreError} {kind : StatementKind} {table : TableName}
    {rows : List Row} {f : Unit → Work β} :
    (attemptOr e kind table rows >>= f).Yields call db b db' ↔
      call.Permits kind table rows ∧ (f ()).Yields call db b db' := by
  simp only [yields_bind, yields_attemptOr]
  exact ⟨fun ⟨_, _, ⟨hpermits, hdb⟩, h⟩ => ⟨hpermits, hdb ▸ h⟩,
    fun ⟨hpermits, h⟩ => ⟨(), db, ⟨hpermits, rfl⟩, h⟩⟩

@[simp] theorem yields_attemptUpsert (table : TableName) (row : Row) (present : Bool) (u : Unit) :
    (attemptUpsert table row present).Yields call db u db' ↔
      call.Permits .insert table [row] ∧ (present = true → call.Permits .update table [row]) ∧
        db' = db := by
  cases present <;> simp [attemptUpsert, and_assoc, and_comm, and_left_comm]

/-! ### Units of work -/

@[simp] theorem yields_within (activity : String) (w : Work α) :
    (within activity w).Yields call db a db' ↔ w.Yields call db a db' := by
  simp only [Yields, within, perform_tryCatch]
  rcases w.perform call db with ⟨_ | _, _⟩ <;> simp [perform_throw]

@[simp] theorem yields_transact (operation : String) (body : Work α) :
    (transact operation body).Yields call db a db' ↔
      call.pulse .entry = none ∧ call.hindrance? operation = none ∧
        body.Yields call db a db' ∧ call.pulse .commit = none := by
  simp only [Yields, perform_transact]
  cases call.pulse .entry with
  | some cause => simp
  | none =>
    cases call.hindrance? operation with
    | some e => simp
    | none =>
      rcases body.perform call db with ⟨_ | _, _⟩
      · simp
      · cases call.pulse .commit <;> simp

@[simp] theorem yields_consult (operation : String) (first : TableName) (q : Query α) :
    (consult operation first q).Yields call db a db' ↔
      call.pulse .entry = none ∧ call.hidden first = false ∧ q.run db = .ok a ∧ db' = db := by
  simp only [consult, yields_bind, yields_checkpoint, yields_read]
  cases h : call.hidden first <;> simp [h]

/-- A call that only reads, and wraps up what it read. -/
theorem yields_map_consult {f : α → β} (hf : Function.Injective f) {operation : String}
    {first : TableName} {q : Query α} :
    (f <$> consult operation first q).Yields call db (f a) db' ↔
      call.pulse .entry = none ∧ call.hidden first = false ∧ q.run db = .ok a ∧ db' = db := by
  rw [yields_map]
  constructor
  · rintro ⟨c, hc, hac⟩
    obtain rfl := hf hac
    exact (yields_consult operation first q).mp hc
  · intro h
    exact ⟨a, (yields_consult operation first q).mpr h, rfl⟩

/-! ### What a computation leads to -/

/-- From `db` the computation can succeed only with the answer `a` and by leaving `db'`, and it does
so if nothing disturbs the call. -/
def Leads (w : Work α) (call : Call) (db : Database) (a : α) (db' : Database) : Prop :=
  (∀ b d, w.Yields call db b d → b = a ∧ d = db') ∧ (call.Undisturbed → w.Yields call db a db')

theorem leads_pure : (pure a : Work α).Leads call db a db :=
  ⟨fun _ _ h => (yields_pure a).mp h, fun _ => rfl⟩

theorem leads_bind {w : Work α} {f : α → Work β} {d : Database} (hw : w.Leads call db a d)
    (hf : (f a).Leads call d b db') : (w >>= f).Leads call db b db' := by
  refine ⟨fun c e h => ?_, fun hcall => (yields_bind w f).mpr ⟨a, d, hw.2 hcall, hf.2 hcall⟩⟩
  obtain ⟨a', d', ha, hb⟩ := (yields_bind w f).mp h
  obtain ⟨rfl, rfl⟩ := hw.1 a' d' ha
  exact hf.1 c e hb

/-- What follows a computation goes on from where that one leads. -/
theorem Leads.next {w : Work α} {f : α → Work β} {d : Database} (hw : w.Leads call db a d)
    (h : (w >>= f).Yields call db b db') : (f a).Yields call d b db' := by
  obtain ⟨a', d', ha, hb⟩ := (yields_bind w f).mp h
  obtain ⟨rfl, rfl⟩ := hw.1 a' d' ha
  exact hb

theorem leads_map {w : Work α} (f : α → β) (hw : w.Leads call db a db') :
    (f <$> w).Leads call db (f a) db' := by
  rw [← bind_pure_comp]
  exact leads_bind hw leads_pure

theorem leads_read : (read : Work Call).Leads call db call db :=
  ⟨fun c _ h => (yields_read c).mp h, fun _ => rfl⟩

theorem leads_get : (get : Work Database).Leads call db db db :=
  ⟨fun d _ h => (yields_get d).mp h, fun _ => rfl⟩

theorem leads_modify (f : Database → Database) :
    (modify f : Work PUnit).Leads call db ⟨⟩ (f db) :=
  ⟨fun _ _ h => ⟨rfl, (yields_modify f _).mp h⟩, fun _ => rfl⟩

theorem leads_ask {q : Query α} (h : q.run db = .ok a) : (ask q).Leads call db a db := by
  refine ⟨fun b d hb => ?_, fun _ => (yields_ask q).mpr ⟨h, rfl⟩⟩
  obtain ⟨hq, rfl⟩ := (yields_ask q).mp hb
  exact ⟨Except.ok.inj (hq.symm.trans h), rfl⟩

theorem leads_checkpoint (operation : String) (c : Checkpoint) :
    (checkpoint operation c).Leads call db () db :=
  ⟨fun _ _ h => ⟨rfl, ((yields_checkpoint operation c _).mp h).2⟩,
    fun hcall => (yields_checkpoint operation c _).mpr ⟨hcall.pulse c, rfl⟩⟩

theorem leads_ensure {rule : Except RuleViolation α} (h : rule = .ok a) :
    (ensure rule).Leads call db a db := by
  refine ⟨fun b d hb => ?_, fun _ => (yields_ensure rule).mpr ⟨h, rfl⟩⟩
  obtain ⟨hrule, rfl⟩ := (yields_ensure rule).mp hb
  exact ⟨Except.ok.inj (hrule.symm.trans h), rfl⟩

theorem leads_attemptOr (e : StoreError) (kind : StatementKind) (table : TableName)
    (rows : List Row) : (attemptOr e kind table rows).Leads call db () db :=
  ⟨fun _ _ h => ⟨rfl, ((yields_attemptOr e kind table rows _).mp h).2⟩,
    fun hcall => (yields_attemptOr e kind table rows _).mpr ⟨hcall.permits kind table rows, rfl⟩⟩

theorem leads_attempt (kind : StatementKind) (table : TableName) (rows : List Row) :
    (attempt kind table rows).Leads call db () db :=
  leads_attemptOr .statementFailed kind table rows

theorem leads_attemptUpsert (table : TableName) (row : Row) (present : Bool) :
    (attemptUpsert table row present).Leads call db () db :=
  ⟨fun _ _ h => ⟨rfl, ((yields_attemptUpsert table row present _).mp h).2.2⟩,
    fun hcall => (yields_attemptUpsert table row present _).mpr
      ⟨hcall.permits .insert table [row], fun _ => hcall.permits .update table [row], rfl⟩⟩

theorem leads_within {activity : String} {w : Work α} (hw : w.Leads call db a db') :
    (within activity w).Leads call db a db' := by
  simpa only [Leads, yields_within] using hw

theorem leads_transact {operation : String} {body : Work α} (hbody : body.Leads call db a db') :
    (transact operation body).Leads call db a db' := by
  refine ⟨fun b d h => ?_, fun hcall => ?_⟩
  · exact hbody.1 b d ((yields_transact operation body).mp h).2.2.1
  · exact (yields_transact operation body).mpr ⟨hcall.pulse .entry,
      hcall.unhindered.hindrance?_eq_none operation, hbody.2 hcall, hcall.pulse .commit⟩

/-! ### Reading, and failing on what was read -/

/-- What a call that only reads comes to. -/
theorem perform_consult_eq (call : Call) (db : Database) (operation : String) (first : TableName)
    (q : Query α) :
    (consult operation first q).perform call db =
      match call.pulse .entry with
      | some cause => (.error (.interrupted operation cause), db)
      | none => if call.hidden first then (.error .statementFailed, db) else (q.run db, db) := by
  rw [consult, perform_bind, perform_checkpoint]
  cases call.pulse .entry with
  | some cause => rfl
  | none =>
    change (if call.hidden first = true then
      (throw StoreError.statementFailed : Work Unit) >>= fun _ => ask q
      else ask q).perform call db = _
    split
    · rfl
    · exact perform_ask call db q

theorem perform_consult (hcall : call.Unhindered) (operation : String) (first : TableName)
    (q : Query α) : (consult operation first q).perform call db = (q.run db, db) := by
  rw [perform_consult_eq, hcall.entry, hcall.hidden]
  rfl

/-- On `db`, the computation fails with an error of the given code and leaves `db` as it was. -/
def FailsWith (w : Work α) (call : Call) (db : Database) (code : ErrorCode) : Prop :=
  ∃ e, w.perform call db = (.error e, db) ∧ e.code = code

theorem failsWith_consult (hcall : call.Unhindered) {operation : String} {first : TableName}
    {q : Query α} {e : StoreError} (h : q.run db = .error e) :
    (consult operation first q).FailsWith call db e.code :=
  ⟨e, by rw [perform_consult hcall, h], rfl⟩

theorem failsWith_ask_bind {q : Query α} {e : StoreError} (h : q.run db = .error e)
    (f : α → Work β) : (ask q >>= f).FailsWith call db e.code :=
  ⟨e, by rw [perform_bind, perform_ask, h], rfl⟩

namespace FailsWith

variable {code : ErrorCode}

/-- A computation fails in one way. -/
theorem code_eq {code' : ErrorCode} {w : Work α} (h : w.FailsWith call db code)
    (h' : w.FailsWith call db code') : code = code' := by
  obtain ⟨e, he, rfl⟩ := h
  obtain ⟨e', he', rfl⟩ := h'
  rw [Except.error.inj (congrArg Prod.fst (he.symm.trans he'))]

theorem not_yields {w : Work α} (h : w.FailsWith call db code) : ¬ w.Yields call db a db' := by
  obtain ⟨e, he, -⟩ := h
  intro hyields
  cases he.symm.trans hyields

theorem ask_bind {q : Query α} {f : α → Work β} (h : q.run db = .ok a)
    (hf : (f a).FailsWith call db code) : (ask q >>= f).FailsWith call db code := by
  obtain ⟨e, he, hcode⟩ := hf
  exact ⟨e, by simp only [perform_bind, perform_ask, h, he], hcode⟩

theorem bind {w : Work α} (h : w.FailsWith call db code) (f : α → Work β) :
    (w >>= f).FailsWith call db code := by
  obtain ⟨e, he, hcode⟩ := h
  exact ⟨e, by rw [perform_bind, he], hcode⟩

/-- What fails after a part that has changed nothing. -/
theorem after {w : Work α} {f : α → Work β} (hcall : call.Undisturbed)
    (hw : w.Leads call db a db) (hf : (f a).FailsWith call db code) :
    (w >>= f).FailsWith call db code := by
  obtain ⟨e, he, hcode⟩ := hf
  have hyields : w.perform call db = (.ok a, db) := hw.2 hcall
  exact ⟨e, by simp only [perform_bind, hyields, he], hcode⟩

theorem ensure_bind {rule : Except RuleViolation α} {f : α → Work β} (h : rule = .ok a)
    (hf : (f a).FailsWith call db code) : (ensure rule >>= f).FailsWith call db code := by
  subst h
  exact hf

theorem map {w : Work α} (f : α → β) (h : w.FailsWith call db code) :
    (f <$> w).FailsWith call db code := by
  obtain ⟨e, he, hcode⟩ := h
  exact ⟨e, by rw [perform_map, he], hcode⟩

theorem within {w : Work α} (activity : String) (h : w.FailsWith call db code) :
    (within activity w).FailsWith call db code := by
  obtain ⟨e, he, hcode⟩ := h
  refine ⟨e.during activity, ?_, by rw [StoreError.code_during, hcode]⟩
  rw [Work.within, perform_tryCatch, he]
  rfl

/-- A unit of work that starts and fails says why. -/
theorem transact {body : Work α} (hcall : call.Unhindered) (operation : String)
    (h : body.FailsWith call db code) : (transact operation body).FailsWith call db code := by
  obtain ⟨e, he, hcode⟩ := h
  refine ⟨e, ?_, hcode⟩
  rw [perform_transact, hcall.entry]
  simp only [hcall.hindrance?_eq_none, he]

end FailsWith

end Work

end RunLedger
