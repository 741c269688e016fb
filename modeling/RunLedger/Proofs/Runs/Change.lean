import RunLedger.Proofs.Work.Success
import RunLedger.Runs

/-!
# What calls make of a run

A new run is stored under an identifier that no run has, without latest points. Deleting and
restoring a run sets its stage and the time of its deletion. No call takes a run away.

## Main definitions

* `Database.withRun`: the database with the record of a run stored.
* `RunRecord.ofNew`: the record of a new run.

## Main results

* `Runs.create_inversion`, `Runs.delete_inversion`, `Runs.restore_inversion`: which records a
  successful call finds and leaves.
-/

namespace RunLedger

open Work

/-! ### Storing the record of a run -/

namespace Database

variable {db : Database} {id : String} {r : RunRecord}

/-- The database with the record of a run stored under its identifier. -/
def withRun (db : Database) (id : String) (r : RunRecord) : Database :=
  { db with runs := db.runs.insert id r }

@[simp] theorem get?_withRun_self (db : Database) (id : String) (r : RunRecord) :
    (db.withRun id r).runs.get? id = some r :=
  db.runs.get?_insert_self id r

theorem get?_withRun_of_ne {other : String} (h : other ≠ id) :
    (db.withRun id r).runs.get? other = db.runs.get? other :=
  db.runs.get?_insert_of_ne h r

theorem withRun_withRun (db : Database) (id : String) (r r' : RunRecord) :
    (db.withRun id r).withRun id r' = db.withRun id r' := by
  simp only [withRun, Table.insert_insert]

theorem withRun_eq_self (h : db.runs.get? id = some r) : db.withRun id r = db := by
  rw [withRun, Table.insert_eq_self h]

end Database

/-- The record of a new run of an experiment that puts artifacts at `location`. -/
def RunRecord.ofNew (id location : String) (experimentId : Int) (name : String)
    (userId : Option String) (startTime : Int) (tags : List Tag) : RunRecord where
  experimentId
  name
  userId
  status := "RUNNING"
  startTime
  endTime := none
  deletedTime := none
  stage := .active
  artifactUri := Runs.artifactUri location id
  tags := tags.foldl (fun table tag => table.insert tag.key tag.value) .empty
  latest := .empty

/-! ### The calls -/

namespace Runs

variable {call : Call} {db db' : Database} {id : String} {r : RunRecord}

theorem leads_setTag (h : db.runs.get? id = some r) (tag : Tag) :
    (setTag id tag).Leads call db ()
      (db.withRun id { r with tags := r.tags.insert tag.key tag.value }) :=
  leads_bind (leads_ask (require_eq_ok_iff.mpr h)) <|
    leads_bind (leads_attemptUpsert _ _ _) (leads_modify _)

/-- Setting tags of a run one after the other. -/
theorem leads_forM_setTag (h : db.runs.get? id = some r) (tags : List Tag) :
    (tags.forM (setTag id)).Leads call db ⟨⟩
      (db.withRun id
        { r with
          tags := tags.foldl (fun table tag => table.insert tag.key tag.value) r.tags }) := by
  induction tags generalizing db r with
  | nil =>
    rw [List.foldl_nil, Database.withRun_eq_self h]
    exact leads_pure
  | cons tag tags ih =>
    have hrest := ih (Database.get?_withRun_self db id
      { r with tags := r.tags.insert tag.key tag.value })
    rw [Database.withRun_withRun] at hrest
    exact leads_bind (leads_setTag h tag) hrest

/-- A run is stored under an identifier that is not taken. -/
theorem leads_insertNew (hnew : db.runs.get? id = none) (r : RunRecord) :
    (insertNew id r).Leads call db () (db.withRun id r) := by
  refine leads_bind (leads_attemptOr _ _ _ _) <| leads_bind leads_get ?_
  rw [if_neg (by simp [Table.contains, hnew])]
  exact leads_modify _

theorem leads_create {experimentId : Int} {e : ExperimentRecord}
    (he : (requireOpen experimentId).run db = .ok e)
    (hnew : db.runs.get? (identifier call.entropy) = none) (name : String) (userId : Option String)
    (startTime : Int) (tags : List Tag) :
    let id := identifier call.entropy
    let r := RunRecord.ofNew id e.artifactLocation experimentId name userId startTime tags
    (create experimentId name userId startTime tags).Leads call db (r.entity id)
      (db.withRun id r) := by
  intro id r
  refine leads_transact <| leads_bind (leads_ask he) <| leads_bind leads_read <|
    leads_bind (leads_insertNew hnew _) <|
    leads_bind (leads_forM_setTag (Database.get?_withRun_self _ _ _) tags) ?_
  rw [Database.withRun_withRun]
  refine leads_ask (Query.bind_eq_ok_iff.mpr ⟨r, ?_, rfl⟩)
  exact require_eq_ok_iff.mpr (Database.get?_withRun_self db id r)

/-- A run is created in an open experiment, under the identifier made from the random bits of the
call, which is not taken. -/
theorem create_inversion {experimentId : Int} {name : String} {userId : Option String}
    {startTime : Int} {tags : List Tag} {run : Run}
    (h : (create experimentId name userId startTime tags).Yields call db run db') :
    ∃ e r, (requireOpen experimentId).run db = .ok e ∧
      r = .ofNew run.id e.artifactLocation experimentId name userId startTime tags ∧
      run.id = identifier call.entropy ∧ run = r.entity run.id ∧
      db.runs.get? run.id = none ∧ db' = db.withRun run.id r := by
  obtain ⟨e, he, hbody⟩ := yields_ask_bind.mp ((yields_transact _ _).mp h).2.2.1
  obtain ⟨_, db₁, hinsert, -⟩ := (yields_bind _ _).mp (leads_read.next hbody)
  have hnew : db.runs.get? (identifier call.entropy) = none := by
    have hguard := leads_get.next ((leads_attemptOr _ _ _ _).next hinsert)
    split at hguard
    · simp at hguard
    · next hfree => simpa [Table.contains] using hfree
  obtain ⟨rfl, rfl⟩ := (leads_create he hnew name userId startTime tags).1 _ _ h
  exact ⟨e, _, he, rfl, rfl, rfl, hnew, rfl⟩

theorem leads_alter (h : db.runs.get? id = some r) (f : RunRecord → RunRecord) :
    (alter id f).Leads call db () (db.withRun id (f r)) :=
  leads_bind (leads_ask (require_eq_ok_iff.mpr h)) <|
    leads_bind (leads_attempt _ _ _) (leads_modify _)

theorem alter_inversion {f : RunRecord → RunRecord} {u : Unit}
    (h : (alter id f).Yields call db u db') :
    ∃ r, db.runs.get? id = some r ∧ db' = db.withRun id (f r) := by
  obtain ⟨r, hr, -⟩ := yields_ask_bind.mp h
  have hr := require_eq_ok_iff.mp hr
  exact ⟨r, hr, ((leads_alter hr f).1 _ _ h).2⟩

theorem delete_inversion {u : Unit} (h : (delete id).Yields call db u db') :
    ∃ r, db.runs.get? id = some r ∧
      db' = db.withRun id { r with stage := .deleted, deletedTime := some call.now } :=
  alter_inversion (leads_read.next ((yields_transact _ _).mp h).2.2.1)

theorem restore_inversion {u : Unit} (h : (restore id).Yields call db u db') :
    ∃ r, db.runs.get? id = some r ∧
      db' = db.withRun id { r with stage := .active, deletedTime := none } :=
  alter_inversion ((yields_transact _ _).mp h).2.2.1

end Runs

end RunLedger
