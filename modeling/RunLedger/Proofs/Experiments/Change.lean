import RunLedger.Proofs.Registry.Change

/-!
# What creating an experiment leaves behind

An experiment is stored under the id after the last one that was handed out, and only if no active
experiment has its name. It is the only call that changes experiments.

## Main definitions

* `Database.withExperiment`: the database with the record of an experiment stored.
* `ExperimentRecord.ofNew`: the record of a new experiment.
* `Database.withNextExperiment`: the database with an experiment stored under the next id.

## Main results

* `Experiments.leads_create`, `Experiments.create_inversion`: what creating an experiment asks for
  and leaves.
-/

namespace RunLedger

open Work

/-! ### Storing the record of an experiment -/

namespace Database

variable {db : Database} {id : Int} {e : ExperimentRecord}

/-- The database with the record of an experiment stored under its id. -/
def withExperiment (db : Database) (id : Int) (e : ExperimentRecord) : Database :=
  { db with experiments := db.experiments.insert id e }

@[simp] theorem get?_withExperiment_self (db : Database) (id : Int) (e : ExperimentRecord) :
    (db.withExperiment id e).experiments.get? id = some e :=
  db.experiments.get?_insert_self id e

theorem withExperiment_withExperiment (db : Database) (id : Int) (e e' : ExperimentRecord) :
    (db.withExperiment id e).withExperiment id e' = db.withExperiment id e' := by
  simp only [withExperiment, Table.insert_insert]

theorem withExperiment_eq_self (h : db.experiments.get? id = some e) :
    db.withExperiment id e = db := by
  rw [withExperiment, Table.insert_eq_self h]

/-- The database with the record of an experiment stored under the next id. -/
def withNextExperiment (db : Database) (e : ExperimentRecord) : Database :=
  { db.withExperiment (db.lastExperimentId + 1) e with
    lastExperimentId := db.lastExperimentId + 1 }

@[simp] theorem get?_withNextExperiment_self (db : Database) (e : ExperimentRecord) :
    (db.withNextExperiment e).experiments.get? (db.lastExperimentId + 1) = some e :=
  get?_withExperiment_self db _ e

theorem get?_withNextExperiment_of_ne (h : id ≠ db.lastExperimentId + 1) (e : ExperimentRecord) :
    (db.withNextExperiment e).experiments.get? id = db.experiments.get? id :=
  db.experiments.get?_insert_of_ne h e

theorem withExperiment_withNextExperiment (db : Database) (e e' : ExperimentRecord) :
    (db.withNextExperiment e).withExperiment (db.lastExperimentId + 1) e' =
      db.withNextExperiment e' := by
  simp only [withNextExperiment, withExperiment, Table.insert_insert]

end Database

/-- The record of an experiment that is created under `id` at the time `now`. It puts artifacts
under `root` unless it names another place. -/
def ExperimentRecord.ofNew (now : Int) (root : String) (id : Int) (name : String)
    (location : Option String) (tags : List Tag) : ExperimentRecord where
  name
  artifactLocation :=
    if (location.getD "").isEmpty then Experiments.defaultLocation root id else location.getD ""
  stage := .active
  creationTime := now
  lastUpdateTime := now
  tags := enterTags .empty tags

/-! ### The call -/

namespace Experiments

variable {call : Call} {db db' : Database} {id : Int} {e : ExperimentRecord}

theorem require_eq_ok_iff :
    (require id).run db = .ok e ↔ db.experiments.get? id = some e := by
  rw [require, Query.run_read_bind]
  cases db.experiments.get? id with
  | none => exact iff_of_false nofun nofun
  | some e' =>
    exact ⟨fun h => congrArg some (Except.ok.inj h), fun h => congrArg _ (Option.some.inj h)⟩

theorem leads_put (id : Int) (e : ExperimentRecord) :
    (put id e).Leads call db () (db.withExperiment id e) :=
  leads_modify _

theorem leads_setTag (h : db.experiments.get? id = some e) (tag : Tag) :
    (setTag id tag).Leads call db ()
      (db.withExperiment id { e with tags := e.tags.insert tag.key (some tag.value) }) :=
  leads_bind (leads_ask (require_eq_ok_iff.mpr h)) <|
    leads_bind (leads_attemptUpsert _ _ _) (leads_put _ _)

/-- Setting tags of an experiment one after the other. -/
theorem leads_forM_setTag (h : db.experiments.get? id = some e) (tags : List Tag) :
    (tags.forM (setTag id)).Leads call db ⟨⟩
      (db.withExperiment id { e with tags := enterTags e.tags tags }) := by
  induction tags generalizing db e with
  | nil =>
    rw [enterTags, List.foldl_nil, Database.withExperiment_eq_self h]
    exact leads_pure
  | cons tag tags ih =>
    have hrest := ih (Database.get?_withExperiment_self db id
      { e with tags := e.tags.insert tag.key (some tag.value) })
    rw [Database.withExperiment_withExperiment] at hrest
    exact leads_bind (leads_setTag h tag) hrest

/-- An experiment is stored under the next id if its name is free. -/
theorem leads_insertNext (hfree : isTaken db e.name = false) :
    (insertNext e).Leads call db (db.lastExperimentId + 1) (db.withNextExperiment e) := by
  refine leads_bind leads_get <| leads_bind (leads_attemptOr _ _ _ _) <| leads_bind leads_get ?_
  rw [if_neg (by simp [hfree])]
  exact leads_bind (leads_modify _) leads_pure

theorem leads_relocate (db : Database) (e : ExperimentRecord) (location : String) :
    (relocate (db.lastExperimentId + 1) e location).Leads call (db.withNextExperiment e) ()
      (db.withNextExperiment { e with artifactLocation := location }) := by
  rw [← Database.withExperiment_withNextExperiment db e { e with artifactLocation := location }]
  exact leads_bind (leads_attempt _ _ _) (leads_put _ _)

theorem leads_enterTags (db : Database) (e : ExperimentRecord) (tags : List Tag) :
    (tags.forM (setTag (db.lastExperimentId + 1))).Leads call (db.withNextExperiment e) ⟨⟩
      (db.withNextExperiment { e with tags := enterTags e.tags tags }) := by
  rw [← Database.withExperiment_withNextExperiment db e { e with tags := enterTags e.tags tags }]
  exact leads_forM_setTag (Database.get?_withNextExperiment_self db e) tags

theorem leads_create {name : String} (hname : Text.isBlank name = false)
    (hfree : isTaken db name = false) (location : Option String) (tags : List Tag) :
    let id := db.lastExperimentId + 1
    (create name location tags).Leads call db id (db.withNextExperiment
      (.ofNew call.now call.config.artifactRoot id name location tags)) := by
  intro id
  have hrest (e : ExperimentRecord) :
      (do
        checkpoint "create_experiment" (.inside 0)
        tags.forM (setTag id)
        return id : Work Int).Leads call (db.withNextExperiment e) id
        (db.withNextExperiment { e with tags := enterTags e.tags tags }) :=
    leads_bind (leads_checkpoint _ _) <| leads_bind (leads_enterTags db e tags) leads_pure
  rw [create, if_neg (by simp [hname])]
  refine leads_transact <| leads_bind leads_read <| leads_bind (leads_insertNext hfree) ?_
  split
  · next hempty =>
    rw [ExperimentRecord.ofNew, if_pos hempty]
    exact leads_bind (leads_relocate db _ _) (hrest _)
  · next hgiven =>
    rw [ExperimentRecord.ofNew, if_neg hgiven]
    exact hrest _

/-- **An experiment is created under the next id**, with a name that is not blank and that no active
experiment has. -/
theorem create_inversion {name : String} {location : Option String} {tags : List Tag} {n : Int}
    (h : (create name location tags).Yields call db n db') :
    Text.isBlank name = false ∧ isTaken db name = false ∧ n = db.lastExperimentId + 1 ∧
      db' = db.withNextExperiment
        (.ofNew call.now call.config.artifactRoot n name location tags) := by
  have hname : Text.isBlank name = false := by
    by_contra hblank
    rw [create, if_pos (by simpa using hblank)] at h
    simp at h
  have hfree : isTaken db name = false := by
    rw [create, if_neg (by simp [hname])] at h
    have hbody := leads_read.next ((yields_transact _ _).mp h).2.2.1
    obtain ⟨_, _, hinsert, -⟩ := (yields_bind _ _).mp hbody
    have hguard := leads_get.next ((leads_attemptOr _ _ _ _).next (leads_get.next hinsert))
    by_contra htaken
    rw [if_pos (by simpa using htaken)] at hguard
    simp at hguard
  obtain ⟨rfl, rfl⟩ := (leads_create hname hfree location tags).1 _ _ h
  exact ⟨hname, hfree, rfl, rfl⟩

end Experiments

end RunLedger
