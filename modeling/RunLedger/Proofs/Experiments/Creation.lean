import RunLedger.Proofs.Separation
import RunLedger.Proofs.TagMap
import RunLedger.Session.Adjustment

/-!
# Creating experiments

A new experiment needs a name that is not blank and that no active experiment has. It gets the id
after the last one that was handed out, and ids are handed out by creations that succeed and by
nothing else: an attempt that fails takes none. An experiment that other programs have marked as
deleted keeps its id and leaves its name to others. No call changes an experiment once it is there.

## Main definitions

* `Event`, `Event.performAll`: calls, and direct changes of stored rows, one after the other.
* `Event.created`: how many experiments have been created.
* `Database.HasActiveExperiment`: an active experiment has the name.
* `Text.IsWithoutSlashes`: a text without the slashes at its end.
* `Experiment.IsNew`: an experiment as it is read once it is created.

## Main results

* `Event.lastExperimentId_performAll`: the counter of ids counts the creations that have succeeded.
* `Operation.get?_experiments_performAll`: an experiment stays as it is, whatever calls are made.
* `experiment_is_created_under_next_id`: the ends of a creation, and what is read afterwards.
-/

namespace RunLedger

open Work

/-! ### Databases that others change as well -/

/-- What can happen to a database: a call, or a direct change of stored rows. -/
inductive Event
  | called (operation : Operation)
  | changed (adjustment : Adjustment)

namespace Event

/-- Carries an event out. -/
def run : Event → Work Answer
  | called operation => operation.run
  | changed adjustment => .number <$> adjustment.run

/-- The database after events, one after the other, each with what it takes from outside. -/
def performAll : List (Call × Event) → Database → Database
  | [], db => db
  | (call, event) :: events, db => performAll events (event.run.perform call db).2

/-- Whether an event that comes to `result` has created an experiment. -/
def creates : Event → Except StoreError Answer → Bool
  | called (.createExperiment _ _ _), .ok _ => true
  | _, _ => false

/-- How many experiments the events create. -/
def created : List (Call × Event) → Database → Nat
  | [], _ => 0
  | (call, event) :: events, db =>
    (event.creates (event.run.perform call db).1).toNat +
      created events (event.run.perform call db).2

end Event

/-! ### The counter of ids -/

/-- Work on anything but experiments leaves the counter of their ids alone. -/
theorem Area.lastExperimentId_eq_of_outside {area : Area} (harea : area ≠ .experiments)
    {db db' : Database} (h : area.outside db' = area.outside db) :
    db'.lastExperimentId = db.lastExperimentId := by
  have hlast := congrArg Database.lastExperimentId h
  cases area with
  | experiments => exact absurd rfl harea
  | runs | metrics | registry => exact hlast

namespace Adjustment

theorem fixes_lastExperimentId_of_outside {α : Type} {w : Work α} {area : Area}
    (h : w.Fixes area.outside) (harea : area ≠ .experiments) :
    w.Fixes Database.lastExperimentId :=
  fun call db => Area.lastExperimentId_eq_of_outside harea (h call db)

variable {γ : Type} {view : Database → γ}

theorem fixes_replaceRows (kind : StatementKind) (table : TableName) {f : Database → Database}
    (hf : ∀ db, view (f db) = view db) : (replaceRows kind table f).Fixes view := by
  intro call db
  rw [replaceRows, perform_bind,
    show (get : Work Database).perform call db = (.ok db, db) from rfl]
  simp only [perform_bind]
  split
  · exact hf db
  · next hresult =>
    have hdb := (congrArg Prod.snd hresult).symm.trans
      ((fixes_attempt kind table _ : Fixes id _) call db)
    exact congrArg view hdb

/-- A direct change hands out no id. -/
theorem fixes_lastExperimentId (a : Adjustment) : a.run.Fixes Database.lastExperimentId := by
  refine fixes_transact ?_
  cases a with
  | schemaVersion version => exact fixes_bind (fixes_modify fun _ => rfl) fun _ => fixes_pure _
  | experimentStage id stage =>
    refine fixes_bind fixes_get fun db => ?_
    cases db.experiments.get? id with
    | none => exact fixes_pure _
    | some e =>
      unfold setExperimentStage
      cases LifecycleStage.ofStored? stage with
      | none => exact fixes_throw _
      | some stage =>
        exact fixes_bind fixes_get fun _ => fixes_unless <|
          fixes_bind (fixes_attempt _ _ _) fun _ =>
            fixes_bind (fixes_modify fun _ => rfl) fun _ => fixes_pure _
  | runEnd id status endTime =>
    refine fixes_bind fixes_get fun db => ?_
    cases db.runs.get? id with
    | none => exact fixes_pure _
    | some r =>
      exact fixes_bind (fixes_lastExperimentId_of_outside (Runs.fixes_alter _ _) nofun)
        fun _ => fixes_pure _
  | versionStatus name version status remark =>
    refine fixes_bind fixes_get fun db => ?_
    cases (db.models.get? name).bind fun m => m.versions.get? version with
    | none => exact fixes_pure _
    | some v =>
      exact fixes_bind
        (fixes_lastExperimentId_of_outside (Registry.fixes_alterVersions _ _ _) nofun)
        fun _ => fixes_pure _
  | versionNumber name version newVersion =>
    refine fixes_bind fixes_get fun db => ?_
    cases (db.models.get? name).bind fun m => (m.versions.get? version).map (m, ·) with
    | none => exact fixes_pure _
    | some found =>
      exact fixes_bind (fixes_attempt _ _ _) fun _ => fixes_unless <|
        fixes_bind (fixes_modify fun _ => rfl) fun _ => fixes_pure _
  | missingTags table => exact fixes_replaceRows _ _ fun db => by cases table <;> rfl
  | missingModelValues | noLatest => exact fixes_replaceRows _ _ fun _ => rfl

end Adjustment

namespace Operation

variable {operation : Operation} {call : Call} {db db' : Database} {a : Answer} {id : Int}
  {e : ExperimentRecord}

/-- A successful call that creates no experiment leaves the experiments and their counter alone. -/
theorem experiments_eq_of_yields
    (hop : ∀ name location tags, operation ≠ .createExperiment name location tags)
    (h : operation.run.Yields call db a db') :
    db'.experiments = db.experiments ∧ db'.lastExperimentId = db.lastExperimentId := by
  by_cases harea : operation.area = .experiments
  · cases operation with
    | createExperiment name location tags => exact absurd rfl (hop name location tags)
    | getExperiment =>
      obtain rfl := eq_of_isRead rfl h
      exact ⟨rfl, rfl⟩
    | _ => cases harea
  · have houtside := outside_eq h
    exact ⟨Area.experiments_eq_of_outside harea houtside,
      Area.lastExperimentId_eq_of_outside harea houtside⟩

/-- An experiment whose id was handed out stays as it is. -/
theorem get?_experiments_performAll (steps : List (Call × Operation))
    (hid : id ≤ db.lastExperimentId) (h : db.experiments.get? id = some e) :
    (performAll steps db).2.experiments.get? id = some e := by
  suffices (performAll steps db).2.experiments.get? id = some e ∧
      id ≤ (performAll steps db).2.lastExperimentId from this.1
  refine performAll_invariant (I := fun db => db.experiments.get? id = some e ∧
    id ≤ db.lastExperimentId) ?_ steps ⟨h, hid⟩
  rintro operation call db a db' ⟨hget, hle⟩ hyields
  by_cases hop : ∃ name location tags, operation = createExperiment name location tags
  · obtain ⟨name, location, tags, rfl⟩ := hop
    obtain ⟨n, hcreate, -⟩ := (yields_map _ _).mp hyields
    obtain ⟨-, -, -, rfl⟩ := Experiments.create_inversion hcreate
    refine ⟨?_, ?_⟩
    · rw [Database.get?_withNextExperiment_of_ne (by omega), hget]
    · exact hle.trans (Int.le_add_one (Int.le_refl _))
  · push Not at hop
    obtain ⟨hsame, hlast⟩ := experiments_eq_of_yields hop hyields
    rw [hsame, hlast]
    exact ⟨hget, hle⟩

end Operation

namespace Event

theorem creates_error (event : Event) (error : StoreError) :
    event.creates (.error error) = false := by
  cases event with
  | called operation => cases operation <;> rfl
  | changed adjustment => rfl

theorem creates_called_eq_false {operation : Operation}
    (hop : ∀ name location tags, operation ≠ .createExperiment name location tags)
    (result : Except StoreError Answer) : (called operation).creates result = false := by
  cases operation with
  | createExperiment name location tags => exact absurd rfl (hop name location tags)
  | _ => rfl

/-- An event moves the counter by one if it has created an experiment, and else not at all. -/
theorem lastExperimentId_perform (event : Event) (call : Call) (db : Database) :
    (event.run.perform call db).2.lastExperimentId =
      db.lastExperimentId + (event.creates (event.run.perform call db).1).toNat := by
  cases event with
  | changed adjustment =>
    rw [run, fixes_map adjustment.fixes_lastExperimentId]
    exact (Int.add_zero _).symm
  | called operation =>
    rw [run]
    rcases hresult : operation.run.perform call db with ⟨error | a, db'⟩
    · rw [Operation.eq_of_perform_error hresult, creates_error]
      exact (Int.add_zero _).symm
    · by_cases hop : ∃ name location tags, operation = .createExperiment name location tags
      · obtain ⟨name, location, tags, rfl⟩ := hop
        obtain ⟨n, hcreate, -⟩ := (yields_map _ _).mp hresult
        obtain ⟨-, -, -, rfl⟩ := Experiments.create_inversion hcreate
        rfl
      · push Not at hop
        rw [(Operation.experiments_eq_of_yields hop hresult).2, creates_called_eq_false hop]
        exact (Int.add_zero _).symm

/-- **The counter of ids counts the creations that have succeeded.** -/
theorem lastExperimentId_performAll (events : List (Call × Event)) (db : Database) :
    (performAll events db).lastExperimentId = db.lastExperimentId + created events db := by
  induction events generalizing db with
  | nil => exact (Int.add_zero _).symm
  | cons step events ih =>
    obtain ⟨call, event⟩ := step
    rw [performAll, ih, lastExperimentId_perform, created]
    push_cast
    omega

end Event

/-! ### The ends of a creation -/

/-- An active experiment has the name. -/
def Database.HasActiveExperiment (db : Database) (name : String) : Prop :=
  ∃ id e, db.experiments.get? id = some e ∧ e.stage = .active ∧ e.name = name

namespace Experiments

variable {call : Call} {db : Database} {name : String}

theorem isTaken_iff : isTaken db name = true ↔ db.HasActiveExperiment name := by
  simp only [isTaken, Table.values, List.any_map, List.any_eq_true, Prod.exists,
    Table.mem_entries_iff, Function.comp_apply, Bool.and_eq_true, beq_iff_eq,
    Database.HasActiveExperiment]

theorem failsWith_create_of_blank (h : Text.isBlank name = true) (location : Option String)
    (tags : List Tag) (call : Call) (db : Database) :
    (create name location tags).FailsWith call db .invalidParameterValue := by
  have hthrow : (throw .blankExperimentName : Work Unit).FailsWith call db
      .invalidParameterValue := ⟨_, rfl, rfl⟩
  rw [create, if_pos h]
  exact hthrow.bind _

theorem failsWith_create_of_taken (hcall : call.Undisturbed) (hname : Text.isBlank name = false)
    (htaken : isTaken db name = true) (location : Option String) (tags : List Tag) :
    (create name location tags).FailsWith call db .resourceAlreadyExists := by
  have hthrow : (throw (.experimentExists name) : Work Unit).FailsWith call db
      .resourceAlreadyExists := ⟨_, rfl, rfl⟩
  have hinsert (e : ExperimentRecord) (he : e.name = name) :
      (insertNext e).FailsWith call db .resourceAlreadyExists := by
    refine .after hcall leads_get <| .after hcall (leads_attemptOr _ _ _ _) <|
      .after hcall leads_get ?_
    rw [he, if_pos htaken]
    exact hthrow.bind _
  rw [create, if_neg (by simp [hname])]
  exact .transact hcall.unhindered _ <| .after hcall leads_read <| (hinsert _ rfl).bind _

end Experiments

/-! ### Reading a new experiment -/

/-- The text `t` is `s` without the slashes at its end. -/
def Text.IsWithoutSlashes (s t : String) : Prop :=
  (∃ n, s.toList = t.toList ++ List.replicate n '/') ∧ t.toList.getLast? ≠ some '/'

theorem Text.isWithoutSlashes_withoutTrailingSlashes (s : String) :
    IsWithoutSlashes s (withoutTrailingSlashes s) := by
  have hsplit := List.takeWhile_append_dropWhile (p := (· == '/')) (l := s.toList.reverse)
  have hslashes : s.toList.reverse.takeWhile (· == '/') =
      List.replicate (s.toList.reverse.takeWhile (· == '/')).length '/' := by
    refine List.eq_replicate_of_mem fun c hc => ?_
    have hall := List.all_eq_true.mp (List.all_takeWhile (p := (· == '/')) (l := s.toList.reverse))
    exact beq_iff_eq.mp (hall c hc)
  rw [IsWithoutSlashes, withoutTrailingSlashes, String.toList_ofList]
  refine ⟨⟨(s.toList.reverse.takeWhile (· == '/')).length, ?_⟩, fun hlast => ?_⟩
  · rw [← List.reverse_inj, List.reverse_append, List.reverse_reverse, List.reverse_replicate,
      ← hslashes, hsplit]
  · rw [List.getLast?_reverse] at hlast
    have hhead := List.head?_dropWhile_not (· == '/') s.toList.reverse
    rw [hlast] at hhead
    simp at hhead

/-- An experiment as it is read once a call has created it under `id`. -/
structure Experiment.IsNew (call : Call) (id : Int) (name : String) (location : Option String)
    (tags : List Tag) (e : Experiment) : Prop where
  id_eq : e.id = id
  name_eq : e.name = name
  stage_eq : e.stage = .active
  creationTime_eq : e.creationTime = call.now
  lastUpdateTime_eq : e.lastUpdateTime = call.now
  /-- Of tags with one key the last one is there. -/
  tags_listed : (TagMap.ofLast tags).IsListed e.tags
  /-- A place that is given is kept to the letter. -/
  location_given : ∀ place, location = some place → place ≠ "" → e.artifactLocation = place
  /-- Without one the place is under the root that the ledger is configured with. -/
  location_default : location.getD "" = "" →
    ∃ root, Text.IsWithoutSlashes call.config.artifactRoot root ∧
      e.artifactLocation = root ++ "/" ++ toString id

theorem ExperimentRecord.isNew_ofNew (call : Call) (id : Int) (name : String)
    (location : Option String) (tags : List Tag) :
    Experiment.IsNew call id name location tags
      ((ofNew call.now call.config.artifactRoot id name location tags).entity id) where
  id_eq := rfl
  name_eq := rfl
  stage_eq := rfl
  creationTime_eq := rfl
  lastUpdateTime_eq := rfl
  tags_listed := by
    rw [← TagMap.ofTable_enterTags]
    exact TagMap.isListed_readTags _
  location_given place hplace hne := by
    subst hplace
    exact if_neg (by simpa using hne)
  location_default hempty := by
    refine ⟨_, Text.isWithoutSlashes_withoutTrailingSlashes _, ?_⟩
    exact if_pos (by simp [hempty])

theorem Operation.yields_getExperiment {reader : Call} (hreader : reader.Unhindered)
    {db : Database} {id : Int} {e : ExperimentRecord} (h : db.experiments.get? id = some e) :
    (getExperiment id).run.Yields reader db (.experiment (e.entity id)) db := by
  refine (yields_map _ _).mpr ⟨e.entity id, ?_, rfl⟩
  refine (yields_consult _ _ _).mpr ⟨hreader.entry, hreader.hidden _, ?_, rfl⟩
  exact Query.bind_eq_ok_iff.mpr ⟨e, Experiments.require_eq_ok_iff.mpr h, rfl⟩

/-- **An experiment is created under the next id, and stays as it was created.** After whatever
calls, successful or not, and whatever direct changes of stored rows, a creation that nothing
disturbs fails for its name exactly if that is blank, then exactly if an active experiment has it;
otherwise it answers with the number of creations that have succeeded, and one. From then on,
whatever calls follow, the experiment is read as it was created. -/
theorem experiment_is_created_under_next_id (events : List (Call × Event)) (call : Call)
    (hcall : call.Undisturbed) (name : String) (location : Option String) (tags : List Tag) :
    let db := Event.performAll events .empty
    let id : Int := Event.created events .empty + 1
    let creation := (Operation.createExperiment name location tags).run
    let blank := Text.trim name.toList = []
    (creation.FailsWith call db .invalidParameterValue ↔ blank) ∧
    (¬ blank → (creation.FailsWith call db .resourceAlreadyExists ↔
      db.HasActiveExperiment name)) ∧
    (¬ blank → ¬ db.HasActiveExperiment name →
      ∃ db' e, creation.Yields call db (.number id) db' ∧
        e.IsNew call id name location tags ∧
        ∀ later reader, reader.Unhindered →
          (Operation.getExperiment id).run.Yields reader (Operation.performAll later db').2
            (.experiment e) (Operation.performAll later db').2) := by
  intro db id creation blank
  have hlast : db.lastExperimentId + 1 = id := by
    rw [Event.lastExperimentId_performAll]
    exact congrArg (· + 1) (Int.zero_add _)
  have hblank : blank ↔ Text.isBlank name = true := Text.trim_eq_nil_iff name.toList
  have hgiven : ¬ blank ↔ Text.isBlank name = false := by rw [hblank, Bool.not_eq_true]
  have hfree : ¬ db.HasActiveExperiment name ↔ Experiments.isTaken db name = false := by
    rw [← Experiments.isTaken_iff, Bool.not_eq_true]
  have hcreates (hname : ¬ blank) (hnone : ¬ db.HasActiveExperiment name) :
      creation.Yields call db (.number id) (db.withNextExperiment
        (.ofNew call.now call.config.artifactRoot id name location tags)) := by
    have hleads : (Experiments.create name location tags).Leads call db
        (db.lastExperimentId + 1) _ :=
      Experiments.leads_create (hgiven.mp hname) (hfree.mp hnone) location tags
    rw [hlast] at hleads
    exact (yields_map _ _).mpr ⟨id, hleads.2 hcall, rfl⟩
  have htaken (hname : ¬ blank) (hactive : db.HasActiveExperiment name) :
      creation.FailsWith call db .resourceAlreadyExists :=
    (Experiments.failsWith_create_of_taken hcall (hgiven.mp hname)
      (Experiments.isTaken_iff.mpr hactive) location tags).map _
  refine ⟨⟨fun hfails => ?_, fun h => ?_⟩, fun hname => ⟨fun hfails => ?_, htaken hname⟩,
    fun hname hnone => ?_⟩
  · by_contra hname
    by_cases hactive : db.HasActiveExperiment name
    · cases hfails.code_eq (htaken hname hactive)
    · exact hfails.not_yields (hcreates hname hactive)
  · exact (Experiments.failsWith_create_of_blank (hblank.mp h) location tags call db).map _
  · by_contra hnone
    exact hfails.not_yields (hcreates hname hnone)
  · refine ⟨_, _, hcreates hname hnone, ExperimentRecord.isNew_ofNew .., fun later reader hreader =>
      Operation.yields_getExperiment hreader ?_⟩
    refine Operation.get?_experiments_performAll later (Int.le_of_eq hlast.symm) ?_
    rw [← hlast]
    exact Database.get?_withNextExperiment_self db _

/-- An experiment is created and then marked as deleted, and a creation is cancelled. -/
private def markedDeleted : List (Call × Event) :=
  [(.plain, .called (.createExperiment "e" none [])),
    (.plain, .changed (.experimentStage 1 "deleted")),
    (.late, .called (.createExperiment "e" none []))]

/-- A call of a ledger whose root for artifacts ends in slashes. -/
private def rooted : Call :=
  { Call.plain with config := { Call.plain.config with artifactRoot := "runs//" } }

/-- The experiment of the same name that is created next. -/
private def secondOfName : Experiment where
  id := 2
  name := "e"
  artifactLocation := "runs/2"
  stage := .active
  creationTime := 0
  lastUpdateTime := 0
  tags := [⟨"k", "w"⟩]

/-- The name of an experiment marked as deleted is free, and the cancelled creation has taken no
id. -/
theorem experiment_takes_name_of_deleted_one :
    rooted.Undisturbed ∧
    ((Event.performAll markedDeleted .empty).experiments.get? 1).map (fun e => (e.name, e.stage)) =
      some ("e", .deleted) ∧
    ∃ db', (Operation.createExperiment "e" none [⟨"k", "v"⟩, ⟨"k", "w"⟩]).run.Yields rooted
        (Event.performAll markedDeleted .empty) (.number 2) db' ∧
      ∀ later, (Operation.getExperiment 2).run.Yields .plain (Operation.performAll later db').2
        (.experiment secondOfName) (Operation.performAll later db').2 := by
  have hrooted : rooted.Undisturbed := ⟨rfl, rfl, fun _ => rfl, rfl, fun _ => rfl⟩
  let db := Event.performAll markedDeleted .empty
  let creation := (Operation.createExperiment "e" none [⟨"k", "v"⟩, ⟨"k", "w"⟩]).run
  have hfree : ¬ db.HasActiveExperiment "e" := by
    rw [← Experiments.isTaken_iff]
    decide +kernel
  have hcreated : (Event.created markedDeleted .empty : Int) + 1 = 2 := by decide +kernel
  obtain ⟨-, -, hcreates⟩ :=
    experiment_is_created_under_next_id markedDeleted rooted hrooted "e" none
      [⟨"k", "v"⟩, ⟨"k", "w"⟩]
  obtain ⟨db', e, hyields, -, hread⟩ := hcreates (by decide +kernel) hfree
  rw [hcreated] at hyields hread
  have hfirst : ((Operation.getExperiment 2).run.perform .plain
      (creation.perform rooted db).2).1 = .ok (.experiment secondOfName) := by decide +kernel
  have hleft : (creation.perform rooted db).2 = db' := congrArg Prod.snd hyields
  rw [hleft] at hfirst
  have hsame : (Operation.getExperiment 2).run.perform .plain db' = (.ok (.experiment e), db') :=
    hread [] .plain Call.plain_undisturbed.unhindered
  rw [hsame] at hfirst
  obtain rfl : e = secondOfName := Answer.experiment.inj (Except.ok.inj hfirst)
  exact ⟨hrooted, by decide +kernel, db', hyields, fun later =>
    hread later .plain Call.plain_undisturbed.unhindered⟩

end RunLedger
