import RunLedger.Proofs.Registry.VersionTimes
import RunLedger.Proofs.Registry.WellFormed

/-!
# Moving a version to a stage

A version can be moved to any stage that a caller may name, and if that is one of the active ones,
the other versions there can be archived. The arguments are judged before the version is looked for,
and a version that is there is moved. In either of these cases nothing else comes of the call: the
versions that move change their stage and the time of their last change, the model notes the change,
and all other versions, deleted ones included, all tags, all aliases and all other models stay as
they are.

## Main definitions

* `Versions.Barred`: arguments that no move is made with.
* `Database.HasMoved`: what a move makes of a database.

## Main results

* `Versions.checkTransition_eq_ok_iff`: which arguments are let through.
* `VersionRecord.stage_moved_iff`: after the others were archived, one version is in the stage.
* `Operation.failsWith_transition_of_barred`, `Operation.failsWith_transition_of_not_found`,
  `Operation.exists_yields_transition`: the three ends of the call.
* `transition_moves_version_and_archives_others`: which of them it comes to.
-/

namespace RunLedger

open Work Registry

/-! ### Arguments -/

/-- The mark of a soft deletion is no stage to move to, and only Staging and Production are stages
to archive others out of. -/
def Versions.Barred (stage : VersionStage) (archiveExisting : Bool) : Prop :=
  stage = .deletedInternal ∨
    archiveExisting = true ∧ stage ≠ .staging ∧ stage ≠ .production

instance (stage : VersionStage) (archiveExisting : Bool) :
    Decidable (Versions.Barred stage archiveExisting) := by
  unfold Versions.Barred
  infer_instance

/-- **The arguments that are let through.** The others break a rule for parameters. -/
theorem Versions.checkTransition_eq_ok_iff (stage : VersionStage) (archiveExisting : Bool) :
    checkTransition stage archiveExisting = .ok () ↔ ¬ Barred stage archiveExisting := by
  cases stage <;> cases archiveExisting <;> decide

theorem Versions.exists_checkTransition_eq_error {stage : VersionStage} {archiveExisting : Bool}
    (h : Barred stage archiveExisting) :
    ∃ violation, checkTransition stage archiveExisting = .error violation := by
  cases hcheck : checkTransition stage archiveExisting with
  | error violation => exact ⟨violation, rfl⟩
  | ok u => exact absurd h ((checkTransition_eq_ok_iff stage archiveExisting).mp hcheck)

/-! ### Stages after a move -/

namespace VersionRecord

variable {stage : VersionStage} {now version k : Int} {v : VersionRecord}

theorem moved_self (now version : Int) (stage : VersionStage) (archiveExisting : Bool)
    (v : VersionRecord) :
    moved now version stage archiveExisting version v =
      { v with stage, lastUpdatedTime := now } := by
  simp [moved]

/-- **Once the others are archived, the version is the only one in its stage.** -/
theorem stage_moved_iff (hstage : stage ≠ .archived) :
    (moved now version stage true k v).stage = stage ↔ k = version := by
  rw [moved]
  split_ifs with hk hothers
  · exact iff_of_true rfl (by simpa using hk)
  · exact iff_of_false hstage.symm (by simpa using hk)
  · exact iff_of_false (by simpa using hothers) (by simpa using hk)

end VersionRecord

/-- What moving a version, and archiving the others in its stage if they are to be, makes of a
database at the time `now`. -/
structure Database.HasMoved (now : Int) (name : String) (version : Int) (stage : VersionStage)
    (archiveExisting : Bool) (db db' : Database) : Prop where
  /-- Every stored version is the one it was, moved if it is to be. -/
  versions : ∀ k, db'.storedVersion? name k =
    (db.storedVersion? name k).map (VersionRecord.moved now version stage archiveExisting k)
  /-- The version is in the stage. -/
  arrived : ∃ v, db'.storedVersion? name version = some v ∧ v.stage = stage
  /-- If the others were to be archived, no other version of the model is in the stage. -/
  alone : archiveExisting = true →
    ∀ k v, db'.storedVersion? name k = some v → v.stage = stage → k = version
  /-- Of the model only the time of its last change and its versions are changed, and of the rest of
  the database nothing. -/
  rest : ∃ m m', db.models.get? name = some m ∧ db' = db.withModel name m' ∧
    m' = { m with lastUpdatedTime := bumped now m.lastUpdatedTime, versions := m'.versions }

/-! ### Versions that are there -/

namespace Registry

variable {db : Database} {name : String} {version : Int}

/-- A version is found if it is stored and not deleted. -/
theorem isSome_findVersion?_iff :
    (findVersion? db name version).isSome = true ↔
      ∃ v, db.storedVersion? name version = some v ∧ v.stage ≠ .deletedInternal := by
  simp only [Option.isSome_iff_exists, Prod.exists, findVersion?_eq_some_iff,
    Database.storedVersion?_eq_some_iff, VersionStage.isDeleted, beq_eq_false_iff_ne]
  constructor
  · rintro ⟨m, v, hm, hv, hlive⟩
    exact ⟨v, ⟨m, hm, hv⟩, hlive⟩
  · rintro ⟨v, ⟨m, hm, hv⟩, hlive⟩
    exact ⟨m, v, hm, hv, hlive⟩

/-- A version is read in the stage in which it is stored. -/
theorem exists_stage_of_loadVersion {answer : ModelVersion}
    (h : (loadVersion name version).run db = .ok answer) :
    ∃ v, db.storedVersion? name version = some v ∧ answer.stage = v.stage := by
  obtain ⟨m, v, entity, hfound, hentity, rfl⟩ := loadVersion_eq_ok_iff.mp h
  obtain ⟨hm, hv, -⟩ := findVersion?_eq_some_iff.mp hfound
  have hstage : entity.stage = v.stage := VersionRecord.stage_of_entity? hentity
  exact ⟨v, Database.storedVersion?_eq_some_iff.mpr ⟨m, hm, hv⟩, hstage⟩

end Registry

/-! ### The ends of a call -/

namespace Operation

variable {call : Call} {db : Database} {name : String} {version : Int} {stage : VersionStage}
  {archiveExisting : Bool} {m : ModelRecord} {v : VersionRecord}

theorem failsWith_transition_of_barred (h : Versions.Barred stage archiveExisting) (name : String)
    (version : Int) (call : Call) (db : Database) :
    (transition name version stage archiveExisting).run.FailsWith call db
      .invalidParameterValue := by
  obtain ⟨violation, hviolation⟩ := Versions.exists_checkTransition_eq_error h
  have hcheck : (ensure (Versions.checkTransition stage archiveExisting)).FailsWith call db
      .invalidParameterValue := by
    rw [hviolation]
    exact ⟨.rule violation, rfl, rfl⟩
  exact (hcheck.bind _).map _

theorem failsWith_transition_of_not_found (hstage : ¬ Versions.Barred stage archiveExisting)
    (h : findVersion? db name version = none) (hcall : call.Unhindered) :
    (transition name version stage archiveExisting).run.FailsWith call db
      .resourceDoesNotExist := by
  have hmissing : (requireVersion name version).run db =
      .error (.versionNotFound name version) := by
    rw [run_requireVersion, h]
  have hcheck := (Versions.checkTransition_eq_ok_iff stage archiveExisting).mpr hstage
  exact ((((failsWith_ask_bind hmissing _).transact hcall _).within _).ensure_bind hcheck).map _

end Operation

/-- The versions of a model after a move. -/
theorem Database.HasMoved.withModel {now : Int} {name : String} {version : Int}
    {stage : VersionStage} {archiveExisting : Bool} {db : Database} {m : ModelRecord}
    (hm : db.models.get? name = some m) (hlive : m.IsLive version)
    (hstage : ¬ Versions.Barred stage archiveExisting) :
    db.HasMoved now name version stage archiveExisting
      (db.withModel name
        ((Operation.transition name version stage archiveExisting).amend now m)) := by
  have hversions (k : Int) :
      (db.withModel name ((Operation.transition name version stage archiveExisting).amend now
        m)).storedVersion? name k =
        (db.storedVersion? name k).map
          (VersionRecord.moved now version stage archiveExisting k) := by
    rw [Database.storedVersion?, Database.storedVersion?, Database.get?_withModel_self, hm]
    exact Table.get?_map _ _ _
  obtain ⟨v, hv, -⟩ := hlive
  refine ⟨hversions, ⟨{ v with stage, lastUpdatedTime := now }, ?_, rfl⟩, ?_, m, _, hm, rfl, rfl⟩
  · rw [hversions, Database.storedVersion?, hm, Option.bind_some, hv, Option.map_some,
      VersionRecord.moved_self]
  · rintro rfl k v' hv' hin
    rw [hversions] at hv'
    obtain ⟨u, -, rfl⟩ := Option.map_eq_some_iff.mp hv'
    have hactive : stage ≠ .archived := by
      rintro rfl
      exact hstage (by decide)
    exact (VersionRecord.stage_moved_iff hactive).mp hin

namespace Operation

variable {call : Call} {db : Database} {name : String} {version : Int} {stage : VersionStage}
  {archiveExisting : Bool} {m : ModelRecord} {v : VersionRecord}

/-- **A version that is there is moved**, and the call answers with it as it is read then. -/
theorem exists_yields_transition (hstage : ¬ Versions.Barred stage archiveExisting)
    (hfound : findVersion? db name version = some (m, v)) (hread : v.IsReadable)
    (hcall : call.Undisturbed) :
    ∃ answer db', (transition name version stage archiveExisting).run.Yields call db
        (.version answer) db' ∧
      (loadVersion name version).run db' = .ok answer ∧
      db.HasMoved call.now name version stage archiveExisting db' := by
  obtain ⟨hm, hv, hlive⟩ := findVersion?_eq_some_iff.mp hfound
  have hcheck := (Versions.checkTransition_eq_ok_iff stage archiveExisting).mpr hstage
  obtain ⟨answer, hload, hleads⟩ := Versions.leads_transition call hm hv hlive hread hcheck
  exact ⟨answer, _, (leads_map _ hleads).2 hcall, hload, .withModel hm ⟨v, hv, hlive⟩ hstage⟩

end Operation

/-- **Moving a version to a stage.** In every database that calls lead to, whatever the name, the
number, the stage and the wish to archive others, a call that nothing disturbs fails with an invalid
parameter exactly if the stage is the mark of a soft deletion, or others are to be archived out of a
stage that is not an active one; else it fails because there is no such version exactly if none is
stored that is not deleted. Else it succeeds, and answers with the version as it can be read from
then on, in the stage. If others were to be archived, the version is alone in the stage. Nothing but
the stage and the time of the last change of the versions that have moved, and the time of the last
change of their model, is changed. -/
theorem transition_moves_version_and_archives_others {db : Database} (hdb : Reachable db)
    (name : String) (version : Int) (stage : VersionStage) (archiveExisting : Bool) {call : Call}
    (hcall : call.Undisturbed) :
    let move := (Operation.transition name version stage archiveExisting).run
    let live := ∃ v, db.storedVersion? name version = some v ∧ v.stage ≠ .deletedInternal
    (move.FailsWith call db .invalidParameterValue ↔ Versions.Barred stage archiveExisting) ∧
    (¬ Versions.Barred stage archiveExisting →
      (move.FailsWith call db .resourceDoesNotExist ↔ ¬ live) ∧
      (live → ∃ answer db', move.Yields call db (.version answer) db' ∧
        answer.version = version ∧ answer.stage = stage ∧
        (Operation.getVersion name version).run.Yields call db' (.version answer) db' ∧
        db.HasMoved call.now name version stage archiveExisting db')) := by
  intro move live
  have hbarred (h : Versions.Barred stage archiveExisting) :
      move.FailsWith call db .invalidParameterValue :=
    Operation.failsWith_transition_of_barred h name version call db
  have hmissing (hstage : ¬ Versions.Barred stage archiveExisting) (hgone : ¬ live) :
      move.FailsWith call db .resourceDoesNotExist := by
    have hnone := Option.not_isSome_iff_eq_none.mp (mt isSome_findVersion?_iff.mp hgone)
    exact Operation.failsWith_transition_of_not_found hstage hnone hcall.unhindered
  have hmoved (hstage : ¬ Versions.Barred stage archiveExisting) (hlive : live) :
      ∃ answer db', move.Yields call db (.version answer) db' ∧
        (loadVersion name version).run db' = .ok answer ∧
        db.HasMoved call.now name version stage archiveExisting db' := by
    obtain ⟨⟨m, v⟩, hfound⟩ :=
      Option.isSome_iff_exists.mp (isSome_findVersion?_iff.mpr hlive)
    obtain ⟨hm, hv, -⟩ := findVersion?_eq_some_iff.mp hfound
    exact Operation.exists_yields_transition hstage hfound
      ((hdb.wellFormed hm).readable version v hv) hcall
  refine ⟨⟨fun h => ?_, hbarred⟩, fun hstage => ⟨⟨fun h hlive => ?_, hmissing hstage⟩, ?_⟩⟩
  · by_contra hstage
    by_cases hlive : live
    · obtain ⟨answer, db', hyields, -⟩ := hmoved hstage hlive
      exact h.not_yields hyields
    · cases h.code_eq (hmissing hstage hlive)
  · obtain ⟨answer, db', hyields, -⟩ := hmoved hstage hlive
    exact h.not_yields hyields
  · intro hlive
    obtain ⟨answer, db', hyields, hload, hmove⟩ := hmoved hstage hlive
    obtain ⟨v, hv, hanswer⟩ := exists_stage_of_loadVersion hload
    obtain ⟨v', hv', harrived⟩ := hmove.arrived
    obtain rfl := Option.some.inj (hv.symm.trans hv')
    have hread := Operation.yields_getVersion.mpr
      ⟨hcall.pulse .entry, hcall.hidden .versions, hload, rfl⟩
    exact ⟨answer, db', hyields, version_of_loadVersion hload, hanswer.trans harrived, hread, hmove⟩

/-- Of four versions of a model the first two are in production, the third is deleted, and the last
one is in no stage. -/
private def crowded : List (Call × Operation) :=
  [(.plain, .createModel "m" none []), (.plain, .createVersion "m" (.ofTags [])),
    (.plain, .createVersion "m" (.ofTags [])), (.plain, .createVersion "m" (.ofTags [])),
    (.plain, .createVersion "m" (.ofTags [])), (.plain, .transition "m" 1 .production false),
    (.plain, .transition "m" 2 .production false), (.plain, .deleteVersion "m" 3)]

/-- The second of them is moved to production, where it is, and the first one has to go. -/
theorem version_is_left_alone_in_its_own_stage :
    let db := (Operation.performAll crowded .empty).2
    Reachable db ∧ (Call.plainAt 5).Undisturbed ∧ ¬ Versions.Barred .production true ∧
      (∃ v, db.storedVersion? "m" 2 = some v ∧ v.stage ≠ .deletedInternal) ∧
      ∃ answer db', (Operation.transition "m" 2 .production true).run.Yields (.plainAt 5) db
          (.version answer) db' ∧
        answer.stage = .production ∧
        [1, 2, 3, 4].map (fun k => (db'.storedVersion? "m" k).map fun v =>
            (v.stage, v.lastUpdatedTime)) =
          [some (.archived, 5), some (.production, 5), some (.deletedInternal, 0),
            some (.none, 0)] := by
  intro db
  have hreachable : Reachable db := ⟨crowded, rfl⟩
  have hcall : (Call.plainAt 5).Undisturbed := ⟨rfl, rfl, fun _ => rfl, rfl, fun _ => rfl⟩
  have hstage : ¬ Versions.Barred .production true := by decide
  have hstored : (db.storedVersion? "m" 2).map VersionRecord.stage = some .production := by
    decide +kernel
  obtain ⟨v, hv, hproduction⟩ := Option.map_eq_some_iff.mp hstored
  have hlive : ∃ v, db.storedVersion? "m" 2 = some v ∧ v.stage ≠ .deletedInternal :=
    ⟨v, hv, by simp [hproduction]⟩
  obtain ⟨-, hmove⟩ :=
    transition_moves_version_and_archives_others hreachable "m" 2 .production true hcall
  obtain ⟨answer, db', hyields, -, hanswer, -, hmoved⟩ := (hmove hstage).2 hlive
  refine ⟨hreachable, hcall, hstage, hlive, answer, db', hyields, hanswer, ?_⟩
  simp only [hmoved.versions]
  decide +kernel

end RunLedger
