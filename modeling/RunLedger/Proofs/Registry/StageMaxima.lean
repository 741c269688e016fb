import Mathlib.Data.Int.LeastGreatest
import RunLedger.Proofs.Registry.WellFormed

/-!
# The highest version of each stage

The list of the highest versions is found in two steps: for each stored version it is asked whether
a higher one is in its stage, and of those that are left the ones in other stages than those asked
for are dropped. Deleted versions have a stage of their own, so the first step never measures
another version by them. What comes of it is one version for each stage that is asked for and not
empty, in the order of their numbers.

## Main definitions

* `ModelRecord.IsHighestOf`: a version is the highest one of a stage.

## Main results

* `ModelRecord.exists_isHighestOf`, `ModelRecord.IsHighestOf.eq`: a stage that is not empty has one
  highest version.
* `Registry.pairwise_loadLatest`, `Registry.exists_mem_filter_loadLatest_of_stage_iff`: the versions
  that are listed, and their order.
* `highest_version_of_each_stage_is_listed`: the list for some stages.
-/

namespace RunLedger

open Work Registry

/-- Whether a version is stored in the stage under the number, and none with a higher one. -/
def ModelRecord.IsHighestOf (m : ModelRecord) (stage : VersionStage) (k : Int) : Prop :=
  (∃ v, m.versions.get? k = some v ∧ v.stage = stage) ∧
    ∀ w u, m.versions.get? w = some u → u.stage = stage → w ≤ k

namespace ModelRecord

variable {m : ModelRecord} {stage : VersionStage} {k l : Int} {v : VersionRecord}

/-- A stage has no two highest versions. -/
theorem IsHighestOf.eq (hk : m.IsHighestOf stage k) (hl : m.IsHighestOf stage l) : k = l := by
  obtain ⟨⟨v, hv, hvstage⟩, hkmax⟩ := hk
  obtain ⟨⟨u, hu, hustage⟩, hlmax⟩ := hl
  exact le_antisymm (hlmax k v hv hvstage) (hkmax l u hu hustage)

/-- A stage that some version is in has a highest one, since no number is above all numbers. -/
theorem exists_isHighestOf (hv : m.versions.get? k = some v) :
    ∃ l, m.IsHighestOf v.stage l ∧ k ≤ l := by
  let inStage (w : Int) : Prop := ∃ u, m.versions.get? w = some u ∧ u.stage = v.stage
  have hbounded : ∃ b, ∀ w, inStage w → w ≤ b := by
    refine ⟨Versions.nextNumber m, ?_⟩
    rintro w ⟨u, hu, -⟩
    exact Int.le_of_lt (Versions.lt_nextNumber (Table.mem_keys_iff.mpr ⟨u, hu⟩))
  obtain ⟨l, hl, hmax⟩ := Int.exists_greatest_of_bdd hbounded ⟨k, v, hv, rfl⟩
  exact ⟨l, ⟨hl, fun w u hu hstage => hmax w ⟨u, hu, hstage⟩⟩, hmax k ⟨v, hv, rfl⟩⟩

/-- The versions that are looked for are the highest ones of the stages but that of deleted ones. -/
theorem exists_mem_latestVersions_iff :
    (∃ v, (k, v) ∈ m.latestVersions.entries ∧ v.stage = stage) ↔
      stage ≠ .deletedInternal ∧ m.IsHighestOf stage k := by
  simp only [mem_latestVersions, isHighest_iff, VersionStage.isDeleted, beq_eq_false_iff_ne]
  constructor
  · rintro ⟨v, ⟨hv, hlive, hmax⟩, rfl⟩
    exact ⟨hlive, ⟨v, hv, rfl⟩, hmax⟩
  · rintro ⟨hlive, ⟨v, hv, rfl⟩, hmax⟩
    exact ⟨v, ⟨hv, hlive, hmax⟩, rfl⟩

end ModelRecord

namespace Registry

variable {db : Database} {name : String} {m : ModelRecord} {versions : List ModelVersion}

/-- The versions that are listed, by number and stage. -/
theorem map_loadLatest (h : (loadLatest name m).run db = .ok versions) :
    (versions.map fun v => (v.version, v.stage)) =
      m.latestVersions.entries.map fun (k, v) => (k, v.stage) := by
  have hsame : List.Forall₂ (fun (entry : Int × VersionRecord) (listed : ModelVersion) =>
      (listed.version, listed.stage) = (entry.1, entry.2.stage))
      m.latestVersions.entries versions := by
    refine (Query.mapM_eq_ok_iff.mp h).imp fun entry listed hread => ?_
    obtain ⟨entity, hentity, hlisted⟩ := Query.bind_eq_ok_iff.mp hread
    obtain rfl := Except.ok.inj hlisted
    rw [decode_eq_ok_iff] at hentity
    have hversion : entity.version = entry.1 := VersionRecord.version_of_entity? hentity
    have hstage : entity.stage = entry.2.stage := VersionRecord.stage_of_entity? hentity
    exact congrArg₂ Prod.mk hversion hstage
  rw [← List.forall₂_eq_eq_eq, List.forall₂_map_left_iff, List.forall₂_map_right_iff]
  exact hsame.flip

/-- They are listed in the order of their numbers. -/
theorem pairwise_loadLatest (h : (loadLatest name m).run db = .ok versions) :
    versions.Pairwise fun v w => v.version < w.version := by
  have hkeys : versions.map ModelVersion.version = m.latestVersions.keys := by
    have hfst := congrArg (List.map Prod.fst) (map_loadLatest h)
    rw [List.map_map, List.map_map] at hfst
    exact hfst
  have hincreasing : m.latestVersions.keys.Pairwise (· < ·) := by
    rw [Table.keys, List.pairwise_map]
    exact m.latestVersions.increasing.imp fun hab => Std.compare_eq_lt.mp hab
  rw [← hkeys, List.pairwise_map] at hincreasing
  exact hincreasing

/-- **The versions that are listed for some stages**, or for all of them if none is given, are the
highest ones of these stages, but for the stage of deleted versions. -/
theorem exists_mem_filter_loadLatest_of_stage_iff {stage : VersionStage} {k : Int}
    (h : (loadLatest name m).run db = .ok versions) (stages : List VersionStage) :
    (∃ listed ∈ versions.filter fun v => stages.isEmpty || stages.contains v.stage,
        listed.version = k ∧ listed.stage = stage) ↔
      stage ≠ .deletedInternal ∧ (stages = [] ∨ stage ∈ stages) ∧ m.IsHighestOf stage k := by
  have hall : (∃ listed ∈ versions, listed.version = k ∧ listed.stage = stage) ↔
      stage ≠ .deletedInternal ∧ m.IsHighestOf stage k := by
    calc (∃ listed ∈ versions, listed.version = k ∧ listed.stage = stage)
        ↔ (k, stage) ∈ versions.map fun v => (v.version, v.stage) := by
          simp only [List.mem_map, Prod.mk.injEq]
      _ ↔ ∃ v, (k, v) ∈ m.latestVersions.entries ∧ v.stage = stage := by
          simp [map_loadLatest h]
      _ ↔ stage ≠ .deletedInternal ∧ m.IsHighestOf stage k :=
          ModelRecord.exists_mem_latestVersions_iff
  simp only [List.mem_filter, Bool.or_eq_true, List.isEmpty_iff, List.contains_iff_mem]
  constructor
  · rintro ⟨listed, ⟨hlisted, hstages⟩, hk, rfl⟩
    obtain ⟨hlive, hhighest⟩ := hall.mp ⟨listed, hlisted, hk, rfl⟩
    exact ⟨hlive, hstages, hhighest⟩
  · rintro ⟨hlive, hstages, hhighest⟩
    obtain ⟨listed, hlisted, hk, rfl⟩ := hall.mpr ⟨hlive, hhighest⟩
    exact ⟨listed, ⟨hlisted, hstages⟩, hk, rfl⟩

end Registry

/-- **The highest version of each stage is listed.** In every database that calls lead to, for every
registered model and whatever stages are given: the versions of the list are in strictly increasing
order of their numbers, and a version is in it, in some stage, exactly if it is not deleted, its
stage is among those given, or none is given, and no version of the model with a higher number is in
its stage. So there is at most one for each stage, and every version that is not deleted and in one
of the stages has a version of its stage in the list, itself or a higher one, whichever versions are
deleted. The list that comes with the model is the one for no given stages. -/
theorem highest_version_of_each_stage_is_listed {db : Database} (hdb : Reachable db) {name : String}
    {m : ModelRecord} (hm : db.models.get? name = some m) (stages : List VersionStage) {call : Call}
    (hcall : call.Unhindered) :
    (∃ versions, (Operation.latestVersions name stages).run.Yields call db (.versions versions) db ∧
      (versions.Pairwise fun v w => v.version < w.version) ∧
      (∀ k stage, (∃ listed ∈ versions, listed.version = k ∧ listed.stage = stage) ↔
        stage ≠ .deletedInternal ∧ (stages = [] ∨ stage ∈ stages) ∧ m.IsHighestOf stage k) ∧
      (versions.map ModelVersion.stage).Nodup ∧
      ∀ k v, m.versions.get? k = some v → v.stage ≠ .deletedInternal →
        (stages = [] ∨ v.stage ∈ stages) →
        ∃ listed ∈ versions, listed.stage = v.stage ∧ k ≤ listed.version) ∧
    ∃ model, (Operation.getModel name).run.Yields call db (.model model) db ∧
      (Operation.latestVersions name []).run.Yields call db
        (.versions model.latestVersions) db := by
  have hwell : m.WellFormed := hdb.wellFormed hm
  obtain ⟨model, hmodel, hversions, -⟩ := hwell.exists_yields_getModel hm hcall
  have hyields (stages : List VersionStage) :
      (Operation.latestVersions name stages).run.Yields call db
        (.versions (model.latestVersions.filter fun v =>
          stages.isEmpty || stages.contains v.stage)) db :=
    Operation.yields_latestVersions.mpr ⟨hcall.entry, hcall.hidden .models,
      Versions.latestIn_eq_ok_iff.mpr ⟨m, model.latestVersions, hm, hversions, rfl⟩, rfl⟩
  have hlisted (k : Int) (stage : VersionStage) :
      (∃ listed ∈ model.latestVersions.filter fun v => stages.isEmpty || stages.contains v.stage,
        listed.version = k ∧ listed.stage = stage) ↔
      stage ≠ .deletedInternal ∧ (stages = [] ∨ stage ∈ stages) ∧ m.IsHighestOf stage k :=
    exists_mem_filter_loadLatest_of_stage_iff hversions stages
  have hincreasing := (pairwise_loadLatest hversions).filter
    fun v => stages.isEmpty || stages.contains v.stage
  refine ⟨⟨_, hyields stages, hincreasing, hlisted, ?_, fun k v hv hlive hstages => ?_⟩,
    model, hmodel, ?_⟩
  · -- Two versions of one stage would both be its highest one, so their numbers would not differ.
    rw [List.Nodup, List.pairwise_map]
    refine hincreasing.imp_of_mem fun {v w} hv hw hlt hsame => ?_
    have hvmax := ((hlisted v.version v.stage).mp ⟨v, hv, rfl, rfl⟩).2.2
    have hwmax := ((hlisted w.version v.stage).mp ⟨w, hw, rfl, hsame.symm⟩).2.2
    exact hlt.ne (hvmax.eq hwmax)
  · obtain ⟨l, hl, hle⟩ := ModelRecord.exists_isHighestOf hv
    obtain ⟨listed, hmem, rfl, hstage⟩ := (hlisted l v.stage).mpr ⟨hlive, hstages, hl⟩
    exact ⟨listed, hmem, hstage, hle⟩
  · simpa using hyields []

/-- Of five versions the first three are in staging and the other two in no stage; the third and the
fifth are deleted. -/
private def withDeletions : List (Call × Operation) :=
  [(.plain, .createModel "m" none []), (.plain, .createVersion "m" (.ofTags [])),
    (.plain, .createVersion "m" (.ofTags [])), (.plain, .createVersion "m" (.ofTags [])),
    (.plain, .createVersion "m" (.ofTags [])), (.plain, .createVersion "m" (.ofTags [])),
    (.plain, .transition "m" 1 .staging false), (.plain, .transition "m" 2 .staging false),
    (.plain, .transition "m" 3 .staging false), (.plain, .deleteVersion "m" 3),
    (.plain, .deleteVersion "m" 5)]

/-- The deleted versions hide neither the second nor the fourth one. -/
theorem deleted_versions_hide_no_others :
    let db := (Operation.performAll withDeletions .empty).2
    Reachable db ∧ (∃ m, db.models.get? "m" = some m) ∧ Call.plain.Unhindered ∧
      ∃ versions, (Operation.latestVersions "m" []).run.Yields .plain db (.versions versions) db ∧
        (versions.map fun v => (v.version, v.stage)) = [(2, .staging), (4, .none)] ∧
        (versions.map ModelVersion.stage).Nodup := by
  intro db
  have hreachable : Reachable db := ⟨withDeletions, rfl⟩
  obtain ⟨m, hm⟩ : ∃ m, db.models.get? "m" = some m :=
    Option.isSome_iff_exists.mp (by decide +kernel)
  have hcall := Call.plain_undisturbed.unhindered
  obtain ⟨⟨versions, hversions, -, -, hnodup, -⟩, -⟩ :=
    highest_version_of_each_stage_is_listed hreachable hm [] hcall
  have hanswer : ((Operation.latestVersions "m" []).run.perform .plain db).1 =
      .ok (.versions [{ ModelVersion.ofTags "m" 2 [] with stage := .staging },
        .ofTags "m" 4 []]) := by decide +kernel
  obtain rfl :=
    Answer.versions.inj (Except.ok.inj ((congrArg Prod.fst hversions).symm.trans hanswer))
  exact ⟨hreachable, ⟨m, hm⟩, hcall, _, hversions, rfl, hnodup⟩

end RunLedger
