import RunLedger.Proofs.Registry.WellFormed

/-!
# Versions in lists and by number

A version is answered by its number, and it is listed among the highest versions of their stages.
The two answers are put together apart from each other: both start from the stored version and
attach its aliases, but only the one by number attaches its tags. So they agree in everything else,
whatever has become of the stages, the aliases and the name of the model, and a version with tags
is listed without them.

## Main definitions

* `ModelRecord.IsHighestIn`: which versions are listed.

## Main results

* `Registry.exists_mem_filter_loadLatest_iff`: those are the ones that are listed.
* `Registry.exists_yields_getVersion_of_mem`: a listed version can be read by its number.
* `listed_versions_agree_but_for_tags`: the two answers, in every reachable database.
* `not_listed_versions_carry_tags`: they differ if the version has tags.
-/

namespace RunLedger

open Work Registry

/-- Whether the version is not deleted, is in one of the stages, or in any if none is given, and no
version with a higher number is in its stage. -/
def ModelRecord.IsHighestIn (m : ModelRecord) (stages : List VersionStage) (version : Int) : Prop :=
  ∃ v, m.versions.get? version = some v ∧ v.stage.isDeleted = false ∧
    (stages = [] ∨ v.stage ∈ stages) ∧
    ∀ w u, m.versions.get? w = some u → u.stage = v.stage → w ≤ version

namespace Registry

variable {db : Database} {name : String} {m : ModelRecord} {versions : List ModelVersion}

/-- The highest versions of their stages are listed, and no others. -/
theorem exists_mem_filter_loadLatest_iff (stages : List VersionStage) (version : Int)
    (hreadable : ∀ k v, m.versions.get? k = some v → v.IsReadable)
    (h : (loadLatest name m).run db = .ok versions) :
    (∃ listed ∈ versions.filter fun v => stages.isEmpty || stages.contains v.stage,
      listed.version = version) ↔ m.IsHighestIn stages version := by
  simp only [List.mem_filter, mem_loadLatest_iff h, Bool.or_eq_true, List.isEmpty_iff,
    List.contains_iff_mem]
  constructor
  · rintro ⟨listed, ⟨⟨v, entity, hmem, hentity, heq⟩, hstages⟩, rfl⟩
    obtain ⟨hv, hlive, hhighest⟩ := ModelRecord.mem_latestVersions.mp hmem
    have hread : entity.stage = v.stage := VersionRecord.stage_of_entity? hentity
    have hstage : listed.stage = v.stage := (congrArg ModelVersion.stage heq).trans hread
    exact ⟨v, hv, hlive, hstage ▸ hstages, ModelRecord.isHighest_iff.mp hhighest⟩
  · rintro ⟨v, hv, hlive, hstages, hhighest⟩
    have hmem := ModelRecord.mem_latestVersions.mpr
      ⟨hv, hlive, ModelRecord.isHighest_iff.mpr hhighest⟩
    obtain ⟨entity, hentity⟩ :=
      VersionRecord.exists_entity? (hreadable version v hv) name version
    obtain rfl : entity.version = version := VersionRecord.version_of_entity? hentity
    refine ⟨{ entity with aliases := m.aliasesOf entity.version },
      ⟨⟨v, entity, hmem, hentity, rfl⟩, ?_⟩, rfl⟩
    rwa [← VersionRecord.stage_of_entity? hentity] at hstages

/-- A listed version can be read by its number, and is listed as it is read, but without tags. -/
theorem exists_yields_getVersion_of_mem (hm : db.models.get? name = some m)
    (h : (loadLatest name m).run db = .ok versions) {listed : ModelVersion}
    (hlisted : listed ∈ versions) {call : Call} (hcall : call.Unhindered) :
    ∃ v, (Operation.getVersion name listed.version).run.Yields call db (.version v) db ∧
      listed = { v with tags := [] } := by
  obtain ⟨record, entity, hmem, hentity, heq⟩ := (mem_loadLatest_iff h).mp hlisted
  obtain ⟨hrecord, hstage, -⟩ := ModelRecord.mem_latestVersions.mp hmem
  have hload := loadVersion_eq_ok_iff.mpr
    ⟨m, record, entity, findVersion?_eq_some_iff.mpr ⟨hm, hrecord, hstage⟩, hentity, rfl⟩
  refine ⟨_, Operation.yields_getVersion.mpr
    ⟨hcall.entry, hcall.hidden .versions, hload, rfl⟩, ?_⟩
  have htags : entity.tags = [] := VersionRecord.tags_of_entity? hentity
  rw [← htags]
  exact heq

end Registry

/-- **Listed versions agree with versions by number, but for tags.** In every database that calls
lead to, for every registered model: the model can be read, and its versions in any stages can be
listed. Either answer has the highest version of each stage, deleted ones left out, and each version
in it is the one that reading it by its number answers with, in all its fields but the tags, which
are missing. -/
theorem listed_versions_agree_but_for_tags {db : Database} (hdb : Reachable db) {name : String}
    {m : ModelRecord} (hm : db.models.get? name = some m) {call call' : Call}
    (hcall : call.Unhindered) (hcall' : call'.Unhindered) :
    (∀ stages, ∃ versions,
      (Operation.latestVersions name stages).run.Yields call db (.versions versions) db ∧
      (∀ k, (∃ listed ∈ versions, listed.version = k) ↔ m.IsHighestIn stages k) ∧
      ∀ listed ∈ versions, ∃ v,
        (Operation.getVersion name listed.version).run.Yields call' db (.version v) db ∧
        listed = { v with tags := [] }) ∧
    ∃ model, (Operation.getModel name).run.Yields call db (.model model) db ∧
      (∀ k, (∃ listed ∈ model.latestVersions, listed.version = k) ↔ m.IsHighestIn [] k) ∧
      ∀ listed ∈ model.latestVersions, ∃ v,
        (Operation.getVersion name listed.version).run.Yields call' db (.version v) db ∧
        listed = { v with tags := [] } := by
  have hwell : m.WellFormed := hdb.wellFormed hm
  obtain ⟨model, hmodel, hversions, -⟩ := hwell.exists_yields_getModel hm hcall
  have hagree {listed : ModelVersion} (hlisted : listed ∈ model.latestVersions) :=
    exists_yields_getVersion_of_mem hm hversions hlisted hcall'
  have hhighest (stages : List VersionStage) (k : Int) :=
    exists_mem_filter_loadLatest_iff stages k hwell.readable hversions
  refine ⟨fun stages => ?_, model, hmodel, fun k => ?_, fun listed => hagree⟩
  · have hlatest : (Versions.latestIn name stages).run db = .ok _ :=
      Versions.latestIn_eq_ok_iff.mpr ⟨m, model.latestVersions, hm, hversions, rfl⟩
    refine ⟨_, Operation.yields_latestVersions.mpr
      ⟨hcall.entry, hcall.hidden .models, hlatest, rfl⟩, hhighest stages, fun listed hlisted => ?_⟩
    exact hagree (List.mem_of_mem_filter hlisted)
  · simpa using hhighest [] k

/-! ### A version with a tag -/

/-- A database with one model, which has one version with a tag. -/
private def taggedVersion : Database :=
  (Operation.performAll [(.plain, .createModel "m" none []),
    (.plain, .createVersion "m" (.ofTags [⟨"k", "v"⟩]))] .empty).2

private theorem reachable_taggedVersion : Reachable taggedVersion := ⟨_, rfl⟩

private theorem latestVersions_taggedVersion :
    ((Operation.latestVersions "m" []).run.perform .plain taggedVersion).1 =
      .ok (.versions [.ofTags "m" 1 []]) := by decide +kernel

/-- Its model, as it is read. -/
private def taggedModel : RegisteredModel where
  name := "m"
  creationTime := 0
  lastUpdatedTime := 1
  description := none
  tags := []
  aliases := []
  latestVersions := [.ofTags "m" 1 []]

private theorem getModel_taggedVersion :
    ((Operation.getModel "m").run.perform .plain taggedVersion).1 = .ok (.model taggedModel) := by
  decide +kernel

private theorem not_getVersion_taggedVersion :
    ¬ (Operation.getVersion "m" 1).run.Yields .plain taggedVersion
      (.version (.ofTags "m" 1 [])) taggedVersion := by
  intro h
  have hread : ((Operation.getVersion "m" 1).run.perform .plain taggedVersion).1 =
      .ok (.version (.ofTags "m" 1 [⟨"k", "v"⟩])) := by decide +kernel
  have hsame := Answer.version.inj (Except.ok.inj ((congrArg Prod.fst h).symm.trans hread))
  cases congrArg ModelVersion.tags hsame

/-- The version is listed without its tag. -/
theorem tagged_version_is_listed_without_tag :
    Reachable taggedVersion ∧ ∃ versions,
      (Operation.latestVersions "m" []).run.Yields .plain taggedVersion (.versions versions)
        taggedVersion ∧
      versions = [.ofTags "m" 1 []] ∧
      ∀ listed ∈ versions, ∃ v,
        (Operation.getVersion "m" listed.version).run.Yields .plain taggedVersion (.version v)
          taggedVersion ∧
        listed = { v with tags := [] } := by
  have hcall := Call.plain_undisturbed.unhindered
  obtain ⟨m, hm⟩ : ∃ m, taggedVersion.models.get? "m" = some m :=
    Option.isSome_iff_exists.mp (by decide +kernel)
  obtain ⟨hlists, -⟩ := listed_versions_agree_but_for_tags reachable_taggedVersion hm hcall hcall
  obtain ⟨versions, hversions, -, hlisted⟩ := hlists []
  have hanswer := (congrArg Prod.fst hversions).symm.trans latestVersions_taggedVersion
  exact ⟨reachable_taggedVersion, versions, hversions, Answer.versions.inj (Except.ok.inj hanswer),
    hlisted⟩

/-- **Listed versions do not always carry their tags**, neither in the list of the highest versions
nor in the model. -/
theorem not_listed_versions_carry_tags :
    (¬ ∀ db, Reachable db → ∀ name stages versions db',
      (Operation.latestVersions name stages).run.Yields .plain db (.versions versions) db' →
      ∀ listed ∈ versions,
        (Operation.getVersion name listed.version).run.Yields .plain db (.version listed) db) ∧
    ¬ ∀ db, Reachable db → ∀ name model db',
      (Operation.getModel name).run.Yields .plain db (.model model) db' →
      ∀ listed ∈ model.latestVersions,
        (Operation.getVersion name listed.version).run.Yields .plain db (.version listed) db := by
  constructor
  · intro hagree
    have hread := hagree taggedVersion reachable_taggedVersion "m" [] [.ofTags "m" 1 []] _
      (Prod.ext latestVersions_taggedVersion rfl) (.ofTags "m" 1 []) (by simp)
    exact not_getVersion_taggedVersion hread
  · intro hagree
    have hread := hagree taggedVersion reachable_taggedVersion "m" taggedModel _
      (Prod.ext getModel_taggedVersion rfl) (.ofTags "m" 1 []) (by simp [taggedModel])
    exact not_getVersion_taggedVersion hread

end RunLedger
