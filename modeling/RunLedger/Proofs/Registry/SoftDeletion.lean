import RunLedger.Proofs.Registry.Lineage

/-!
# Soft deletion

A version that is deleted stays stored, redacted, in a stage of its own, and every reader passes it
over. No call finds it, so no call changes it but for the time of its last change, which a rename of
the model notes in all its versions; and no alias can be bound to it again. This lasts for the rest
of the life of its model, whatever names the model is given.

## Main definitions

* `VersionRecord.IsRedacted`: nothing of what a version held is left.
* `ModelRecord.HasDeleted`: a version is stored as a deleted one, and no alias is bound to it.
* `Operation.Addresses`: the calls on one version, and the binding of an alias to it.

## Main results

* `ModelRecord.HasDeleted.amend`: calls on a model keep its deleted versions deleted.
* `Operation.Addresses.failsWith`: calls on a version that is not live fail.
* `deleted_version_is_gone_for_good`: what is left of a deleted version, after any calls.
-/

namespace RunLedger

open Work Registry

/-! ### What is left of a deleted version -/

/-- The version is in the stage of deleted ones, and what it held is redacted. -/
structure VersionRecord.IsRedacted (v : VersionRecord) : Prop where
  stage : v.stage = .deletedInternal
  source : v.source = redactedSource
  runId : v.runId = some redactedRunId
  runLink : v.runLink = some redactedRunLink
  userId : v.userId = none
  description : v.description = none
  statusMessage : v.statusMessage = none

theorem VersionRecord.isRedacted_redacted (v : VersionRecord) (now : Int) :
    (v.redacted now).IsRedacted :=
  ⟨rfl, rfl, rfl, rfl, rfl, rfl, rfl⟩

theorem VersionRecord.Evolves.isRedacted {v v' : VersionRecord} (h : v.Evolves v')
    (hv : v.IsRedacted) : v'.IsRedacted := by
  have hdeleted : v.stage.isDeleted = true := by rw [hv.stage]; rfl
  rw [h.deleted hdeleted]
  exact ⟨hv.stage, hv.source, hv.runId, hv.runLink, hv.userId, hv.description, hv.statusMessage⟩

/-- The version is stored as a deleted one, and no alias is bound to it. -/
structure ModelRecord.HasDeleted (m : ModelRecord) (version : Int) : Prop where
  stored : ∃ v, m.versions.get? version = some v ∧ v.IsRedacted
  unbound : ∀ aliasName, m.aliases.get? aliasName ≠ some version

namespace ModelRecord.HasDeleted

variable {m : ModelRecord} {version : Int}

theorem not_isLive (h : m.HasDeleted version) : ¬ m.IsLive version := by
  intro hlive
  obtain ⟨v, hv, hredacted⟩ := h.stored
  have hstage := hlive.not_isDeleted hv
  rw [hredacted.stage] at hstage
  cases hstage

/-- The deletion of a version leaves it as a deleted one. -/
theorem of_deleteVersion (hlive : m.IsLive version) (name : String) (now : Int) :
    ((Operation.deleteVersion name version).amend now m).HasDeleted version where
  stored := by
    obtain ⟨v, hv, -⟩ := hlive
    exact ⟨v.redacted now, by simp [Operation.amend, hv], v.isRedacted_redacted now⟩
  unbound aliasName := by
    intro hbound
    rcases Operation.of_get?_aliases_amend hbound with ⟨-, hop⟩ | ⟨_, hop⟩
    · exact hop name rfl
    · cases hop

/-- **Calls on a model keep its deleted versions deleted.** -/
theorem amend (h : m.HasDeleted version) {operation : Operation} (haccepts : operation.Accepts m)
    (now : Int) : (operation.amend now m).HasDeleted version where
  stored := by
    obtain ⟨v, hv, hredacted⟩ := h.stored
    obtain ⟨v', hv', hevolves, -⟩ := Operation.exists_evolves_amend haccepts now hv
    exact ⟨v', hv', hevolves.isRedacted hredacted⟩
  unbound aliasName := by
    intro hbound
    rcases Operation.of_get?_aliases_amend hbound with ⟨hbefore, -⟩ | ⟨name, rfl⟩
    · exact h.unbound aliasName hbefore
    · exact h.not_isLive haccepts.2

end ModelRecord.HasDeleted

/-! ### Calls on it -/

/-- The calls on one version, and the binding of an alias to it, with arguments that keep the
rules. -/
inductive Operation.Addresses (name : String) (version : Int) : Operation → Prop
  | getVersion : Addresses name version (.getVersion name version)
  | updateVersion (description : Option String) :
    Addresses name version (.updateVersion name version description)
  | transition {stage : VersionStage} {archiveExisting : Bool}
      (hstage : Versions.checkTransition stage archiveExisting = .ok ()) :
    Addresses name version (.transition name version stage archiveExisting)
  | deleteVersion : Addresses name version (.deleteVersion name version)
  | setVersionTag {key : String} (hkey : Rules.tagKey key = .ok ()) (value : String) :
    Addresses name version (.setVersionTag name version key value)
  | deleteVersionTag {key : String} (hkey : Rules.tagKey key = .ok ()) :
    Addresses name version (.deleteVersionTag name version key)
  | setAlias {aliasName : String} (hname : Rules.aliasName aliasName = .ok ()) :
    Addresses name version (.setAlias name aliasName version)

section Calls

variable {operation : Operation} {call : Call} {db : Database} {name : String} {version : Int}
  {m : ModelRecord}

/-- **Calls on a version that is not live fail**, each at the first statement that reads it. -/
theorem Operation.Addresses.failsWith (h : operation.Addresses name version)
    (hm : db.models.get? name = some m) (hlive : ¬ m.IsLive version) (hcall : call.Unhindered) :
    operation.run.FailsWith call db .resourceDoesNotExist := by
  have hversion {β : Type} (f : ModelRecord × VersionRecord × ModelVersion → Work β) :
      (ask (requireVersion name version) >>= f).FailsWith call db .resourceDoesNotExist :=
    failsWith_ask_bind (run_requireVersion_of_not_isLive hm hlive) f
  have hmodel : (requireModel name).run db = .ok m := requireModel_eq_ok_iff.mpr hm
  cases h with
  | getVersion => exact (failsWith_consult hcall (run_loadVersion_of_not_isLive hm hlive)).map _
  | updateVersion description => exact (((hversion _).transact hcall _).within _).map _
  | transition hstage => exact ((((hversion _).transact hcall _).within _).ensure_bind hstage).map _
  | deleteVersion =>
    exact ((((hversion _).ask_bind hmodel).transact hcall _).within _).map _
  | setVersionTag hkey value => exact (((hversion _).transact hcall _).ensure_bind hkey).map _
  | deleteVersionTag hkey => exact (((hversion _).transact hcall _).ensure_bind hkey).map _
  | setAlias hname =>
    exact ((((hversion _).ask_bind hmodel).transact hcall _).ensure_bind hname).map _

/-! ### Readers that pass it over -/

theorem version_ne_of_loadVersion {v : ModelVersion} {k : Int} (hm : db.models.get? name = some m)
    (hlive : ¬ m.IsLive version) (h : (loadVersion name k).run db = .ok v) :
    v.version ≠ version := by
  rintro rfl
  rw [version_of_loadVersion h] at hlive
  rw [run_loadVersion_of_not_isLive hm hlive] at h
  cases h

theorem version_ne_of_mem_loadLatest {versions : List ModelVersion} (hlive : ¬ m.IsLive version)
    (h : (loadLatest name m).run db = .ok versions) : ∀ v ∈ versions, v.version ≠ version := by
  rintro v hv rfl
  obtain ⟨record, -, hmem, -⟩ := (mem_loadLatest_iff h).mp hv
  obtain ⟨hrecord, hstage, -⟩ := ModelRecord.mem_latestVersions.mp hmem
  exact hlive ⟨record, hrecord, hstage⟩

end Calls

/-- **A deleted version is gone for good.** Once a version is deleted, whatever calls are made, as
long as none of them deletes its model and whatever names the model is given: every call on the
version, or that binds an alias to it, fails because there is no such version; no list of the
highest versions has it, no alias of the model is bound to it or answers with it; and it is stored,
redacted. -/
theorem deleted_version_is_gone_for_good {call : Call} {db db₁ : Database} {answer : Answer}
    {name : String} {version : Int}
    (hdelete : (Operation.deleteVersion name version).run.Yields call db answer db₁)
    {steps : List (Call × Operation)} {name' : String}
    (hname : Operation.follow? steps db₁ name = some name') :
    let db₂ := (Operation.performAll steps db₁).2
    (∀ operation : Operation, operation.Addresses name' version → ∀ call : Call, call.Unhindered →
      operation.run.FailsWith call db₂ .resourceDoesNotExist) ∧
    (∀ stages call versions db₃,
      (Operation.latestVersions name' stages).run.Yields call db₂ (.versions versions) db₃ →
      ∀ v ∈ versions, v.version ≠ version) ∧
    (∀ call model db₃, (Operation.getModel name').run.Yields call db₂ (.model model) db₃ →
      (∀ v ∈ model.latestVersions, v.version ≠ version) ∧
      ∀ binding ∈ model.aliases, binding.version ≠ version) ∧
    (∀ aliasName call v db₃,
      (Operation.getByAlias name' aliasName).run.Yields call db₂ (.version v) db₃ →
      v.version ≠ version) ∧
    ∃ m v, db₂.models.get? name' = some m ∧ m.versions.get? version = some v ∧ v.IsRedacted := by
  obtain ⟨_, hcall, -⟩ := (yields_map _ _).mp hdelete
  obtain ⟨m₀, -, hlive₀, rfl⟩ := Versions.delete_inversion hcall
  obtain ⟨m, hm, hdeleted⟩ := Operation.follow?_invariant
    (fun operation now m haccepts h => ModelRecord.HasDeleted.amend h haccepts now) steps
    (Database.get?_withModel_self _ _ _) (.of_deleteVersion hlive₀ name call.now) hname
  have hlive := hdeleted.not_isLive
  have hsame {u : ModelRecord} (hu : (Operation.performAll steps _).2.models.get? name' = some u) :
      u = m := Option.some.inj (hu.symm.trans hm)
  refine ⟨fun operation hop call hunhindered => hop.failsWith hm hlive hunhindered, ?_, ?_, ?_, ?_⟩
  · intro stages call versions db₃ h v hv
    obtain ⟨-, -, hlatest, -⟩ := Operation.yields_latestVersions.mp h
    obtain ⟨u, all, hu, hall, rfl⟩ := Versions.latestIn_eq_ok_iff.mp hlatest
    obtain rfl := hsame hu
    exact version_ne_of_mem_loadLatest hlive hall v (List.mem_of_mem_filter hv)
  · intro call model db₃ h
    obtain ⟨-, -, hload, -⟩ := Operation.yields_getModel.mp h
    obtain ⟨u, versions, hu, hversions, rfl⟩ := loadModel_eq_ok_iff.mp hload
    obtain rfl := hsame hu
    refine ⟨version_ne_of_mem_loadLatest hlive hversions, ?_⟩
    rintro ⟨aliasName, k⟩ hbinding rfl
    exact hdeleted.unbound aliasName (ModelRecord.mem_aliasBindings.mp hbinding)
  · intro aliasName call v db₃ h
    obtain ⟨-, -, -, hresolve, -⟩ := Operation.yields_getByAlias.mp h
    obtain ⟨-, k, -, -, hload⟩ := Aliases.resolve_eq_ok_iff.mp hresolve
    exact version_ne_of_loadVersion hm hlive hload
  · obtain ⟨v, hv, hredacted⟩ := hdeleted.stored
    exact ⟨m, v, hm, hv, hredacted⟩

/-- A model is renamed, and another one of its former name gets a version. -/
private def renamedAndReplaced : List (Call × Operation) :=
  [(.plain, .renameModel "m" "n"), (.plain, .createModel "m" none []),
    (.plain, .createVersion "m" (.ofTags []))]

/-- A deleted version is not found under the new name of its model, while the version of another
model under the old name is. -/
theorem deleted_version_is_gone_under_new_name :
    ∃ db₁, (Operation.deleteVersion "m" 1).run.Yields .plain .oneVersion .nothing db₁ ∧
      Operation.follow? renamedAndReplaced db₁ "m" = some "n" ∧
      (Operation.getVersion "n" 1).run.FailsWith .plain
        (Operation.performAll renamedAndReplaced db₁).2 .resourceDoesNotExist ∧
      ((Operation.getVersion "m" 1).run.perform .plain
        (Operation.performAll renamedAndReplaced db₁).2).1 = .ok (.version (.ofTags "m" 1 [])) := by
  let deleted := (Operation.deleteVersion "m" 1).run.perform .plain .oneVersion
  have hdeleted : deleted.1 = .ok .nothing := by decide +kernel
  have hname : Operation.follow? renamedAndReplaced deleted.2 "m" = some "n" := by decide +kernel
  obtain ⟨hfails, -⟩ := deleted_version_is_gone_for_good (Prod.ext hdeleted rfl) hname
  exact ⟨deleted.2, Prod.ext hdeleted rfl, hname,
    hfails _ .getVersion .plain Call.plain_undisturbed.unhindered, by decide +kernel⟩

end RunLedger
