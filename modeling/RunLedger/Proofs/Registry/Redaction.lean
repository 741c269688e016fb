import RunLedger.Proofs.Registry.WellFormed
import RunLedger.Proofs.Trace

/-!
# What the deletion of a version forgets

A deleted version keeps its number, the time of its creation, its status and its tags. Everything
else that was stored for it is overwritten, and the aliases bound to it go. So two databases that
differ only in that are one and the same after the deletion, and nothing can tell afterwards from
which of the two it came.

## Main definitions

* `VersionRecord.SameKept`, `ModelRecord.SameBut`, `Database.SameBut`: nothing tells two versions,
  models or databases apart but what the deletion of a version forgets.

## Main results

* `VersionRecord.redacted_eq_redacted_iff`: what the redaction of a version depends on.
* `Database.SameBut.withModel_amend`: the deletion of the version makes the databases equal.
* `redaction_leaves_no_trace`: so do the calls that delete it, and later calls answer alike.
-/

namespace RunLedger

open Work

/-! ### Databases that differ in one version -/

/-- Two versions, neither of them deleted, that agree in what a deletion keeps. -/
structure VersionRecord.SameKept (v v' : VersionRecord) : Prop where
  live : v.stage.isDeleted = false
  live' : v'.stage.isDeleted = false
  creationTime : v'.creationTime = v.creationTime
  status : v'.status = v.status
  tags : v'.tags = v.tags

/-- Two models that differ at most in what is stored for one version of theirs, apart from what a
deletion keeps, and in the aliases that are bound to it. -/
structure ModelRecord.SameBut (version : Int) (m m' : ModelRecord) : Prop where
  creationTime : m'.creationTime = m.creationTime
  lastUpdatedTime : m'.lastUpdatedTime = m.lastUpdatedTime
  description : m'.description = m.description
  tags : m'.tags = m.tags
  stored : ∃ v ∈ m.versions.get? version, ∃ v' ∈ m'.versions.get? version, v.SameKept v'
  otherVersions : m'.versions.erase version = m.versions.erase version
  otherAliases : (m'.aliases.filter fun _ bound => bound != version) =
    m.aliases.filter fun _ bound => bound != version

/-- Two databases that differ at most in what is stored for one version of one model, apart from
what a deletion keeps, and in the aliases that are bound to it. -/
structure Database.SameBut (name : String) (version : Int) (db db' : Database) : Prop where
  stored : ∃ m ∈ db.models.get? name, ∃ m' ∈ db'.models.get? name, m.SameBut version m'
  rest : db'.withoutModel name = db.withoutModel name

instance (v v' : VersionRecord) : Decidable (v.SameKept v') :=
  decidable_of_iff (v.stage.isDeleted = false ∧ v'.stage.isDeleted = false ∧
      v'.creationTime = v.creationTime ∧ v'.status = v.status ∧ v'.tags = v.tags)
    ⟨fun ⟨hlive, hlive', hcreated, hstatus, htags⟩ => ⟨hlive, hlive', hcreated, hstatus, htags⟩,
      fun ⟨hlive, hlive', hcreated, hstatus, htags⟩ => ⟨hlive, hlive', hcreated, hstatus, htags⟩⟩

instance (version : Int) (m m' : ModelRecord) : Decidable (m.SameBut version m') :=
  decidable_of_iff (m'.creationTime = m.creationTime ∧ m'.lastUpdatedTime = m.lastUpdatedTime ∧
      m'.description = m.description ∧ m'.tags = m.tags ∧
      (∃ v ∈ m.versions.get? version, ∃ v' ∈ m'.versions.get? version, v.SameKept v') ∧
      m'.versions.erase version = m.versions.erase version ∧
      (m'.aliases.filter fun _ bound => bound != version) =
        m.aliases.filter fun _ bound => bound != version)
    ⟨fun ⟨hcreated, hchanged, htext, htags, hstored, hversions, haliases⟩ =>
      ⟨hcreated, hchanged, htext, htags, hstored, hversions, haliases⟩,
      fun ⟨hcreated, hchanged, htext, htags, hstored, hversions, haliases⟩ =>
      ⟨hcreated, hchanged, htext, htags, hstored, hversions, haliases⟩⟩

instance (name : String) (version : Int) (db db' : Database) :
    Decidable (db.SameBut name version db') :=
  decidable_of_iff ((∃ m ∈ db.models.get? name, ∃ m' ∈ db'.models.get? name,
      m.SameBut version m') ∧ db'.withoutModel name = db.withoutModel name)
    ⟨fun ⟨hstored, hrest⟩ => ⟨hstored, hrest⟩, fun ⟨hstored, hrest⟩ => ⟨hstored, hrest⟩⟩

/-! ### What a deletion makes of them -/

/-- **The redaction of a version depends on what it keeps alone.** -/
theorem VersionRecord.redacted_eq_redacted_iff (v v' : VersionRecord) (now : Int) :
    v'.redacted now = v.redacted now ↔
      v'.creationTime = v.creationTime ∧ v'.status = v.status ∧ v'.tags = v.tags := by
  simp [redacted]

namespace ModelRecord.SameBut

variable {version : Int} {m m' : ModelRecord} (h : m.SameBut version m')

include h

theorem versions_redacted (now : Int) :
    (m'.versions.update version fun v => v.redacted now) =
      m.versions.update version fun v => v.redacted now := by
  obtain ⟨v, hv, v', hv', hkept⟩ := h.stored
  have hredacted := (VersionRecord.redacted_eq_redacted_iff v v' now).mpr
    ⟨hkept.creationTime, hkept.status, hkept.tags⟩
  rw [Table.update_of_get? hv, Table.update_of_get? hv', hredacted, ← Table.insert_erase,
    h.otherVersions, Table.insert_erase]

/-- The deletion of the version makes the models equal. -/
theorem amend (name : String) (now : Int) :
    (Operation.deleteVersion name version).amend now m' =
      (Operation.deleteVersion name version).amend now m := by
  simp only [Operation.amend, touched, h.creationTime, h.lastUpdatedTime, h.description, h.tags,
    h.otherAliases, h.versions_redacted]

end ModelRecord.SameBut

/-- **The deletion of the version makes the databases equal.** -/
theorem Database.SameBut.withModel_amend {name : String} {version : Int} {db db' : Database}
    (h : db.SameBut name version db') {m m' : ModelRecord} (hm : db.models.get? name = some m)
    (hm' : db'.models.get? name = some m') (now : Int) :
    db'.withModel name ((Operation.deleteVersion name version).amend now m') =
      db.withModel name ((Operation.deleteVersion name version).amend now m) := by
  obtain ⟨u, hu, u', hu', hsame⟩ := h.stored
  obtain rfl := Option.some.inj (hm.symm.trans hu)
  obtain rfl := Option.some.inj (hm'.symm.trans hu')
  rw [← withModel_withoutModel, h.rest, withModel_withoutModel, hsame.amend]

/-- **Redaction leaves no trace.** Take two databases that calls lead to and that differ at most in
what is stored for one version that is not deleted, apart from its number, its status, its tags and
the time of its creation, and in the aliases that are bound to it. Calls that delete the version at
the same reading of the clock, whatever else they take from outside, answer alike and leave one and
the same database, so whatever is called afterwards answers alike too. And the deletion succeeds on
both if nothing disturbs it. -/
theorem redaction_leaves_no_trace {db db' : Database} (hdb : Reachable db) (hdb' : Reachable db')
    {name : String} {version : Int} (h : db.SameBut name version db') {call call' : Call}
    (hnow : call'.now = call.now) :
    (∀ answer after answer' after',
      (Operation.deleteVersion name version).run.Yields call db answer after →
      (Operation.deleteVersion name version).run.Yields call' db' answer' after' →
      answer' = answer ∧ after' = after ∧
        ∀ steps, Operation.performAll steps after' = Operation.performAll steps after) ∧
    (call.Undisturbed → call'.Undisturbed → ∃ after,
      (Operation.deleteVersion name version).run.Yields call db .nothing after ∧
        (Operation.deleteVersion name version).run.Yields call' db' .nothing after) := by
  constructor
  · intro answer after answer' after' hyields hyields'
    obtain ⟨_, hdelete, rfl⟩ := (yields_map _ _).mp hyields
    obtain ⟨_, hdelete', rfl⟩ := (yields_map _ _).mp hyields'
    obtain ⟨m, hm, -, rfl⟩ := Versions.delete_inversion hdelete
    obtain ⟨m', hm', -, rfl⟩ := Versions.delete_inversion hdelete'
    rw [hnow, h.withModel_amend hm hm']
    exact ⟨rfl, rfl, fun _ => rfl⟩
  · intro hcall hcall'
    obtain ⟨m, hm, m', hm', hsame⟩ := h.stored
    obtain ⟨v, hv, v', hv', hkept⟩ := hsame.stored
    have hdelete : (Versions.delete name version).Leads call db () _ :=
      Versions.leads_delete hm hv hkept.live ((hdb.wellFormed hm).readable version v hv)
    have hdelete' : (Versions.delete name version).Leads call' db' () _ :=
      Versions.leads_delete hm' hv' hkept.live' ((hdb'.wellFormed hm').readable version v' hv')
    rw [hnow, h.withModel_amend hm hm'] at hdelete'
    exact ⟨_, (yields_map _ _).mpr ⟨(), hdelete.2 hcall, rfl⟩,
      (yields_map _ _).mpr ⟨(), hdelete'.2 hcall', rfl⟩⟩

/-- A version is created, moved to a stage, given an alias and described. -/
private def furnishing (source : String) (user : Option String) (stage : VersionStage)
    (aliasName : String) (description : Option String) : List (Call × Operation) :=
  [(.plain, .createModel "m" none []),
    (.plain, .createVersion "m" { NewVersion.ofTags [⟨"k", "v"⟩] with source, userId := user }),
    (.plain, .createVersion "m" (.ofTags [])), (.plain, .setAlias "m" "kept" 2),
    (.plain, .transition "m" 1 stage false), (.plain, .setAlias "m" aliasName 1),
    (.plain, .updateVersion "m" 1 description)]

private def furnishedOpenly : Database :=
  (Operation.performAll (furnishing "s3://a" none .staging "open" none) .empty).2

private def furnishedSecretly : Database :=
  (Operation.performAll
    (furnishing "s3://b" (some "eve") .production "secret" (some "hidden")) .empty).2

/-- Of two versions that look quite different nothing is left that tells them apart. -/
theorem redaction_leaves_no_trace_furnished :
    Reachable furnishedOpenly ∧ Reachable furnishedSecretly ∧
      furnishedOpenly ≠ furnishedSecretly ∧ furnishedOpenly.SameBut "m" 1 furnishedSecretly ∧
      Call.plain.now = Call.plain.now ∧ ∃ after,
        (Operation.deleteVersion "m" 1).run.Yields .plain furnishedOpenly .nothing after ∧
        (Operation.deleteVersion "m" 1).run.Yields .plain furnishedSecretly .nothing after := by
  have hopen : Reachable furnishedOpenly := ⟨_, rfl⟩
  have hsecret : Reachable furnishedSecretly := ⟨_, rfl⟩
  have hsame : furnishedOpenly.SameBut "m" 1 furnishedSecretly := by decide +kernel
  refine ⟨hopen, hsecret, by decide +kernel, hsame, rfl, ?_⟩
  have hnow : Call.plain.now = Call.plain.now := rfl
  exact (redaction_leaves_no_trace hopen hsecret hsame hnow).2 Call.plain_undisturbed
    Call.plain_undisturbed

end RunLedger
