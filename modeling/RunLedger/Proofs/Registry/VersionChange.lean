import RunLedger.Proofs.Registry.Change

/-!
# Calls on versions

What the calls on the versions of registered models lead to, and what a success of one of them
takes. A call on a version asks that it is there, not deleted and readable, and keeps it so, unless
it deletes it.

## Main results

* `Versions.create_inversion`, `Versions.transition_inversion`, `Versions.delete_inversion` and
  their like: what is left of the record of the model.
-/

namespace RunLedger

open Work Registry

section Calls

variable {call : Call} {db db' : Database} {name : String} {m : ModelRecord}

namespace Versions

variable {version : Int} {v : VersionRecord}

theorem requireNext_eq_ok_iff {next : Int} :
    (requireNext name).run db = .ok next ↔
      ∃ m, db.models.get? name = some m ∧ inInt64 (nextNumber m) = true ∧
        next = nextNumber m := by
  rw [requireNext, Query.bind_eq_ok_iff]
  refine exists_congr fun m => ?_
  rw [requireModel_eq_ok_iff]
  refine and_congr_right fun _ => ?_
  change (if inInt64 (nextNumber m) = true then pure (nextNumber m)
    else throw StoreError.statementFailed : Query Int).run db = _ ↔ _
  split
  · next hnext =>
    exact ⟨fun h => ⟨hnext, (Except.ok.inj h).symm⟩, fun h => congrArg Except.ok h.2.symm⟩
  · next hnext => exact iff_of_false nofun fun h => hnext h.1

theorem leads_putTag (hm : db.models.get? name = some m)
    (hv : m.versions.get? version = some v) (hlive : v.stage.isDeleted = false)
    (hread : v.IsReadable) (key value : String) :
    (putTag name version key value).Leads call db () (db.withModel name
      { m with
        versions := m.versions.insert version { v with tags := v.tags.insert key (some value) } })
    := by
  obtain ⟨entity, hfound⟩ := exists_requireVersion hm hv hlive hread
  exact leads_bind (leads_ask hfound) <| leads_bind (leads_attemptUpsert _ _ _) <|
    leads_putVersion hm _ _

/-- Setting tags of a version one after the other. -/
theorem leads_forM_putTag (hm : db.models.get? name = some m)
    (hv : m.versions.get? version = some v) (hlive : v.stage.isDeleted = false)
    (hread : v.IsReadable) (tags : List Tag) :
    (tags.forM fun tag => putTag name version tag.key tag.value).Leads call db ⟨⟩
      (db.withModel name
        { m with
          versions := m.versions.insert version { v with tags := enterTags v.tags tags } }) := by
  induction tags generalizing db m v with
  | nil =>
    rw [enterTags, List.foldl_nil, Table.insert_eq_self hv, Database.withModel_eq_self hm]
    exact leads_pure
  | cons tag tags ih =>
    let w := { v with tags := v.tags.insert tag.key (some tag.value) }
    have hrest := ih (v := w) (Database.get?_withModel_self db name
      { m with versions := m.versions.insert version w }) (Table.get?_insert_self _ _ _) hlive hread
    simp only [Database.withModel_withModel, Table.insert_insert] at hrest
    exact leads_bind (leads_putTag hm hv hlive hread tag.key tag.value) hrest

theorem leads_create (call : Call) (hm : db.models.get? name = some m) {new : NewVersion}
    (htags : Models.checkTagKeys new.tags = .ok ()) (hnext : inInt64 (nextNumber m) = true) :
    ∃ answer, answer.version = nextNumber m ∧
      (create name new).Leads call db answer
        (db.withModel name ((Operation.createVersion name new).amend call.now m)) := by
  let m' := (Operation.createVersion name new).amend call.now m
  have hread : (VersionRecord.ofNew call.now new).IsReadable := ⟨.ready, rfl⟩
  have hv' : m'.versions.get? (nextNumber m) = some (.ofNew call.now new) :=
    Table.get?_insert_self _ _ _
  obtain ⟨answer, hload, -⟩ :=
    exists_loadVersion (Database.get?_withModel_self db name m') hv' rfl hread
  refine ⟨answer, version_of_loadVersion hload, leads_bind (leads_ensure htags) <| leads_within <|
    leads_transact <| leads_bind (leads_ask (requireNext_eq_ok_iff.mpr ⟨m, hm, hnext, rfl⟩)) <|
    leads_bind leads_read <|
    leads_bind (leads_bind (leads_attempt _ _ _) (leads_putVersion hm _ _)) <|
    leads_bind (leads_forM_putTag (Database.get?_withModel_self _ _ _)
      (Table.get?_insert_self _ _ _) rfl ⟨.ready, rfl⟩ new.tags) <|
    leads_bind (leads_touch (Database.get?_withModel_self _ _ _)) ?_⟩
  simp only [Database.withModel_withModel, Table.insert_insert]
  exact leads_ask hload

theorem create_inversion {new : NewVersion} {answer : ModelVersion}
    (h : (create name new).Yields call db answer db') :
    ∃ m, db.models.get? name = some m ∧ (Operation.createVersion name new).Accepts m ∧
      answer.version = nextNumber m ∧
      db' = db.withModel name ((Operation.createVersion name new).amend call.now m) := by
  obtain ⟨_, htags, hwithin⟩ := yields_ensure_bind.mp h
  obtain ⟨next, hnext, -⟩ := yields_ask_bind.mp
    ((yields_transact _ _).mp ((yields_within _ _).mp hwithin)).2.2.1
  obtain ⟨m, hm, hnext, -⟩ := requireNext_eq_ok_iff.mp hnext
  obtain ⟨answer', hversion, hleads⟩ := leads_create call hm htags hnext
  obtain ⟨rfl, hdb⟩ := hleads.1 _ _ h
  exact ⟨m, hm, hnext, hversion, hdb⟩

theorem leads_setTag (hm : db.models.get? name = some m)
    (hv : m.versions.get? version = some v) (hlive : v.stage.isDeleted = false)
    (hread : v.IsReadable) {key : String} (hkey : Rules.tagKey key = .ok ()) (value : String) :
    (setTag name version key value).Leads call db ()
      (db.withModel name ((Operation.setVersionTag name version key value).amend call.now m)) := by
  rw [Operation.amend, Table.update_of_get? hv]
  exact leads_bind (leads_ensure hkey) <| leads_transact (leads_putTag hm hv hlive hread key value)

theorem setTag_inversion {key value : String} {u : Unit}
    (h : (setTag name version key value).Yields call db u db') :
    ∃ m, db.models.get? name = some m ∧ m.IsLive version ∧
      db' = db.withModel name
        ((Operation.setVersionTag name version key value).amend call.now m) := by
  obtain ⟨_, hkey, htransact⟩ := yields_ensure_bind.mp h
  obtain ⟨⟨m, v, entity⟩, hfound, -⟩ := yields_ask_bind.mp ((yields_transact _ _).mp htransact).2.2.1
  obtain ⟨hm, hv, hlive, hread⟩ := of_requireVersion hfound
  exact ⟨m, hm, ⟨v, hv, hlive⟩, ((leads_setTag hm hv hlive hread hkey value).1 _ _ h).2⟩

theorem leads_deleteTag (hm : db.models.get? name = some m)
    (hv : m.versions.get? version = some v) (hlive : v.stage.isDeleted = false)
    (hread : v.IsReadable) {key : String} (hkey : Rules.tagKey key = .ok ()) :
    (deleteTag name version key).Leads call db ()
      (db.withModel name ((Operation.deleteVersionTag name version key).amend call.now m)) := by
  obtain ⟨entity, hfound⟩ := exists_requireVersion hm hv hlive hread
  rw [Operation.amend, Table.update_of_get? hv]
  exact leads_bind (leads_ensure hkey) <| leads_transact <| leads_bind (leads_ask hfound) <|
    leads_bind (leads_attempt _ _ _) (leads_putVersion hm _ _)

theorem deleteTag_inversion {key : String} {u : Unit}
    (h : (deleteTag name version key).Yields call db u db') :
    ∃ m, db.models.get? name = some m ∧ m.IsLive version ∧
      db' = db.withModel name
        ((Operation.deleteVersionTag name version key).amend call.now m) := by
  obtain ⟨_, hkey, htransact⟩ := yields_ensure_bind.mp h
  obtain ⟨⟨m, v, entity⟩, hfound, -⟩ := yields_ask_bind.mp ((yields_transact _ _).mp htransact).2.2.1
  obtain ⟨hm, hv, hlive, hread⟩ := of_requireVersion hfound
  exact ⟨m, hm, ⟨v, hv, hlive⟩, ((leads_deleteTag hm hv hlive hread hkey).1 _ _ h).2⟩

theorem leads_update (call : Call) (hm : db.models.get? name = some m)
    (hv : m.versions.get? version = some v) (hlive : v.stage.isDeleted = false)
    (hread : v.IsReadable) (description : Option String) :
    ∃ answer, (update name version description).Leads call db answer
      (db.withModel name ((Operation.updateVersion name version description).amend call.now m)) := by
  let m' := (Operation.updateVersion name version description).amend call.now m
  let v' : VersionRecord := { v with description, lastUpdatedTime := call.now }
  obtain ⟨entity, hfound⟩ := exists_requireVersion hm hv hlive hread
  have hv' : m'.versions.get? version = some v' := by
    simp [m', v', Operation.amend, hv]
  obtain ⟨answer, hload, -⟩ :=
    exists_loadVersion (Database.get?_withModel_self db name m') hv' hlive hread
  exact ⟨answer, leads_within <| leads_transact <| leads_bind (leads_ask hfound) <|
    leads_bind leads_read <| leads_bind (leads_alterVersion call hm _ _) (leads_ask hload)⟩

theorem update_inversion {description : Option String} {answer : ModelVersion}
    (h : (update name version description).Yields call db answer db') :
    ∃ m, db.models.get? name = some m ∧ m.IsLive version ∧
      db' = db.withModel name
        ((Operation.updateVersion name version description).amend call.now m) := by
  obtain ⟨⟨m, v, entity⟩, hfound, -⟩ := yields_ask_bind.mp
    ((yields_transact _ _).mp ((yields_within _ _).mp h)).2.2.1
  obtain ⟨hm, hv, hlive, hread⟩ := of_requireVersion hfound
  obtain ⟨answer', hleads⟩ := leads_update call hm hv hlive hread description
  exact ⟨m, hm, ⟨v, hv, hlive⟩, (hleads.1 _ _ h).2⟩

theorem not_isDeleted_of_checkTransition {stage : VersionStage} {archiveExisting : Bool}
    (h : checkTransition stage archiveExisting = .ok ()) : stage.isDeleted = false := by
  rw [checkTransition] at h
  split at h
  · cases h
  · next hstage => simpa using hstage

/-- Moving one version moves no other. -/
theorem update_eq_map_moved (version now : Int) (stage : VersionStage)
    (versions : Table Int VersionRecord) :
    (versions.update version fun v => { v with stage, lastUpdatedTime := now }) =
      versions.map (VersionRecord.moved now version stage false) := by
  refine Table.ext_get? fun w => ?_
  rw [Table.get?_map, Table.get?_update]
  by_cases hw : w = version
  · subst hw
    cases versions.get? w <;> simp [VersionRecord.moved]
  · have hne : ¬ compare w version = .eq := fun h => hw (Std.compare_eq_iff_eq.mp h)
    cases versions.get? w <;> simp [VersionRecord.moved, hw]

/-- Moving one version, and then archiving those that were there, moves each version once. -/
theorem map_update_eq_map_moved (version now : Int) (stage : VersionStage)
    (versions : Table Int VersionRecord) :
    ((versions.update version fun v => { v with stage, lastUpdatedTime := now }).map fun w v =>
        if (w != version && v.stage == stage) = true then
          { v with stage := .archived, lastUpdatedTime := now } else v) =
      versions.map (VersionRecord.moved now version stage true) := by
  refine Table.ext_get? fun w => ?_
  rw [Table.get?_map, Table.get?_map, Table.get?_update]
  by_cases hw : w = version
  · subst hw
    cases versions.get? w <;> simp [VersionRecord.moved]
  · have hne : ¬ compare w version = .eq := fun h => hw (Std.compare_eq_iff_eq.mp h)
    cases versions.get? w <;> simp [VersionRecord.moved, hw]

theorem leads_transition (call : Call) (hm : db.models.get? name = some m)
    (hv : m.versions.get? version = some v) (hlive : v.stage.isDeleted = false)
    (hread : v.IsReadable) {stage : VersionStage} {archiveExisting : Bool}
    (hstage : checkTransition stage archiveExisting = .ok ()) :
    ∃ answer, (loadVersion name version).run (db.withModel name
          ((Operation.transition name version stage archiveExisting).amend call.now m)) =
        .ok answer ∧
      (transition name version stage archiveExisting).Leads call db answer
        (db.withModel name
          ((Operation.transition name version stage archiveExisting).amend call.now m)) := by
  let v' : VersionRecord := { v with stage, lastUpdatedTime := call.now }
  obtain ⟨entity, hfound⟩ := exists_requireVersion hm hv hlive hread
  have hv' : ((Operation.transition name version stage archiveExisting).amend call.now m).versions.get?
      version = some v' := by
    simp [v', Operation.amend, ModelRecord.touched, VersionRecord.moved, hv]
  have hlive' : stage.isDeleted = false := not_isDeleted_of_checkTransition hstage
  obtain ⟨answer, hload, -⟩ :=
    exists_loadVersion (Database.get?_withModel_self db name _) hv' hlive' hread
  refine ⟨answer, hload, leads_bind (leads_ensure hstage) <| leads_within <| leads_transact <|
    leads_bind (leads_ask hfound) <| leads_bind leads_read <| leads_bind (leads_touch hm) <|
    leads_bind (leads_alterVersion call (Database.get?_withModel_self _ _ _) _ _) ?_⟩
  rw [Database.withModel_withModel]
  cases archiveExisting with
  | false =>
    have hmoved := update_eq_map_moved version call.now stage m.versions
    rw [Operation.amend, ← hmoved] at hload ⊢
    exact leads_ask hload
  | true =>
    have hmoved := map_update_eq_map_moved version call.now stage m.versions
    rw [Operation.amend, ← hmoved] at hload ⊢
    have harchive := leads_alterVersions call (Database.get?_withModel_self db name
      { m.touched call.now with
        versions := m.versions.update version fun v =>
          { v with stage, lastUpdatedTime := call.now } })
      (fun w v => w != version && v.stage == stage)
      fun v => { v with stage := .archived, lastUpdatedTime := call.now }
    rw [Database.withModel_withModel] at harchive
    exact leads_bind (leads_bind (leads_checkpoint _ _) (leads_bind leads_read harchive))
      (leads_ask hload)

theorem transition_inversion {stage : VersionStage} {archiveExisting : Bool}
    {answer : ModelVersion}
    (h : (transition name version stage archiveExisting).Yields call db answer db') :
    ∃ m, db.models.get? name = some m ∧
      (Operation.transition name version stage archiveExisting).Accepts m ∧
      db' = db.withModel name
        ((Operation.transition name version stage archiveExisting).amend call.now m) := by
  obtain ⟨_, hstage, hwithin⟩ := yields_ensure_bind.mp h
  obtain ⟨⟨m, v, entity⟩, hfound, -⟩ := yields_ask_bind.mp
    ((yields_transact _ _).mp ((yields_within _ _).mp hwithin)).2.2.1
  obtain ⟨hm, hv, hlive, hread⟩ := of_requireVersion hfound
  obtain ⟨answer', -, hleads⟩ := leads_transition call hm hv hlive hread hstage
  exact ⟨m, hm, ⟨hstage, v, hv, hlive⟩, (hleads.1 _ _ h).2⟩

theorem leads_delete (hm : db.models.get? name = some m)
    (hv : m.versions.get? version = some v) (hlive : v.stage.isDeleted = false)
    (hread : v.IsReadable) :
    (delete name version).Leads call db ()
      (db.withModel name ((Operation.deleteVersion name version).amend call.now m)) := by
  obtain ⟨entity, hfound⟩ := exists_requireVersion hm hv hlive hread
  have hself := Database.get?_withModel_self db name
  have hredact := leads_alterVersion call (hself
    { m.touched call.now with aliases := m.aliases.filter fun _ bound => bound != version })
    version fun v => v.redacted call.now
  rw [Database.withModel_withModel] at hredact
  refine leads_within <| leads_transact <|
    leads_bind (leads_ask (requireModel_eq_ok_iff.mpr hm)) <| leads_bind (leads_ask hfound) <|
    leads_bind leads_read <| leads_bind (leads_touch hm) <|
    leads_bind (leads_ask (requireModel_eq_ok_iff.mpr (hself _))) <|
    leads_bind (leads_attempt _ _ _) <| leads_bind (leads_putModel _ _) ?_
  rw [Database.withModel_withModel]
  exact leads_bind (leads_checkpoint _ _) hredact

theorem delete_inversion {u : Unit} (h : (delete name version).Yields call db u db') :
    ∃ m, db.models.get? name = some m ∧ m.IsLive version ∧
      db' = db.withModel name
        ((Operation.deleteVersion name version).amend call.now m) := by
  obtain ⟨_, -, hrest⟩ := yields_ask_bind.mp
    ((yields_transact _ _).mp ((yields_within _ _).mp h)).2.2.1
  obtain ⟨⟨m, v, entity⟩, hfound, -⟩ := yields_ask_bind.mp hrest
  obtain ⟨hm, hv, hlive, hread⟩ := of_requireVersion hfound
  exact ⟨m, hm, ⟨v, hv, hlive⟩, ((leads_delete hm hv hlive hread).1 _ _ h).2⟩

end Versions

end Calls

end RunLedger
