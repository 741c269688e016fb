import Mathlib.Logic.Equiv.Basic
import RunLedger.Proofs.Registry.ForeignKeys
import RunLedger.Proofs.Relabeling
import RunLedger.Proofs.TagMap

/-!
# Deleting a model leaves nothing behind

A model owns its row, the rows of its tags and aliases, those of its versions, soft-deleted ones
included, and those of their tags. Deleting it removes all of them and no others, and keeps no
account of the name: whoever uses the name afterwards gets the answers that any other free name
would have got.

## Main definitions

* `Database.Removed`: a database is another one with one model removed.
* `RegisteredModel.IsNew`: a model as it is read once it is created.

## Main results

* `Database.rows_withoutModel`, `Database.foldl_deletions`: the rows of the registry without a
  model.
* `Database.relabel_swap_eq_self`: two names that no model has can be exchanged.
* `deleted_model_leaves_nothing`: the deletion of a model, and what its name is good for afterwards.
-/

namespace RunLedger

open Work Registry

/-! ### What is removed -/

namespace Database

variable {db : Database} {name : String} {table : TableName}

/-- **Without a model the registry has the rows that do not carry its name.** -/
theorem rows_withoutModel (htable : table ∈ TableName.ofRegistry) (db : Database) (name : String) :
    (db.withoutModel name).rows table =
      (db.rows table).filter fun row => !row.contains ("name", .text name) := by
  have hrows (e : String × ModelRecord) :
      (e.2.rowsIn e.1 table).filter (fun row => !row.contains ("name", .text name)) =
        if compare name e.1 != .eq then e.2.rowsIn e.1 table else [] := by
    split
    · next hne =>
      refine List.filter_eq_self.mpr fun row hrow => ?_
      rw [ModelRecord.contains_name_of_mem_rowsIn hrow]
      simpa using hne
    · next heq =>
      refine List.filter_eq_nil_iff.mpr fun row hrow => ?_
      rw [ModelRecord.contains_name_of_mem_rowsIn hrow]
      simpa using heq
  rw [rows_of_mem_ofRegistry htable, rows_of_mem_ofRegistry htable, List.filter_flatMap]
  change (db.models.entries.filter fun e => compare name e.1 != .eq).flatMap
    (fun e => e.2.rowsIn e.1 table) = _
  induction db.models.entries with
  | nil => rfl
  | cons e es ih =>
    rw [List.flatMap_cons, ← ih, hrows, List.filter_cons]
    split
    · rw [List.flatMap_cons]
    · rw [List.nil_append]

/-- **The statements that delete a model take away its rows and no others.** -/
theorem foldl_deletions {m : ModelRecord} (hm : db.models.get? name = some m) :
    (m.deletions name).foldl (fun stored deletion => deleteRows stored deletion.1 deletion.2)
      db.rows = (db.withoutModel name).rows := by
  have hrows {table : TableName} (htable : table ∈ TableName.ofRegistry) :
      ((db.rows table).filter fun row => !(m.rowsIn name table).contains row) =
        (db.withoutModel name).rows table := by
    rw [rows_withoutModel htable]
    refine List.filter_congr fun row hrow => ?_
    rw [ModelRecord.contains_rowsIn hm htable hrow]
  funext table
  by_cases htable : table ∈ TableName.ofRegistry
  · rw [← hrows htable]
    cases table with
    | models | modelTags | versions | versionTags | aliases => rfl
    | _ => exact absurd htable (by decide)
  · cases table with
    | models | modelTags | versions | versionTags | aliases => exact absurd (by decide) htable
    | _ => rfl

/-- `db'` is `db` without the model called `name`: of the five tables of the registry the rows are
gone that carry the name, and no others; nothing else changes. -/
structure Removed (name : String) (db db' : Database) : Prop where
  gone : ∀ table ∈ TableName.ofRegistry, ∀ row ∈ db'.rows table,
    row.contains ("name", .text name) = false
  kept : ∀ table ∈ TableName.ofRegistry,
    db'.rows table = (db.rows table).filter fun row => !row.contains ("name", .text name)
  rest : { db' with models := db.models } = db

theorem removed_withoutModel (db : Database) (name : String) :
    db.Removed name (db.withoutModel name) where
  gone table htable row hrow := by
    rw [rows_withoutModel htable, List.mem_filter] at hrow
    simpa using hrow.2
  kept table htable := rows_withoutModel htable db name
  rest := rfl

/-- **Two names that no model has can be exchanged.** -/
theorem relabel_swap_eq_self {fresh : String} (hname : db.models.get? name = none)
    (hfresh : db.models.get? fresh = none) : db.relabel (Equiv.swap name fresh) = db := by
  have hmodels : db.models.relabel (Equiv.swap name fresh) = db.models := by
    refine Table.relabel_eq_self fun other => ?_
    rw [Equiv.swap_apply_def]
    split_ifs with h h'
    · rw [h, hname, hfresh]
    · rw [h', hname, hfresh]
    · rfl
  rw [relabel, hmodels]

end Database

/-- A name that a model may have is not blank. -/
theorem Rules.isBlank_of_modelName {name : String} (h : modelName name = .ok ()) :
    Text.isBlank name = false := by
  rw [modelName] at h
  split at h
  · cases h
  · next hblank => simpa using hblank

/-- No name that may be given is exchanged for one that may not. -/
theorem isBlank_swap {name fresh : String} (hname : Text.isBlank name = false)
    (hfresh : Text.isBlank fresh = false) (other : String) :
    Text.isBlank (Equiv.swap name fresh other) = Text.isBlank other := by
  rw [Equiv.swap_apply_def]
  split_ifs with h h'
  · rw [h, hname, hfresh]
  · rw [h', hname, hfresh]
  · rfl

/-! ### The name used again -/

/-- A model as it is read once a call has created it: with the first of the tags given for each key,
and without aliases and versions. -/
structure RegisteredModel.IsNew (call : Call) (name : String) (description : Option String)
    (tags : List Tag) (m : RegisteredModel) : Prop where
  name_eq : m.name = name
  creationTime_eq : m.creationTime = call.now
  lastUpdatedTime_eq : m.lastUpdatedTime = call.now
  description_eq : m.description = description
  tags_listed : (TagMap.ofFirst tags).IsListed m.tags
  aliases_eq : m.aliases = []
  latestVersions_eq : m.latestVersions = []

/-- A creation answers with the model as it is read afterwards. -/
theorem Models.loadModel_of_create {call : Call} {db db' : Database} {name : String}
    {description : Option String} {tags : List Tag} {answer : RegisteredModel}
    (h : (create name description tags).Yields call db answer db') :
    (loadModel name).run db' = .ok answer := by
  obtain ⟨hnew, -⟩ := create_inversion h
  obtain ⟨_, -, hrest⟩ := yields_ensure_bind.mp h
  obtain ⟨_, -, htransact⟩ := yields_ensure_bind.mp hrest
  have hinsert := leads_read.next ((yields_transact _ _).mp htransact).2.2.1
  have htags := (leads_insertNew hnew _ _).next hinsert
  have hask := (leads_forM_putTag (Database.get?_withModel_self _ _ _) _).next htags
  obtain ⟨hload, rfl⟩ := (yields_ask _).mp hask
  exact hload

theorem RegisteredModel.isNew_of_create {call : Call} {db db' : Database} {name : String}
    {description : Option String} {tags : List Tag} {answer : RegisteredModel}
    (h : (Models.create name description tags).Yields call db answer db') :
    answer.IsNew call name description tags := by
  have hload := Models.loadModel_of_create h
  obtain ⟨-, rfl⟩ := Models.create_inversion h
  obtain ⟨m, versions, hm, hversions, rfl⟩ := loadModel_eq_ok_iff.mp hload
  obtain rfl := Option.some.inj ((Database.get?_withModel_self _ _ _).symm.trans hm)
  have hempty : versions = [] := (Except.ok.inj hversions).symm
  exact
    { name_eq := rfl
      creationTime_eq := rfl
      lastUpdatedTime_eq := rfl
      description_eq := rfl
      tags_listed := by
        rw [← TagMap.ofLast_firstPerKey, ← TagMap.ofTable_enterTags]
        exact TagMap.isListed_readTags _
      aliases_eq := rfl
      latestVersions_eq := hempty }

/-- **Deleting a model leaves nothing behind.** In every reachable database a call that nothing
disturbs deletes a model, whatever it owns, by statements of which none takes away a row to which
one refers that is still there; what they leave is what the call leaves. Afterwards no row of the
registry carries its name, and all other rows are as they were. What is called after that, under
whatever contexts and whether it succeeds or fails, is answered as it would be with another name in
the place of this one, any other that no model has: exchanging the two in the calls exchanges them
in the answers and does nothing else. In particular, a model that is created under the name has the
tags given then, no aliases and no versions, and its first version gets the number one. -/
theorem deleted_model_leaves_nothing {db : Database} (h : Reachable db) {name : String}
    {m : ModelRecord} (hm : db.models.get? name = some m) {call : Call} (hcall : call.Undisturbed) :
    Models.delete name = Models.deleteBy (fun m => m.deletions name) name ∧
    KeepsKeys db.rows (m.deletions name) ∧
    ∃ db₁, (Operation.deleteModel name).run.Yields call db .nothing db₁ ∧
      (m.deletions name).foldl (fun stored deletion => deleteRows stored deletion.1 deletion.2)
        db.rows = db₁.rows ∧
      db.Removed name db₁ ∧
      (∀ fresh, Text.isBlank fresh = false → db₁.models.get? fresh = none →
        ∀ later : List (Call × Operation),
          let π := Equiv.swap name fresh
          (Operation.performAll (relabelSteps π later) db₁).1 =
            (Operation.performAll later db₁).1.map (relabelResult π (Answer.relabel π))) ∧
      ∀ creator : Call, creator.Undisturbed → ∀ description tags,
        Models.checkTagKeys (Models.firstPerKey tags) = .ok () →
        ∃ answer db₂, (Operation.createModel name description tags).run.Yields creator db₁
            (.model answer) db₂ ∧ answer.IsNew creator name description tags ∧
          ∀ versioner : Call, versioner.Undisturbed → ∀ new : NewVersion,
            Models.checkTagKeys new.tags = .ok () →
            ∃ v db₃, (Operation.createVersion name new).run.Yields versioner db₂ (.version v) db₃ ∧
              v.version = 1 := by
  have hname := Rules.isBlank_of_modelName (h.namesGiven name m hm)
  have hgone : (db.withoutModel name).models.get? name = none := db.models.get?_erase_self name
  refine ⟨Models.delete_eq name, ModelRecord.keepsKeys_deletions hm, db.withoutModel name,
    (yields_map _ _).mpr ⟨(), (Models.leads_delete hm).2 hcall, rfl⟩, Database.foldl_deletions hm,
    db.removed_withoutModel name, fun fresh hfresh hfree later => ?_,
    fun creator hcreator description tags htags => ?_⟩
  · have hsame := Operation.performAll_relabel (isBlank_swap hname hfresh) later
      (db.withoutModel name)
    rw [Database.relabel_swap_eq_self hgone hfree] at hsame
    exact congrArg Prod.fst hsame
  · obtain ⟨answer, hleads⟩ :=
      Models.leads_create creator hgone (h.namesGiven name m hm) htags description
    have hcreate := hleads.2 hcreator
    refine ⟨answer, _, (yields_map _ _).mpr ⟨answer, hcreate, rfl⟩,
      RegisteredModel.isNew_of_create hcreate, fun versioner hversioner new hkeys => ?_⟩
    have hfirst : inInt64 (Versions.nextNumber (.ofNew creator.now description tags)) = true := rfl
    obtain ⟨v, hversion, hleads⟩ :=
      Versions.leads_create versioner (Database.get?_withModel_self _ _ _) hkeys hfirst
    exact ⟨v, _, (yields_map _ _).mpr ⟨v, hleads.2 hversioner, rfl⟩, hversion⟩

/-- A model with a tag, an alias and two versions, of which the first one has a tag and is
soft-deleted, and another model. -/
private def possessions : List (Call × Operation) :=
  [(.plain, .createModel "m" none [⟨"k", "v"⟩]), (.plain, .createModel "other" none [⟨"k", "w"⟩]),
    (.plain, .createVersion "m" (.ofTags [⟨"t", "w"⟩])),
    (.plain, .createVersion "m" (.ofTags [])), (.plain, .setAlias "m" "best" 2),
    (.plain, .deleteVersion "m" 1)]

/-- The model is created again, with a version, and asked for its old alias. -/
private def reuse : List (Call × Operation) :=
  [(.plain, .createModel "m" none []), (.plain, .createVersion "m" (.ofTags [])),
    (.plain, .getByAlias "m" "best"), (.plain, .getModel "m")]

/-- The tag of the soft-deleted version goes with the model, and that of the other model stays. A
model created under the name is answered for as one under a name that was never used, and its first
version gets the number one. -/
theorem deleted_model_is_created_anew :
    let db := (Operation.performAll possessions .empty).2
    let π := Equiv.swap "m" "n"
    Reachable db ∧ (∃ m, db.models.get? "m" = some m) ∧ Call.plain.Undisturbed ∧
    ∃ db₁, (Operation.deleteModel "m").run.Yields .plain db .nothing db₁ ∧
      db₁.rows .versionTags = [] ∧ db₁.rows .modelTags = [modelTagRow "other" "k" (some "w")] ∧
      (Operation.performAll (relabelSteps π reuse) db₁).1 =
        (Operation.performAll reuse db₁).1.map (relabelResult π (Answer.relabel π)) ∧
      ∃ answer db₂, (Operation.createModel "m" none []).run.Yields .plain db₁ (.model answer) db₂ ∧
        answer.aliases = [] ∧ ∃ v db₃,
          (Operation.createVersion "m" (.ofTags [])).run.Yields .plain db₂ (.version v) db₃ ∧
            v.version = 1 := by
  intro db π
  have hreach : Reachable db := ⟨possessions, rfl⟩
  have hmodel : (db.models.get? "m").isSome = true := by decide +kernel
  obtain ⟨m, hm⟩ := Option.isSome_iff_exists.mp hmodel
  have hplain := Call.plain_undisturbed
  obtain ⟨-, -, db₁, hdelete, -, hremoved, hlater, hcreate⟩ :=
    deleted_model_leaves_nothing hreach hm hplain
  have hfree : (((Operation.deleteModel "m").run.perform .plain db).2.models.get? "n").isSome =
    false := by decide +kernel
  rw [show (Operation.deleteModel "m").run.perform .plain db = (.ok .nothing, db₁) from hdelete,
    Option.isSome_eq_false_iff, Option.isNone_iff_eq_none] at hfree
  obtain ⟨answer, db₂, hanew, hnew, hversion⟩ := hcreate .plain hplain none [] rfl
  obtain ⟨v, db₃, hfirst, hone⟩ := hversion .plain hplain (.ofTags []) rfl
  have hversionTags : (db.rows .versionTags).filter (fun row => !row.contains ("name", .text "m")) =
    [] := by decide +kernel
  have hmodelTags : (db.rows .modelTags).filter (fun row => !row.contains ("name", .text "m")) =
    [modelTagRow "other" "k" (some "w")] := by decide +kernel
  exact ⟨hreach, ⟨m, hm⟩, hplain, db₁, hdelete,
    (hremoved.kept .versionTags (by decide)).trans hversionTags,
    (hremoved.kept .modelTags (by decide)).trans hmodelTags,
    hlater "n" (by decide +kernel) hfree reuse, answer, db₂, hanew, hnew.aliases_eq, v, db₃, hfirst,
    hone⟩

end RunLedger
