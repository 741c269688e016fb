import RunLedger.Proofs.Registry.ForeignKeys
import RunLedger.Proofs.Registry.WellFormed

/-!
# Renaming a model carries everything along

A rename puts the new name in place of the old one in each row of the model, notes its time in the
row of the model and in those of all its versions, soft-deleted ones included, and touches no row of
another model. Five statements do so, one for each table; between them rows refer to rows that are
not there, but when the rename commits each row has the row that it refers to. It is refused if the
new name is taken by another model, and then nothing changes. Renaming the model back leaves only
the new times.

## Main definitions

* `Row.carried`: what a rename makes of a row of the registry.
* `Registry.carryRows`: what its statements make of the rows of all tables.
* `Database.Renamed`: a database is another one with one model renamed.

## Main results

* `ModelRecord.map_carried_rowsIn_self`: what a rename makes of the rows of a model.
* `Database.Renamed.perm_carryRows`, `Database.Renamed.hold_carryRows`: the statements leave the
  rows of the renamed model, and the foreign keys hold again.
* `Reachable.namesGiven`: no model has a blank name.
* `Models.leads_rename`: what a rename leads to.
* `Models.permits_of_rename`: a rename that succeeds has made all its statements.
* `rename_carries_model_along`: a rename of a model in a reachable database, and one back.
-/

namespace RunLedger

open Work Registry

/-! ### Rows of the registry -/

/-- The time of the last change after a change at `now`, in a row of a model or a version. -/
def Cell.restamped (now : Int) : TableName → Cell → Cell
  | .models, .int last => .int (max now (last + 1))
  | .versions, _ => .int now
  | _, cell => cell

/-- What giving a model another name at the time `now` makes of a row of the registry. -/
def Row.carried (name newName : String) (now : Int) (table : TableName) (row : Row) : Row :=
  if row.contains ("name", .text name) then
    row.map fun (column, cell) =>
      (column,
        if column = "name" then .text newName
        else if column = "last_updated_time" then cell.restamped now table
        else cell)
  else row

/-- The tables whose rows a rename updates, in the order of its statements. -/
def TableName.ofRename : List TableName :=
  [.models, .versions, .versionTags, .modelTags, .aliases]

/-- The rows of all tables after the statements of a rename. -/
def Registry.carryRows (name newName : String) (now : Int) (stored : TableName → List Row) :
    TableName → List Row :=
  TableName.ofRename.foldl
    (fun stored table => updateRows stored table (Row.carried name newName now table)) stored

namespace ModelRecord

/-- A rename leaves the rows of other models alone. -/
theorem map_carried_rowsIn_of_ne {name other : String} (hother : other ≠ name) (m : ModelRecord)
    (newName : String) (now : Int) (table : TableName) :
    (m.rowsIn other table).map (Row.carried name newName now table) = m.rowsIn other table := by
  refine (List.map_congr_left fun row hrow => ?_).trans (List.map_id _)
  have hname : row.contains ("name", .text name) = false := by
    rw [contains_name_of_mem_rowsIn hrow]
    exact beq_false_of_ne (Ne.symm hother)
  rw [Row.carried, hname]
  rfl

/-- **What a rename makes of the rows of its model** are the rows of the renamed record. -/
theorem map_carried_rowsIn_self (m : ModelRecord) (name newName : String) (now : Int)
    (table : TableName) :
    (m.rowsIn name table).map (Row.carried name newName now table) =
      ((Operation.renameModel name newName).amend now m).rowsIn newName table := by
  have hcarried (row : Row) (h : row ∈ m.rowsIn name table) :
      row.carried name newName now table = row.map fun (column, cell) =>
        (column,
          if column = "name" then .text newName
          else if column = "last_updated_time" then cell.restamped now table
          else cell) := by
    rw [Row.carried, contains_name_of_mem_rowsIn h, beq_self_eq_true, if_pos rfl]
  rw [List.map_congr_left hcarried]
  cases table with
  | models => simp [rowsIn, row, Operation.amend, touched, bumped, Cell.restamped]
  | modelTags => simp [rowsIn, tagRows, modelTagRow, Operation.amend, touched]
  | versions =>
    simp [rowsIn, versionRows, VersionRecord.row, Operation.amend, Table.map, Cell.restamped]
  | versionTags =>
    simp [rowsIn, versionTagRows, VersionRecord.tagRows, versionTagRow, Operation.amend, Table.map,
      List.map_flatMap, List.flatMap_map, Function.comp_def]
  | aliases => simp [rowsIn, aliasRows, aliasRow, Operation.amend, touched]
  | _ => rfl

/-- The rows of its versions, as a rename updates them. -/
theorem rowsIn_versions_renamed (m : ModelRecord) (name newName : String) (now : Int) :
    ((Operation.renameModel name newName).amend now m).rowsIn newName .versions =
      ((m.touched now).versions.filter fun _ _ => true).entries.map fun (version, v) =>
        ({ v with lastUpdatedTime := now } : VersionRecord).row newName version := by
  simp [rowsIn, versionRows, touched, Operation.amend, Table.map, Table.filter, Function.comp_def]

end ModelRecord

namespace Database

variable {db : Database} {name : String} {table : TableName}

/-- A rename leaves the rows of the other models alone. -/
theorem map_carried_rows_withoutModel (htable : table ∈ TableName.ofRegistry) (db : Database)
    (name newName : String) (now : Int) :
    ((db.withoutModel name).rows table).map (Row.carried name newName now table) =
      (db.withoutModel name).rows table := by
  rw [rows_of_mem_ofRegistry htable, List.map_flatMap]
  refine List.flatMap_congr fun ⟨other, m⟩ hm => ?_
  have hother : other ≠ name := by
    rintro rfl
    have hnone := Table.mem_entries_iff.mp hm
    rw [withoutModel, Table.get?_erase_self] at hnone
    cases hnone
  exact m.map_carried_rowsIn_of_ne hother newName now table

/-- Once a model is away, a name that it had or that was free is not taken. -/
theorem withoutModel_withoutModel {newName : String}
    (hfree : newName = name ∨ db.models.get? newName = none) :
    (db.withoutModel name).withoutModel newName = db.withoutModel name := by
  have hnone : (db.withoutModel name).models.get? newName = none := by
    rw [withoutModel, Table.get?_erase]
    split
    · rfl
    · next hne => exact hfree.resolve_left fun h => hne (by rw [h, Std.compare_self])
  rw [withoutModel, Table.erase_eq_self hnone]

/-- `db'` is `db` after the model `name` has been given the name `newName` at the time `now`. In the
five tables that repeat the name, each row is carried along, where the rows of other models stay as
they are; nothing else changes, and the old name is free. -/
structure Renamed (name newName : String) (now : Int) (db db' : Database) : Prop where
  carried : ∀ table ∈ TableName.ofRegistry,
    (db'.rows table).Perm ((db.rows table).map (Row.carried name newName now table))
  rest : { db' with models := db.models } = db
  others : ∀ other, other ≠ name → other ≠ newName →
    db'.models.get? other = db.models.get? other
  free : newName ≠ name → db'.models.get? name = none

/-- Moving the record of a model renames it. -/
theorem renamed_withModel {newName : String} {m : ModelRecord}
    (hm : db.models.get? name = some m)
    (hfree : newName = name ∨ db.models.get? newName = none) (now : Int) :
    db.Renamed name newName now ((db.withoutModel name).withModel newName
      ((Operation.renameModel name newName).amend now m)) where
  carried table htable := by
    have hafter := rows_perm htable (get?_withModel_self (db.withoutModel name) newName
      ((Operation.renameModel name newName).amend now m))
    rw [withoutModel_withModel, withoutModel_withoutModel hfree] at hafter
    have hbefore := (rows_perm htable hm).map (Row.carried name newName now table)
    rw [List.map_append, m.map_carried_rowsIn_self, map_carried_rows_withoutModel htable] at hbefore
    exact hafter.trans hbefore.symm
  rest := rfl
  others other hname hnew := by
    rw [get?_withModel_of_ne hnew, withoutModel, Table.get?_erase_of_ne _ hname]
  free hne := by
    rw [get?_withModel_of_ne hne.symm, withoutModel, Table.get?_erase_self]

namespace Renamed

variable {newName : String} {now : Int} {db' : Database} (h : db.Renamed name newName now db')

include h

/-- **The statements of a rename leave the rows of the renamed model**, up to their order. -/
theorem perm_carryRows (table : TableName) :
    (db'.rows table).Perm (carryRows name newName now db.rows table) := by
  rw [carryRows, foldl_updateRows _ (by decide)]
  by_cases htable : table ∈ TableName.ofRegistry
  · have hrename : TableName.ofRegistry ⊆ TableName.ofRename := by decide
    rw [if_pos (hrename htable)]
    exact h.carried table htable
  · have hsame : db'.rows table = db.rows table := by
      rw [← h.rest]
      cases table with
      | models | modelTags | versions | versionTags | aliases => exact absurd (by decide) htable
      | _ => rfl
    have hregistry : TableName.ofRename ⊆ TableName.ofRegistry := by decide
    rw [if_neg fun hrename => htable (hregistry hrename), hsame]

/-- **After the statements of a rename every row has the row that it refers to.** -/
theorem hold_carryRows : ForeignKey.Hold (carryRows name newName now db.rows) :=
  (ForeignKey.hold_rows db').of_perm h.perm_carryRows

end Renamed

end Database

/-! ### The calls -/

namespace Database

/-- No registered model has a blank name. -/
def NamesGiven (db : Database) : Prop :=
  ∀ name m, db.models.get? name = some m → Rules.modelName name = .ok ()

namespace NamesGiven

variable {db : Database} (h : db.NamesGiven)

include h

theorem withModel {name : String} (hname : Rules.modelName name = .ok ()) (m : ModelRecord) :
    (db.withModel name m).NamesGiven := by
  intro other u hu
  by_cases hne : other = name
  · rw [hne, hname]
  · exact h other u ((get?_withModel_of_ne hne).symm.trans hu)

theorem withoutModel (name : String) : (db.withoutModel name).NamesGiven := by
  intro other u hu
  rw [Database.withoutModel, Table.get?_erase] at hu
  split at hu
  · cases hu
  · exact h other u hu

end NamesGiven

end Database

/-- A successful call gives no model a blank name. -/
theorem Operation.namesGiven {operation : Operation} {call : Call} {db db' : Database} {a : Answer}
    (h : db.NamesGiven) (hresult : operation.run.Yields call db a db') : db'.NamesGiven := by
  cases Operation.registryEffect hresult with
  | created hnew =>
    obtain ⟨_, hcall, -⟩ := (yields_map _ _).mp hresult
    obtain ⟨_, hname, -⟩ := yields_ensure_bind.mp hcall
    exact h.withModel hname _
  | amended htarget hm haccepts => exact h.withModel (h _ _ hm) _
  | renamed hm hfree =>
    obtain ⟨_, hcall, -⟩ := (yields_map _ _).mp hresult
    obtain ⟨_, hname, -⟩ := yields_ensure_bind.mp hcall
    exact (h.withoutModel _).withModel hname _
  | deleted hm => exact h.withoutModel _
  | none hop hmodels =>
    intro name m hm
    exact h name m (hmodels ▸ hm)

/-- **No model in a reachable database has a blank name.** -/
theorem Reachable.namesGiven {db : Database} (h : Reachable db) : db.NamesGiven := by
  obtain ⟨steps, rfl⟩ := h
  exact Operation.performAll_invariant
    (fun _ _ _ _ _ hdb hresult => Operation.namesGiven hdb hresult) steps fun _ _ h => nomatch h

namespace Models

variable {call : Call} {db : Database} {name newName : String} {m : ModelRecord}

/-- **What a rename leads to**, where the new name is not blank and not taken by another model. -/
theorem leads_rename (call : Call) (h : m.WellFormed) (hm : db.models.get? name = some m)
    (hname : Rules.modelName newName = .ok ())
    (hfree : newName = name ∨ db.models.get? newName = none) :
    ∃ answer, (rename name newName).Leads call db answer
      ((db.withoutModel name).withModel newName
        ((Operation.renameModel name newName).amend call.now m)) := by
  have haccepts : (Operation.renameModel name newName).Accepts m := trivial
  have hself := Database.get?_withModel_self (db.withoutModel name) newName
  obtain ⟨answer, hload⟩ := exists_loadModel (hself _) (h.amend haccepts call.now).readable
  have hversions := leads_alterVersions call (hself (m.touched call.now)) (fun _ _ => true)
    fun v => { v with lastUpdatedTime := call.now }
  rw [Database.withModel_withModel] at hversions
  exact ⟨answer, leads_bind (leads_ensure hname) <| leads_within <| leads_transact <|
    leads_bind leads_read <| leads_bind (leads_moveModel hm hfree call.now) <|
    leads_bind (leads_checkpoint _ _) <| leads_bind hversions <|
    leads_bind (leads_ask (requireModel_eq_ok_iff.mpr (hself _))) <|
    leads_bind (leads_attempt _ _ _) <| leads_bind (leads_attempt _ _ _) <|
    leads_bind (leads_attempt _ _ _) (leads_ask hload)⟩

/-- **A rename that succeeds has made all its statements**: none of them was kept from the rows that
it leaves. -/
theorem permits_of_rename {db' : Database} {answer : RegisteredModel}
    (hm : db.models.get? name = some m) (h : (rename name newName).Yields call db answer db')
    {table : TableName} (htable : table ∈ TableName.ofRename) :
    call.Permits .update table
      (((Operation.renameModel name newName).amend call.now m).rowsIn newName table) := by
  obtain ⟨m', hm', hfree, -⟩ := rename_inversion h
  obtain rfl := Option.some.inj (hm.symm.trans hm')
  have hself := Database.get?_withModel_self (db.withoutModel name) newName
  -- Each statement is met where the ones before it have been made.
  obtain ⟨_, -, hwithin⟩ := yields_ensure_bind.mp h
  have hbody := leads_read.next ((yields_transact _ _).mp ((yields_within _ _).mp hwithin)).2.2.1
  obtain ⟨_, _, hmove, -⟩ := (yields_bind _ _).mp hbody
  obtain ⟨m', hm', hmove⟩ := yields_ask_bind.mp hmove
  obtain rfl := Option.some.inj (hm.symm.trans (requireModel_eq_ok_iff.mp hm'))
  obtain ⟨hmodel, -⟩ := yields_attemptOr_bind.mp hmove
  have hafter := (leads_checkpoint _ _).next ((leads_moveModel hm hfree call.now).next hbody)
  obtain ⟨_, _, halter, -⟩ := (yields_bind _ _).mp hafter
  obtain ⟨hversions, -⟩ :=
    yields_attemptOr_bind.mp ((leads_ask (requireModel_eq_ok_iff.mpr (hself _))).next halter)
  have hafter := (leads_alterVersions call (hself _) _ _).next hafter
  rw [Database.withModel_withModel] at hafter
  have hafter := (leads_ask (requireModel_eq_ok_iff.mpr (hself _))).next hafter
  obtain ⟨hversionTags, hafter⟩ := yields_attemptOr_bind.mp hafter
  obtain ⟨hmodelTags, hafter⟩ := yields_attemptOr_bind.mp hafter
  obtain ⟨haliases, -⟩ := yields_attemptOr_bind.mp hafter
  simp only [TableName.ofRename, List.mem_cons, List.not_mem_nil, or_false] at htable
  rcases htable with rfl | rfl | rfl | rfl | rfl
  · exact hmodel
  · rw [ModelRecord.rowsIn_versions_renamed]
    exact hversions
  · exact hversionTags
  · exact hmodelTags
  · exact haliases

/-- A model cannot be given the name of another one. -/
theorem failsWith_rename (hcall : call.Undisturbed) (hm : db.models.get? name = some m)
    (hname : Rules.modelName newName = .ok ()) (hne : newName ≠ name)
    (htaken : ∃ taken, db.models.get? newName = some taken) :
    (rename name newName).FailsWith call db .resourceAlreadyExists := by
  have hguard : (newName != name && db.models.contains newName) = true := by
    obtain ⟨taken, htaken⟩ := htaken
    simp [hne, Table.contains, htaken]
  have hmove : (moveModel name newName call.now).FailsWith call db .resourceAlreadyExists := by
    refine .ask_bind (requireModel_eq_ok_iff.mpr hm) <| .after hcall (leads_attemptOr _ _ _ _) <|
      .after hcall leads_get ?_
    rw [if_pos hguard]
    exact .bind ⟨_, perform_throw .., rfl⟩ _
  exact .ensure_bind hname <| .within _ <| .transact hcall.unhindered _ <|
    .after hcall leads_read <| .bind hmove _

end Models

/-- **A rename carries the model along.** In every reachable database, let a call that nothing
disturbs rename a model, to a name that is not blank. If another model has that name, the call fails
and changes nothing. Otherwise it succeeds, also if the name is the old one, and all rows of the
model carry the new name, with the time of the change in its own row and in those of its versions.
These are the rows that five statements leave, one for each table; once all are made every row has
the row that it refers to, and the rename does not succeed without one of them. Renaming the model
back restores everything but the times. -/
theorem rename_carries_model_along {db : Database} (h : Reachable db) {name newName : String}
    {m : ModelRecord} (hm : db.models.get? name = some m) (hgiven : Text.isBlank newName = false)
    {call : Call} (hcall : call.Undisturbed) :
    (newName ≠ name → (∃ taken, db.models.get? newName = some taken) →
      (Operation.renameModel name newName).run.FailsWith call db .resourceAlreadyExists) ∧
    (newName = name ∨ db.models.get? newName = none →
      ∃ answer db', (Operation.renameModel name newName).run.Yields call db (.model answer) db' ∧
        db.Renamed name newName call.now db' ∧
        (∀ table, (db'.rows table).Perm (carryRows name newName call.now db.rows table)) ∧
        ForeignKey.Hold (carryRows name newName call.now db.rows) ∧
        ∀ back : Call, back.Undisturbed →
          ∃ answer, (Operation.renameModel newName name).run.Yields back db' (.model answer)
            (db.withModel name
              { m with
                lastUpdatedTime := bumped back.now (bumped call.now m.lastUpdatedTime)
                versions := m.versions.map fun _ v =>
                  { v with lastUpdatedTime := back.now } })) ∧
    ∀ faulty answer db', (Operation.renameModel name newName).run.Yields faulty db answer db' →
      ∀ table ∈ TableName.ofRename, faulty.Permits .update table
        (((Operation.renameModel name newName).amend faulty.now m).rowsIn newName table) := by
  have hname : Rules.modelName newName = .ok () := by
    rw [Rules.modelName, hgiven]
    rfl
  refine ⟨fun hne htaken => (Models.failsWith_rename hcall hm hname hne htaken).map _,
    fun hfree => ?_, fun faulty _ _ hyields table htable => ?_⟩
  · have hwell := h.wellFormed hm
    have hrenamed := Database.renamed_withModel hm hfree call.now
    obtain ⟨answer, hleads⟩ := Models.leads_rename call hwell hm hname hfree
    refine ⟨answer, _, (yields_map _ _).mpr ⟨answer, hleads.2 hcall, rfl⟩, hrenamed,
      hrenamed.perm_carryRows, hrenamed.hold_carryRows, fun back hback => ?_⟩
    have haccepts : (Operation.renameModel name newName).Accepts m := trivial
    have hfreed : name = newName ∨ ((db.withoutModel name).withModel newName
        ((Operation.renameModel name newName).amend call.now m)).models.get? name = none :=
      or_iff_not_imp_left.mpr fun hne => hrenamed.free (Ne.symm hne)
    obtain ⟨answer, hleads⟩ := Models.leads_rename back (hwell.amend haccepts call.now)
      (Database.get?_withModel_self _ _ _) (h.namesGiven name m hm) hfreed
    rw [Database.withoutModel_withModel, Database.withoutModel_withoutModel hfree,
      Database.withModel_withoutModel] at hleads
    refine ⟨answer, (yields_map _ _).mpr ⟨answer, ?_, rfl⟩⟩
    have hback := hleads.2 hback
    simp only [Operation.amend, ModelRecord.touched, Table.map_map] at hback
    exact hback
  · obtain ⟨_, hyields, -⟩ := (yields_map _ _).mp hyields
    exact Models.permits_of_rename hm hyields htable

/-- A model with a tag, an alias and two versions, the tagged one soft-deleted, and another
model. -/
private def furnished : List (Call × Operation) :=
  [(.plain, .createModel "m" none [⟨"k", "v"⟩]), (.plain, .createModel "other" none []),
    (.plain, .createVersion "m" (.ofTags [⟨"t", "w"⟩])),
    (.plain, .createVersion "m" (.ofTags [])), (.plain, .setAlias "m" "best" 2),
    (.plain, .deleteVersion "m" 1)]

/-- The model cannot take the name of the other one. Given a free name, it takes its alias along and
the tag of its soft-deleted version, and it can be renamed back. -/
theorem rename_carries_model_along_furnished :
    let db := (Operation.performAll furnished .empty).2
    Reachable db ∧ (∃ m, db.models.get? "m" = some m) ∧ Text.isBlank "n" = false ∧
    Call.plain.Undisturbed ∧
    (Operation.renameModel "m" "other").run.FailsWith .plain db .resourceAlreadyExists ∧
    ∃ answer db', (Operation.renameModel "m" "n").run.Yields .plain db (.model answer) db' ∧
      (db'.rows .aliases).Perm [aliasRow "n" "best" 2] ∧
      (db'.rows .versionTags).Perm [versionTagRow "n" 1 "t" (some "w")] ∧
      ∃ answer db'',
        (Operation.renameModel "n" "m").run.Yields .plain db' (.model answer) db'' := by
  intro db
  have hreach : Reachable db := ⟨furnished, rfl⟩
  have hmodel : (db.models.get? "m").isSome = true := by decide +kernel
  have hother : (db.models.get? "other").isSome = true := by decide +kernel
  have hfree : db.models.get? "n" = none := by decide +kernel
  have haliases : (db.rows .aliases).map (Row.carried "m" "n" Call.plain.now .aliases) =
      [aliasRow "n" "best" 2] := by
    decide +kernel
  have htags : (db.rows .versionTags).map (Row.carried "m" "n" Call.plain.now .versionTags) =
      [versionTagRow "n" 1 "t" (some "w")] := by
    decide +kernel
  have hgiven : Text.isBlank "n" = false := by decide +kernel
  have hotherGiven : Text.isBlank "other" = false := by decide +kernel
  obtain ⟨m, hm⟩ := Option.isSome_iff_exists.mp hmodel
  have hplain := Call.plain_undisturbed
  have hrefused := (rename_carries_model_along hreach hm hotherGiven hplain).1 (by decide)
    (Option.isSome_iff_exists.mp hother)
  obtain ⟨answer, db', hyields, hrenamed, -, -, hback⟩ :=
    (rename_carries_model_along hreach hm hgiven hplain).2.1 (.inr hfree)
  have hcarried := hrenamed.carried
  obtain ⟨answer', hback⟩ := hback .plain hplain
  exact ⟨hreach, ⟨m, hm⟩, hgiven, hplain, hrefused, answer, db', hyields,
    haliases ▸ hcarried .aliases (by decide), htags ▸ hcarried .versionTags (by decide),
    answer', _, hback⟩

end RunLedger
