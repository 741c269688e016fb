import Mathlib.Logic.Function.Basic
import RunLedger.Operation
import RunLedger.Proofs.Registry.Reading

/-!
# What calls make of a registered model

A call that changes the registry changes the record of one model, and what it makes of that record
does not depend on anything else in the database. Here this is said once for every such call: what
it asks of the record, and what it makes of it. The statements that the calls are made of do
nothing but that either.

## Main definitions

* `Database.withModel`, `Database.withoutModel`: the database with the record of a model stored, and
  without it.
* `Operation.Accepts`: what a call asks of the record of its model.
* `Operation.amend`: what a successful call makes of the record of its model.
* `ModelRecord.ofNew`: the record of a new model.

## Main results

* `Registry.leads_touch`, `Registry.leads_alterVersions` and their like: what a statement on the
  record of a model leads to.
-/

namespace RunLedger

open Work Registry

/-! ### Storing the record of a model -/

namespace Database

variable {db : Database} {name : String} {m : ModelRecord}

/-- The database with the record of a model stored under its name. -/
def withModel (db : Database) (name : String) (m : ModelRecord) : Database :=
  { db with models := db.models.insert name m }

@[simp] theorem get?_withModel_self (db : Database) (name : String) (m : ModelRecord) :
    (db.withModel name m).models.get? name = some m :=
  db.models.get?_insert_self name m

theorem get?_withModel_of_ne {other : String} (h : other ≠ name) :
    (db.withModel name m).models.get? other = db.models.get? other :=
  db.models.get?_insert_of_ne h m

@[simp] theorem withModel_withModel (db : Database) (name : String) (m m' : ModelRecord) :
    (db.withModel name m).withModel name m' = db.withModel name m' := by
  simp [withModel, Table.insert_insert]

/-- The database without the model. -/
def withoutModel (db : Database) (name : String) : Database :=
  { db with models := db.models.erase name }

theorem withoutModel_withModel (db : Database) (name : String) (m : ModelRecord) :
    (db.withModel name m).withoutModel name = db.withoutModel name := by
  simp only [withModel, withoutModel, Table.erase_insert]

theorem withModel_withoutModel (db : Database) (name : String) (m : ModelRecord) :
    (db.withoutModel name).withModel name m = db.withModel name m := by
  simp only [withModel, withoutModel, Table.insert_erase]

theorem withModel_eq_self (h : db.models.get? name = some m) : db.withModel name m = db := by
  simp [withModel, Table.insert_eq_self h]

/-- What is read off the record of each model, once one record is stored. -/
theorem map_get?_withModel {α : Type} (f : ModelRecord → α) (db : Database) (name : String)
    (m : ModelRecord) :
    (fun other => ((db.withModel name m).models.get? other).map f) =
      Function.update (fun other => (db.models.get? other).map f) name (some (f m)) := by
  funext other
  by_cases h : other = name
  · subst h
    rw [Function.update_self, get?_withModel_self, Option.map_some]
  · rw [Function.update_of_ne h, get?_withModel_of_ne h]

/-- What is read off the record of each model, once one model is gone. -/
theorem map_get?_withoutModel {α : Type} (f : ModelRecord → α) (db : Database) (name : String) :
    (fun other => ((db.withoutModel name).models.get? other).map f) =
      Function.update (fun other => (db.models.get? other).map f) name none := by
  funext other
  by_cases h : other = name
  · subst h
    rw [Function.update_self, Option.map_eq_none_iff]
    exact db.models.get?_erase_self other
  · rw [Function.update_of_ne h, withoutModel, db.models.get?_erase_of_ne h]

end Database

/-! ### What calls make of a record -/

/-- The tags of a table with more tags entered, in their order. -/
def enterTags (table : Table String (Option String)) (tags : List Tag) :
    Table String (Option String) :=
  tags.foldl (fun table tag => table.insert tag.key (some tag.value)) table

namespace ModelRecord

/-- The record after a change that is noted. -/
def touched (m : ModelRecord) (now : Int) : ModelRecord :=
  { m with lastUpdatedTime := bumped now m.lastUpdatedTime }

/-- The record of a model that is created. -/
def ofNew (now : Int) (description : Option String) (tags : List Tag) : ModelRecord :=
  { creationTime := now, lastUpdatedTime := now, description,
    tags := enterTags .empty (Models.firstPerKey tags), versions := .empty, aliases := .empty }

end ModelRecord

/-- The record of a version that is created. -/
def VersionRecord.ofNew (now : Int) (new : NewVersion) : VersionRecord :=
  { creationTime := now, lastUpdatedTime := now, description := new.description,
    userId := new.userId, stage := .none, source := new.source, runId := new.runId,
    runLink := new.runLink, status := VersionStatus.ready.stored, statusMessage := none,
    tags := enterTags .empty new.tags }

/-- A version after another one, or itself, has moved to a stage. -/
def VersionRecord.moved (now : Int) (version : Int) (stage : VersionStage) (archiveExisting : Bool)
    (w : Int) (v : VersionRecord) : VersionRecord :=
  if w == version then { v with stage, lastUpdatedTime := now }
  else if archiveExisting && v.stage == stage then
    { v with stage := .archived, lastUpdatedTime := now }
  else v

namespace Operation

/-- What a call asks of the record of the model that it changes. -/
def Accepts : Operation → ModelRecord → Prop
  | setAlias _ aliasName version, m => Rules.aliasName aliasName = .ok () ∧ m.IsLive version
  | createVersion _ _, m => inInt64 (Versions.nextNumber m) = true
  | transition _ version stage archiveExisting, m =>
    Versions.checkTransition stage archiveExisting = .ok () ∧ m.IsLive version
  | updateVersion _ version _, m | deleteVersion _ version, m | setVersionTag _ version _ _, m
  | deleteVersionTag _ version _, m => m.IsLive version
  | _, _ => True

/-- What a successful call makes of the record of the model that it changes, at the time `now`. -/
def amend (now : Int) : Operation → ModelRecord → ModelRecord
  | updateModel _ description, m => { m with description }.touched now
  | renameModel _ _, m =>
    { m.touched now with versions := m.versions.map fun _ v => { v with lastUpdatedTime := now } }
  | setModelTag _ key value, m => { m with tags := m.tags.insert key (some value) }
  | deleteModelTag _ key, m => { m with tags := m.tags.erase key }
  | setAlias _ aliasName version, m => { m with aliases := m.aliases.insert aliasName version }
  | deleteAlias _ aliasName, m => { m with aliases := m.aliases.erase aliasName }
  | createVersion _ new, m =>
    { m.touched now with
      versions := m.versions.insert (Versions.nextNumber m) (.ofNew now new) }
  | updateVersion _ version description, m =>
    { m with
      versions := m.versions.update version fun v => { v with description, lastUpdatedTime := now } }
  | transition _ version stage archiveExisting, m =>
    { m.touched now with
      versions := m.versions.map (VersionRecord.moved now version stage archiveExisting) }
  | deleteVersion _ version, m =>
    { m.touched now with
      aliases := m.aliases.filter fun _ bound => bound != version
      versions := m.versions.update version fun v => v.redacted now }
  | setVersionTag _ version key value, m =>
    { m with
      versions := m.versions.update version fun v =>
        { v with tags := v.tags.insert key (some value) } }
  | deleteVersionTag _ version key, m =>
    { m with versions := m.versions.update version fun v => { v with tags := v.tags.erase key } }
  | _, m => m

end Operation

/-! ### Statements on the record of a model -/

namespace Registry

variable {call : Call} {db : Database} {name : String} {m : ModelRecord}

theorem leads_putModel (name : String) (m : ModelRecord) :
    (putModel name m).Leads call db () (db.withModel name m) :=
  leads_modify _

theorem leads_putVersion (hm : db.models.get? name = some m) (version : Int) (v : VersionRecord) :
    (putVersion name version v).Leads call db ()
      (db.withModel name { m with versions := m.versions.insert version v }) := by
  have hupdate := Table.update_of_get? hm fun m =>
    { m with versions := m.versions.insert version v }
  rw [Database.withModel, ← hupdate]
  exact leads_modify _

theorem leads_alterModel (hm : db.models.get? name = some m) (f : ModelRecord → ModelRecord) :
    (alterModel name f).Leads call db () (db.withModel name (f m)) :=
  leads_bind (leads_ask (requireModel_eq_ok_iff.mpr hm)) <| leads_bind (leads_attempt _ _ _) <|
    leads_putModel _ _

theorem leads_touch (hm : db.models.get? name = some m) :
    (touch name).Leads call db () (db.withModel name (m.touched call.now)) :=
  leads_bind leads_read (leads_alterModel hm _)

theorem leads_alterVersions (call : Call) (hm : db.models.get? name = some m)
    (p : Int → VersionRecord → Bool) (f : VersionRecord → VersionRecord) :
    (alterVersions name p f).Leads call db () (db.withModel name
      { m with versions := m.versions.map fun version v => if p version v then f v else v }) :=
  leads_bind (leads_ask (requireModel_eq_ok_iff.mpr hm)) <| leads_bind (leads_attempt _ _ _) <|
    leads_putModel _ _

theorem leads_alterVersion (call : Call) (hm : db.models.get? name = some m) (version : Int)
    (f : VersionRecord → VersionRecord) :
    (alterVersion name version f).Leads call db ()
      (db.withModel name { m with versions := m.versions.update version f }) := by
  rw [alterVersion, Table.update_eq_map]
  have h := leads_alterVersions call hm (fun w _ => w == version) f
  simpa only [beq_iff_eq, Std.compare_eq_iff_eq] using h

end Registry

end RunLedger
