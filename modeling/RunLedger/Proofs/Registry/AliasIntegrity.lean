import Mathlib.Data.Set.Insert
import RunLedger.Proofs.Registry.WellFormed

/-!
# Aliases

Nothing in the layout of the tables ties an alias to a version. It is up to the calls that an alias
is bound only to a version that is there and goes with it: the call that binds an alias looks the
version up first, the one that deletes a version drops its aliases, and a model keeps its aliases
under a new name and takes them along when it is deleted. So the three calls that answer with
aliases, by model, by version and by alias, answer with the same ones.

## Main definitions

* `Call.aliasesOfModel`, `Call.aliasesOfVersions`, `Call.aliasesThatResolve`: the aliases with their
  versions, as three calls answer with them.

## Main results

* `mem_aliasesOfModel`, `mem_aliasesOfVersions`, `mem_aliasesThatResolve`: each of them is what the
  model stores.
* `alias_read_paths_agree`: the three are the same, and every alias in them is in order.
-/

namespace RunLedger

open Work Registry

namespace Call

/-- The aliases that reading the model answers with, each with its version. -/
def aliasesOfModel (call : Call) (db : Database) (name : String) : Set (String × Int) :=
  {p | ∃ model db', (Operation.getModel name).run.Yields call db (.model model) db' ∧
    ⟨p.1, p.2⟩ ∈ model.aliases}

/-- The aliases that reading the versions of the model by number answers with, each with its
version. -/
def aliasesOfVersions (call : Call) (db : Database) (name : String) : Set (String × Int) :=
  {p | ∃ v db', (Operation.getVersion name p.2).run.Yields call db (.version v) db' ∧
    p.1 ∈ v.aliases}

/-- The aliases by which a version of the model can be read, each with its version. -/
def aliasesThatResolve (call : Call) (db : Database) (name : String) : Set (String × Int) :=
  {p | ∃ v db', (Operation.getByAlias name p.1).run.Yields call db (.version v) db' ∧
    v.version = p.2}

end Call

section ReadPaths

variable {call : Call} {db : Database} {name aliasName : String} {k : Int} {m : ModelRecord}
  (hwell : m.WellFormed) (hm : db.models.get? name = some m) (hcall : call.Unhindered)

include hwell hm hcall

theorem mem_aliasesOfModel :
    (aliasName, k) ∈ call.aliasesOfModel db name ↔ m.aliases.get? aliasName = some k := by
  rw [← ModelRecord.mem_aliasBindings]
  constructor
  · rintro ⟨model, db', hmodel, hmem⟩
    obtain ⟨-, -, hload, -⟩ := Operation.yields_getModel.mp hmodel
    obtain ⟨u, versions, hu, -, rfl⟩ := loadModel_eq_ok_iff.mp hload
    obtain rfl := Option.some.inj (hm.symm.trans hu)
    exact hmem
  · intro hmem
    obtain ⟨model, hmodel, -, haliases⟩ := hwell.exists_yields_getModel hm hcall
    exact ⟨model, db, hmodel, haliases ▸ hmem⟩

theorem mem_aliasesOfVersions :
    (aliasName, k) ∈ call.aliasesOfVersions db name ↔ m.aliases.get? aliasName = some k := by
  rw [← ModelRecord.mem_aliasesOf]
  constructor
  · rintro ⟨v, db', hv, hmem⟩
    obtain ⟨-, -, hload, -⟩ := Operation.yields_getVersion.mp hv
    obtain ⟨u, record, entity, hfound, -, rfl⟩ := loadVersion_eq_ok_iff.mp hload
    obtain rfl := Option.some.inj (hm.symm.trans (findVersion?_eq_some_iff.mp hfound).1)
    exact hmem
  · intro hmem
    obtain ⟨-, hlive⟩ := hwell.aliases aliasName k (ModelRecord.mem_aliasesOf.mp hmem)
    obtain ⟨v, hload, haliases⟩ := hwell.exists_loadVersion hm hlive
    exact ⟨v, db, Operation.yields_getVersion.mpr
      ⟨hcall.entry, hcall.hidden .versions, hload, rfl⟩, haliases ▸ hmem⟩

theorem mem_aliasesThatResolve :
    (aliasName, k) ∈ call.aliasesThatResolve db name ↔ m.aliases.get? aliasName = some k := by
  constructor
  · rintro ⟨v, db', hv, rfl⟩
    obtain ⟨-, -, -, hresolve, -⟩ := Operation.yields_getByAlias.mp hv
    obtain ⟨u, version, hu, hbound, hload⟩ := Aliases.resolve_eq_ok_iff.mp hresolve
    obtain rfl := Option.some.inj (hm.symm.trans hu)
    rwa [version_of_loadVersion hload]
  · intro hbound
    obtain ⟨hrule, hlive⟩ := hwell.aliases aliasName k hbound
    obtain ⟨v, hload, -⟩ := hwell.exists_loadVersion hm hlive
    have hresolve := Aliases.resolve_eq_ok_iff.mpr ⟨m, k, hm, hbound, hload⟩
    exact ⟨v, db, Operation.yields_getByAlias.mpr
      ⟨hrule, hcall.entry, hcall.hidden .models, hresolve, rfl⟩, version_of_loadVersion hload⟩

end ReadPaths

/-- The names of the aliases of a model are distinct. -/
theorem ModelRecord.nodup_aliasBindings (m : ModelRecord) :
    (m.aliasBindings.map AliasBinding.name).Nodup := by
  have hnames : m.aliasBindings.map AliasBinding.name = m.aliases.keys := by
    rw [aliasBindings, List.map_map, Table.keys]
    rfl
  rw [hnames]
  exact m.aliases.nodup_keys

/-- **The read paths of aliases agree, and every alias is in order.** In every database that calls
lead to, for every registered model and whatever calls read it: the aliases that the model is read
with, those that its versions are read with, and those by which its versions are read, each with its
version, are the same, namely those stored. None of them occurs with two versions, each keeps the
rules, and its version is stored and not deleted. -/
theorem alias_read_paths_agree {db : Database} (hdb : Reachable db) {name : String}
    {m : ModelRecord} (hm : db.models.get? name = some m) {call₁ call₂ call₃ : Call}
    (h₁ : call₁.Unhindered) (h₂ : call₂.Unhindered) (h₃ : call₃.Unhindered) :
    call₁.aliasesOfModel db name = call₂.aliasesOfVersions db name ∧
    call₁.aliasesOfModel db name = call₃.aliasesThatResolve db name ∧
    call₁.aliasesOfModel db name = {p | m.aliases.get? p.1 = some p.2} ∧
    (∃ model, (Operation.getModel name).run.Yields call₁ db (.model model) db ∧
      (model.aliases.map AliasBinding.name).Nodup) ∧
    ∀ aliasName k, (aliasName, k) ∈ call₁.aliasesOfModel db name →
      (∀ k', (aliasName, k') ∈ call₁.aliasesOfModel db name → k' = k) ∧
      Rules.aliasName aliasName = .ok () ∧ m.IsLive k := by
  have hwell : m.WellFormed := hdb.wellFormed hm
  refine ⟨?_, ?_, ?_, ?_, ?_⟩
  · ext ⟨aliasName, k⟩
    rw [mem_aliasesOfModel hwell hm h₁, mem_aliasesOfVersions hwell hm h₂]
  · ext ⟨aliasName, k⟩
    rw [mem_aliasesOfModel hwell hm h₁, mem_aliasesThatResolve hwell hm h₃]
  · ext ⟨aliasName, k⟩
    rw [mem_aliasesOfModel hwell hm h₁, Set.mem_ofPred_eq]
  · obtain ⟨model, hmodel, -, haliases⟩ := hwell.exists_yields_getModel hm h₁
    exact ⟨model, hmodel, haliases ▸ m.nodup_aliasBindings⟩
  · intro aliasName k hmem
    have hbound := (mem_aliasesOfModel hwell hm h₁).mp hmem
    obtain ⟨hrule, hlive⟩ := hwell.aliases aliasName k hbound
    refine ⟨fun k' hmem' => ?_, hrule, hlive⟩
    have hbound' := (mem_aliasesOfModel hwell hm h₁).mp hmem'
    exact Option.some.inj (hbound'.symm.trans hbound)

/-- An alias is moved to the second version, another one stays with the first until that is deleted,
and the model is renamed. -/
private def aliasMoved : List (Call × Operation) :=
  [(.plain, .createModel "m" none []), (.plain, .createVersion "m" (.ofTags [])),
    (.plain, .createVersion "m" (.ofTags [])), (.plain, .setAlias "m" "champion" 1),
    (.plain, .setAlias "m" "champion" 2), (.plain, .setAlias "m" "baseline" 1),
    (.plain, .deleteVersion "m" 1), (.plain, .renameModel "m" "n")]

/-- After these calls all read paths know one alias, that of the second version. -/
theorem moved_alias_is_read_everywhere :
    let db := (Operation.performAll aliasMoved .empty).2
    Reachable db ∧ Call.plain.aliasesOfModel db "n" = {("champion", 2)} ∧
      Call.plain.aliasesOfVersions db "n" = {("champion", 2)} ∧
      Call.plain.aliasesThatResolve db "n" = {("champion", 2)} := by
  intro db
  have hdb : Reachable db := ⟨aliasMoved, rfl⟩
  have hstored : (db.models.get? "n").map (fun m => m.aliases.entries) =
      some [("champion", 2)] := by decide +kernel
  obtain ⟨m, hm, hentries⟩ := Option.map_eq_some_iff.mp hstored
  have hcall := Call.plain_undisturbed.unhindered
  obtain ⟨hversions, hresolve, hmodel, -⟩ := alias_read_paths_agree hdb hm hcall hcall hcall
  have hbound : {p : String × Int | m.aliases.get? p.1 = some p.2} = {("champion", 2)} := by
    ext ⟨aliasName, k⟩
    rw [Set.mem_ofPred_eq, ← Table.mem_entries_iff, hentries]
    simp
  rw [hbound] at hmodel
  exact ⟨hdb, hmodel, hversions ▸ hmodel, hresolve ▸ hmodel⟩

end RunLedger
