import RunLedger.Proofs.Registry.Change

/-!
# The rows of the registry

Five tables repeat the name of a model: its own row, the rows of its versions and of their tags, and
the rows of its tags and aliases. So each row of the registry belongs to the model whose name it
carries, and each table is put together model by model.

## Main definitions

* `TableName.ofRegistry`: the tables that repeat the name of a model.
* `ModelRecord.rowsIn`: the rows of one model in a table.

## Main results

* `ModelRecord.contains_name_of_mem_rowsIn`: the rows of a model carry its name, and no other.
* `Database.rows_of_mem_ofRegistry`, `Database.rows_perm`: the rows of all models.
-/

namespace RunLedger

/-- The tables whose rows carry the name of a model. -/
def TableName.ofRegistry : List TableName :=
  [.models, .modelTags, .versions, .versionTags, .aliases]

namespace ModelRecord

/-- The rows that a table of the registry has for a model. -/
def rowsIn (m : ModelRecord) (name : String) : TableName → List Row
  | .models => [m.row name]
  | .modelTags => m.tagRows name
  | .versions => m.versionRows name
  | .versionTags => m.versionTagRows name
  | .aliases => m.aliasRows name
  | _ => []

/-- The rows of a model carry its name, and no other. -/
theorem contains_name_of_mem_rowsIn {m : ModelRecord} {name : String} {table : TableName}
    {row : Row} (h : row ∈ m.rowsIn name table) (other : String) :
    row.contains ("name", .text other) = (other == name) := by
  rw [Bool.eq_iff_iff]
  cases table with
  | models =>
    obtain rfl := List.mem_singleton.mp h
    simp [ModelRecord.row]
  | modelTags =>
    obtain ⟨e, -, rfl⟩ := List.mem_map.mp h
    simp [modelTagRow]
  | versions =>
    obtain ⟨e, -, rfl⟩ := List.mem_map.mp h
    simp [VersionRecord.row]
  | versionTags =>
    obtain ⟨e, -, h⟩ := List.mem_flatMap.mp h
    obtain ⟨t, -, rfl⟩ := List.mem_map.mp h
    simp [versionTagRow]
  | aliases =>
    obtain ⟨e, -, rfl⟩ := List.mem_map.mp h
    simp [aliasRow]
  | _ => cases h

end ModelRecord

namespace Database

variable {db : Database} {name : String} {table : TableName}

/-- The rows of the registry, model by model. -/
theorem rows_of_mem_ofRegistry (h : table ∈ TableName.ofRegistry) (db : Database) :
    db.rows table = db.models.entries.flatMap fun (name, m) => m.rowsIn name table := by
  cases table with
  | models => exact List.map_eq_flatMap
  | modelTags | versions | versionTags | aliases => rfl
  | _ => exact absurd h (by decide)

/-- The rows of one model of the registry and those of the others. -/
theorem rows_perm {m : ModelRecord} (htable : table ∈ TableName.ofRegistry)
    (hm : db.models.get? name = some m) :
    (db.rows table).Perm (m.rowsIn name table ++ (db.withoutModel name).rows table) := by
  rw [rows_of_mem_ofRegistry htable, rows_of_mem_ofRegistry htable]
  exact (Table.entries_perm hm).flatMap_right _

end Database

end RunLedger
