import RunLedger.Proofs.Registry.Renaming

/-!
# Other names for the models

The names of registered models can be exchanged for others throughout: in the tables of the
registry, in the faults that pick out rows by a name, in calls, and in what calls answer or fail
with. A table keeps the order of its keys, so under other names its entries stand in another order;
what is found at a key is what was found at the key before.

## Main definitions

* `Table.relabel`, `Database.relabel`: the tables with other names of models.
* `Row.relabel`, `Fault.relabel`, `Call.relabel`: rows, and faults that pick them out.
* `Operation.relabel`, `Answer.relabel`, `StoreError.relabel`: calls, and what becomes of them.

## Main results

* `Table.get?_relabel`: what is found under the other name.
* `ModelRecord.rowsIn_relabel`: the rows of a model carry its other name.
* `Fault.hits_relabel`: a fault hits a row under other names if it hits the row.
-/

namespace RunLedger

/-! ### Tables -/

namespace Table

variable {ρ : Type}

/-- The table with every key exchanged for another. -/
def relabel (π : Equiv.Perm String) (t : Table String ρ) : Table String ρ :=
  t.entries.foldl (fun t e => t.insert (π e.1) e.2) .empty

variable (π : Equiv.Perm String) (t : Table String ρ) (name : String)

/-- **What is found under the other name** is what was found under the name. -/
@[simp] theorem get?_relabel : (t.relabel π).get? (π name) = t.get? name := by
  suffices ∀ es : List (String × ρ), es.Pairwise (fun a b => compare a.1 b.1 = .lt) →
      ∀ s : Table String ρ, (es.foldl (fun s e => s.insert (π e.1) e.2) s).get? (π name) =
        (find? name es).or (s.get? (π name)) by
    rw [relabel, this t.entries t.increasing, get?_empty, Option.or_none, get?]
  intro es hes
  induction es with
  | nil => exact fun s => rfl
  | cons e es ih =>
    obtain ⟨key, v⟩ := e
    obtain ⟨hkey, hes⟩ := List.pairwise_cons.mp hes
    intro s
    rw [List.foldl_cons, ih hes, find?]
    by_cases hname : name = key
    · subst hname
      rw [find?_eq_none hkey, Option.none_or, get?_insert_self, if_pos Std.compare_self,
        Option.some_or]
    · rw [get?_insert_of_ne s (π.injective.ne hname),
        if_neg (mt Std.LawfulEqCmp.eq_of_compare hname)]

variable {π t}

/-- A table is determined by what is found under the other names. -/
theorem ext_get?_relabel {s t : Table String ρ} (h : ∀ name, s.get? (π name) = t.get? (π name)) :
    s = t := by
  refine ext_get? fun name => ?_
  rw [← π.apply_symm_apply name]
  exact h _

theorem relabel_insert (π : Equiv.Perm String) (t : Table String ρ) (name : String) (v : ρ) :
    (t.insert name v).relabel π = (t.relabel π).insert (π name) v := by
  refine ext_get?_relabel (π := π) fun other => ?_
  by_cases hother : other = name
  · subst hother
    rw [get?_relabel, get?_insert_self, get?_insert_self]
  · rw [get?_relabel, get?_insert_of_ne _ hother, get?_insert_of_ne _ (π.injective.ne hother),
      get?_relabel]

theorem relabel_erase (π : Equiv.Perm String) (t : Table String ρ) (name : String) :
    (t.erase name).relabel π = (t.relabel π).erase (π name) := by
  refine ext_get?_relabel (π := π) fun other => ?_
  by_cases hother : other = name
  · subst hother
    rw [get?_relabel, get?_erase_self, get?_erase_self]
  · rw [get?_relabel, get?_erase_of_ne _ hother, get?_erase_of_ne _ (π.injective.ne hother),
      get?_relabel]

theorem relabel_update (π : Equiv.Perm String) (t : Table String ρ) (name : String) (f : ρ → ρ) :
    (t.update name f).relabel π = (t.relabel π).update (π name) f := by
  rw [update, update, get?_relabel]
  cases t.get? name with
  | none => rfl
  | some v => exact relabel_insert π t name (f v)

/-- Exchanging the keys of a table that is not about them changes nothing. -/
theorem relabel_eq_self (h : ∀ name, t.get? (π name) = t.get? name) : t.relabel π = t :=
  ext_get?_relabel (π := π) fun name => by rw [get?_relabel, h]

end Table

/-- The database with other names of models. -/
def Database.relabel (π : Equiv.Perm String) (db : Database) : Database :=
  { db with models := db.models.relabel π }

/-! ### Rows and faults -/

/-- The text in a column of a table, where the column that holds the names of models holds other
names. -/
def TableName.relabel (π : Equiv.Perm String) (table : TableName) (column s : String) : String :=
  if table ∈ ofRegistry ∧ column = "name" then π s else s

theorem TableName.relabel_inj {π : Equiv.Perm String} {table : TableName} {column s t : String} :
    table.relabel π column s = table.relabel π column t ↔ s = t := by
  rw [relabel, relabel]
  split
  · exact π.apply_eq_iff_eq
  · rfl

/-- The content of a column of a table with other names of models. -/
def Cell.relabel (π : Equiv.Perm String) (table : TableName) (column : String) : Cell → Cell
  | .text s => .text (table.relabel π column s)
  | cell => cell

/-- The row of a table with another name of the model that it is about. -/
def Row.relabel (π : Equiv.Perm String) (table : TableName) (row : Row) : Row :=
  row.map fun (column, cell) => (column, cell.relabel π table column)

/-- The fault that picks out the same rows under other names of models. -/
def Fault.relabel (π : Equiv.Perm String) (f : Fault) : Fault :=
  { f with condition := f.condition.map fun (column, s) => (column, f.table.relabel π column s) }

/-- The call with faults that pick out the same rows under other names of models. -/
def Call.relabel (π : Equiv.Perm String) (call : Call) : Call :=
  { call with faults := call.faults.map (Fault.relabel π) }

section Rows

variable {π : Equiv.Perm String} {table : TableName}

/-- Columns that hold no names of models stay as they are. -/
theorem Cell.relabel_eq_self {column : String}
    (h : ¬ (table ∈ TableName.ofRegistry ∧ column = "name")) (cell : Cell) :
    cell.relabel π table column = cell := by
  cases cell with
  | text s => rw [relabel, TableName.relabel, if_neg h]
  | null | int _ | real _ => rfl

theorem Cell.relabel_of_ne {column : String} (h : column ≠ "name") (cell : Cell) :
    cell.relabel π table column = cell :=
  relabel_eq_self (fun h' => h h'.2) cell

theorem Cell.relabel_name (h : table ∈ TableName.ofRegistry) (name : String) :
    (Cell.text name).relabel π table "name" = .text (π name) := by
  rw [relabel, TableName.relabel, if_pos ⟨h, rfl⟩]

theorem Row.relabel_eq_self (htable : table ∉ TableName.ofRegistry) (row : Row) :
    row.relabel π table = row := by
  refine (List.map_congr_left fun cell _ => ?_).trans (List.map_id row)
  exact Prod.ext rfl (Cell.relabel_eq_self (fun h => htable h.1) cell.2)

/-- A row has a text in a column if it has the other text there under other names. -/
theorem Row.contains_relabel (row : Row) (column s : String) :
    (row.relabel π table).contains (column, .text (table.relabel π column s)) =
      row.contains (column, .text s) := by
  rw [Bool.eq_iff_iff, List.contains_iff_mem, List.contains_iff_mem, relabel, List.mem_map]
  constructor
  · rintro ⟨⟨column', cell⟩, hmem, heq⟩
    cases cell with
    | text s' =>
      obtain ⟨rfl, hs⟩ := Prod.mk.inj heq
      rwa [← TableName.relabel_inj.mp (Cell.text.inj hs)]
    | null | int _ | real _ => cases heq
  · exact fun hmem => ⟨_, hmem, rfl⟩

/-- The rows of the registry carry the other name of their model. -/
theorem ModelRecord.row_relabel (π : Equiv.Perm String) (m : ModelRecord) (name : String) :
    m.row (π name) = (m.row name).relabel π .models := by
  simp (disch := decide) [row, Row.relabel, Cell.relabel_name, Cell.relabel_of_ne]

theorem VersionRecord.row_relabel (π : Equiv.Perm String) (v : VersionRecord) (name : String)
    (version : Int) : v.row (π name) version = (v.row name version).relabel π .versions := by
  simp (disch := decide) [row, Row.relabel, Cell.relabel_name, Cell.relabel_of_ne]

theorem modelTagRow_relabel (π : Equiv.Perm String) (name key : String) (value : Option String) :
    modelTagRow (π name) key value = (modelTagRow name key value).relabel π .modelTags := by
  simp (disch := decide) [modelTagRow, Row.relabel, Cell.relabel_name, Cell.relabel_of_ne]

theorem versionTagRow_relabel (π : Equiv.Perm String) (name : String) (version : Int)
    (key : String) (value : Option String) :
    versionTagRow (π name) version key value =
      (versionTagRow name version key value).relabel π .versionTags := by
  simp (disch := decide) [versionTagRow, Row.relabel, Cell.relabel_name, Cell.relabel_of_ne]

theorem aliasRow_relabel (π : Equiv.Perm String) (name aliasName : String) (version : Int) :
    aliasRow (π name) aliasName version =
      (aliasRow name aliasName version).relabel π .aliases := by
  simp (disch := decide) [aliasRow, Row.relabel, Cell.relabel_name, Cell.relabel_of_ne]

theorem Row.map_relabel {α : Type} {r r' : α → Row} (h : ∀ x, r' x = (r x).relabel π table)
    (xs : List α) : xs.map r' = (xs.map r).map (Row.relabel π table) := by
  rw [List.map_map]
  exact List.map_congr_left fun x _ => h x

/-- **The rows of a model carry its other name.** -/
theorem ModelRecord.rowsIn_relabel (π : Equiv.Perm String) (m : ModelRecord) (name : String)
    (table : TableName) :
    m.rowsIn (π name) table = (m.rowsIn name table).map (Row.relabel π table) := by
  cases table with
  | models => exact congrArg List.singleton (m.row_relabel π name)
  | modelTags => exact Row.map_relabel (fun _ => modelTagRow_relabel π name _ _) _
  | versions => exact Row.map_relabel (fun e => e.2.row_relabel π name e.1) _
  | versionTags =>
    refine (List.flatMap_congr fun e _ => ?_).trans List.map_flatMap.symm
    exact Row.map_relabel (fun _ => versionTagRow_relabel π name _ _ _) _
  | aliases => exact Row.map_relabel (fun _ => aliasRow_relabel π name _ _) _
  | _ => rfl

end Rows

/-- **A fault hits a row under other names if it hits the row.** -/
theorem Fault.hits_relabel (π : Equiv.Perm String) (f : Fault) (kind : StatementKind)
    (table : TableName) (row : Row) :
    (f.relabel π).hits kind table (row.relabel π table) = f.hits kind table row := by
  obtain ⟨kind', table', condition⟩ := f
  by_cases htable : table' = table
  · subst htable
    cases condition with
    | none => rfl
    | some c => simp only [hits, Fault.relabel, Option.map_some, Row.contains_relabel]
  · have hmiss (condition : Option (String × String)) (row : Row) :
        (Fault.mk kind' table' condition).hits kind table row = false := by
      simp [hits, htable]
    exact (hmiss _ _).trans (hmiss _ _).symm

/-! ### Calls, and what becomes of them -/

/-- The error with other names of models. -/
def StoreError.relabel (π : Equiv.Perm String) : StoreError → StoreError
  | modelNotFound name => modelNotFound (π name)
  | versionNotFound name version => versionNotFound (π name) version
  | modelExists name existingIsPrompt newIsPrompt =>
    modelExists (π name) existingIsPrompt newIsPrompt
  | inActivity activity cause => inActivity activity (cause.relabel π)
  | e => e

/-- The version with another name of its model. -/
def ModelVersion.relabel (π : Equiv.Perm String) (v : ModelVersion) : ModelVersion :=
  { v with name := π v.name }

/-- The model with another name. -/
def RegisteredModel.relabel (π : Equiv.Perm String) (m : RegisteredModel) : RegisteredModel :=
  { m with name := π m.name, latestVersions := m.latestVersions.map (ModelVersion.relabel π) }

/-- The answer with other names of models. -/
def Answer.relabel (π : Equiv.Perm String) : Answer → Answer
  | model m => model (m.relabel π)
  | version v => version (v.relabel π)
  | versions vs => versions (vs.map (ModelVersion.relabel π))
  | answer => answer

/-- The call on models of other names. -/
def Operation.relabel (π : Equiv.Perm String) : Operation → Operation
  | createModel name description tags => createModel (π name) description tags
  | getModel name => getModel (π name)
  | updateModel name description => updateModel (π name) description
  | renameModel name newName => renameModel (π name) (π newName)
  | deleteModel name => deleteModel (π name)
  | setModelTag name key value => setModelTag (π name) key value
  | deleteModelTag name key => deleteModelTag (π name) key
  | setAlias name aliasName version => setAlias (π name) aliasName version
  | deleteAlias name aliasName => deleteAlias (π name) aliasName
  | getByAlias name aliasName => getByAlias (π name) aliasName
  | createVersion name new => createVersion (π name) new
  | getVersion name version => getVersion (π name) version
  | latestVersions name stages => latestVersions (π name) stages
  | updateVersion name version description => updateVersion (π name) version description
  | transition name version stage archiveExisting =>
    transition (π name) version stage archiveExisting
  | deleteVersion name version => deleteVersion (π name) version
  | setVersionTag name version key value => setVersionTag (π name) version key value
  | deleteVersionTag name version key => deleteVersionTag (π name) version key
  | operation => operation

theorem StoreError.code_relabel (π : Equiv.Perm String) (e : StoreError) :
    (e.relabel π).code = e.code := by
  cases e <;> rfl

theorem StoreError.during_relabel (π : Equiv.Perm String) (activity : String) (e : StoreError) :
    (e.relabel π).during activity = (e.during activity).relabel π := by
  rw [during, during, code_relabel]
  split <;> rfl

/-- A version is read under another name of its model as it is read under the name. -/
theorem VersionRecord.entity?_relabel (π : Equiv.Perm String) (v : VersionRecord) (name : String)
    (version : Int) :
    v.entity? (π name) version = (v.entity? name version).map (ModelVersion.relabel π) := by
  rw [entity?, entity?, Option.map_map]
  rfl

end RunLedger
