import RunLedger.Proofs.Registry.Rows

/-!
# The foreign keys of the registry

Rows of the registry refer to rows of other tables: versions, and the tags and aliases of a model,
to the row of the model, and the tags of a version to the row of the version. A statement fails that
takes away a row to which another one refers. So the statements that delete a model have to come in
the right order: each may take away the rows of the model in one table only after those of all
tables that refer to it. The statements that rename a model cannot come in such an order, since the
first one that changes the name in one table parts its rows from those that refer to them; for them
it is only looked when they commit whether every row has the row that it refers to.

## Main definitions

* `ForeignKey`, `ForeignKey.ofRegistry`, `ForeignKey.Refers`: which rows refer to which.
* `ForeignKey.Hold`: every row has the row that it refers to.
* `ModelRecord.deletions`: what the statements that delete a model take away, in their order.
* `Models.deleteBy`: the deletion of a model by given statements.
* `Registry.deleteRows`, `Registry.KeepsKeys`: deletions that never take away a row to which one
  refers that is still there.
* `Registry.updateRows`: what a statement makes of the rows that it updates.

## Main results

* `ForeignKey.hold_rows`: every row of the registry has the row that it refers to.
* `Models.delete_eq`: the statements that delete a model.
* `ModelRecord.keepsKeys_deletions`: none of them takes away a row to which another one refers.
* `Registry.foldl_updateRows`: what updates of several tables come to.
-/

namespace RunLedger

open Work Registry

/-- Rows of the table `child` refer to the rows of the table `parent` that hold the same in some
columns. -/
structure ForeignKey where
  child : TableName
  parent : TableName
  columns : List String
deriving DecidableEq

namespace ForeignKey

/-- The foreign keys of the five tables of the registry. -/
def ofRegistry : List ForeignKey :=
  [{ child := .modelTags, parent := .models, columns := ["name"] },
    { child := .versions, parent := .models, columns := ["name"] },
    { child := .versionTags, parent := .versions, columns := ["name", "version"] },
    { child := .aliases, parent := .models, columns := ["name"] }]

/-- A row refers to another one. -/
def Refers (key : ForeignKey) (row target : Row) : Prop :=
  ∀ column ∈ key.columns, ∃ cell, (column, cell) ∈ row ∧ (column, cell) ∈ target

/-- Every row has the row that it refers to. -/
def Hold (stored : TableName → List Row) : Prop :=
  ∀ key ∈ ofRegistry, ∀ row ∈ stored key.child, ∃ target ∈ stored key.parent, key.Refers row target

/-- The order of the rows does not count. -/
theorem Hold.of_perm {stored stored' : TableName → List Row} (h : Hold stored)
    (hperm : ∀ table, (stored table).Perm (stored' table)) : Hold stored' := by
  intro key hkey row hrow
  obtain ⟨target, htarget, hrefers⟩ := h key hkey row ((hperm key.child).mem_iff.mpr hrow)
  exact ⟨target, (hperm key.parent).mem_iff.mp htarget, hrefers⟩

/-- **Every row of the registry has the row that it refers to.** -/
theorem hold_rows (db : Database) : Hold db.rows := by
  intro key hkey row hrow
  have hmodel {name : String} {m : ModelRecord} (hm : (name, m) ∈ db.models.entries) :
      m.row name ∈ db.rows .models := List.mem_map.mpr ⟨_, hm, rfl⟩
  simp only [ofRegistry, List.mem_cons, List.not_mem_nil, or_false] at hkey
  rcases hkey with rfl | rfl | rfl | rfl
  · obtain ⟨⟨name, m⟩, hm, hrow⟩ := List.mem_flatMap.mp hrow
    obtain ⟨e, -, rfl⟩ := List.mem_map.mp hrow
    exact ⟨_, hmodel hm, by simp [Refers, modelTagRow, ModelRecord.row]⟩
  · obtain ⟨⟨name, m⟩, hm, hrow⟩ := List.mem_flatMap.mp hrow
    obtain ⟨e, -, rfl⟩ := List.mem_map.mp hrow
    exact ⟨_, hmodel hm, by simp [Refers, VersionRecord.row, ModelRecord.row]⟩
  · obtain ⟨⟨name, m⟩, hm, hrow⟩ := List.mem_flatMap.mp hrow
    obtain ⟨⟨version, v⟩, hv, hrow⟩ := List.mem_flatMap.mp hrow
    obtain ⟨e, -, rfl⟩ := List.mem_map.mp hrow
    refine ⟨v.row name version, List.mem_flatMap.mpr ⟨_, hm, List.mem_map.mpr ⟨_, hv, rfl⟩⟩, ?_⟩
    simp [Refers, versionTagRow, VersionRecord.row]
  · obtain ⟨⟨name, m⟩, hm, hrow⟩ := List.mem_flatMap.mp hrow
    obtain ⟨e, -, rfl⟩ := List.mem_map.mp hrow
    exact ⟨_, hmodel hm, by simp [Refers, aliasRow, ModelRecord.row]⟩

end ForeignKey

/-! ### Statements that delete -/

/-- The rows of a model that the statements of its deletion take away, table by table. -/
def ModelRecord.deletions (m : ModelRecord) (name : String) : List (TableName × List Row) :=
  [.versionTags, .versions, .modelTags, .aliases, .models].map fun table =>
    (table, m.rowsIn name table)

/-- Deletes a model by statements that take away its rows: two of them, and after the context was
consulted the others. -/
def Models.deleteBy (statements : ModelRecord → List (TableName × List Row)) (name : String) :
    Work Unit :=
  within "error deleting registered model" <| transact "delete_registered_model" do
    let m ← ask (requireModel name)
    ((statements m).take 2).forM fun (table, rows) => attempt .delete table rows
    putModel name { m with versions := .empty }
    checkpoint "delete_registered_model" (.inside 0)
    ((statements m).drop 2).forM fun (table, rows) => attempt .delete table rows
    modify fun db => { db with models := db.models.erase name }

/-- **The statements that delete a model.** -/
theorem Models.delete_eq (name : String) :
    delete name = deleteBy (fun m => m.deletions name) name := by
  simp [delete, deleteBy, ModelRecord.deletions, ModelRecord.rowsIn]

namespace Registry

/-- The rows of all tables once some rows of one table are deleted. -/
def deleteRows (stored : TableName → List Row) (table : TableName) (rows : List Row) :
    TableName → List Row :=
  Function.update stored table ((stored table).filter fun row => !rows.contains row)

/-- No deletion takes away a row to which a row refers that is still there. -/
def KeepsKeys : (TableName → List Row) → List (TableName × List Row) → Prop
  | _, [] => True
  | stored, (table, rows) :: rest =>
    (∀ key ∈ ForeignKey.ofRegistry, key.parent = table →
      ∀ row ∈ stored key.child, ∀ target ∈ rows, ¬ key.Refers row target) ∧
    KeepsKeys (deleteRows stored table rows) rest

end Registry

namespace ModelRecord

variable {m : ModelRecord} {name : String} {db : Database} {table : TableName} {row : Row}

/-- The name in a row of a model is that of the model. -/
theorem cell_of_mem_rowsIn (h : row ∈ m.rowsIn name table) {cell : Cell}
    (hcell : ("name", cell) ∈ row) : cell = .text name := by
  cases table with
  | models =>
    obtain rfl := List.mem_singleton.mp h
    simpa [ModelRecord.row] using hcell
  | modelTags =>
    obtain ⟨e, -, rfl⟩ := List.mem_map.mp h
    simpa [modelTagRow] using hcell
  | versions =>
    obtain ⟨e, -, rfl⟩ := List.mem_map.mp h
    simpa [VersionRecord.row] using hcell
  | versionTags =>
    obtain ⟨e, -, h⟩ := List.mem_flatMap.mp h
    obtain ⟨t, -, rfl⟩ := List.mem_map.mp h
    simpa [versionTagRow] using hcell
  | aliases =>
    obtain ⟨e, -, rfl⟩ := List.mem_map.mp h
    simpa [aliasRow] using hcell
  | _ => cases h

/-- What refers to a row of a model carries its name. -/
theorem contains_name_of_refers {key : ForeignKey} (hkey : key ∈ ForeignKey.ofRegistry)
    {target : Row} (htarget : target ∈ m.rowsIn name table) (h : key.Refers row target) :
    row.contains ("name", .text name) = true := by
  have hname : ∀ key ∈ ForeignKey.ofRegistry, "name" ∈ key.columns := by decide
  obtain ⟨cell, hcell, hsame⟩ := h "name" (hname key hkey)
  rw [cell_of_mem_rowsIn htarget hsame] at hcell
  exact List.contains_iff_mem.mpr hcell

/-- The rows that carry the name of a model are its rows. -/
theorem contains_rowsIn (hm : db.models.get? name = some m)
    (htable : table ∈ TableName.ofRegistry) (hrow : row ∈ db.rows table) :
    (m.rowsIn name table).contains row = row.contains ("name", .text name) := by
  rw [Database.rows_of_mem_ofRegistry htable] at hrow
  obtain ⟨⟨other, u⟩, hu, hrow⟩ := List.mem_flatMap.mp hrow
  rw [Bool.eq_iff_iff, contains_name_of_mem_rowsIn hrow, List.contains_iff_mem]
  constructor
  · intro h
    rw [← contains_name_of_mem_rowsIn hrow, contains_name_of_mem_rowsIn h]
    exact beq_self_eq_true name
  · intro h
    obtain rfl := beq_iff_eq.mp h
    obtain rfl := Option.some.inj (hm.symm.trans (Table.mem_entries_iff.mp hu))
    exact hrow

/-- Deletions of the rows of a model, table by table, keep the foreign keys if no table comes before
one whose rows refer to its rows. The induction is on the tables that are left: those that refer to
one of them are among them, or have no row of the model any more. -/
theorem keepsKeys_of_pairwise (hm : db.models.get? name = some m) {tables : List TableName}
    (htables : tables ⊆ TableName.ofRegistry)
    (horder : tables.Pairwise fun table later =>
      ∀ key ∈ ForeignKey.ofRegistry, key.parent = table → key.child ≠ later)
    {stored : TableName → List Row} (hstored : ∀ table, stored table ⊆ db.rows table)
    (hleft : ∀ key ∈ ForeignKey.ofRegistry, key.parent ∈ tables → key.child ∈ tables ∨
      ∀ row ∈ stored key.child, row.contains ("name", .text name) = false) :
    KeepsKeys stored (tables.map fun table => (table, m.rowsIn name table)) := by
  induction tables generalizing stored with
  | nil => trivial
  | cons table tables ih =>
    obtain ⟨hfirst, horder⟩ := List.pairwise_cons.mp horder
    obtain ⟨htable, htables⟩ := List.cons_subset.mp htables
    have hself : ∀ key ∈ ForeignKey.ofRegistry, key.child ≠ key.parent := by decide
    have hkept (other : TableName) :
        deleteRows stored table (m.rowsIn name table) other ⊆ stored other := by
      rw [deleteRows, Function.update_apply]
      split
      · next h =>
        subst h
        exact List.filter_sublist.subset
      · exact List.Subset.refl _
    refine ⟨?_, ih htables horder (fun other => List.Subset.trans (hkept other) (hstored other)) ?_⟩
    · intro key hkey hparent row hrow target htarget hrefers
      have hcarries := contains_name_of_refers hkey htarget hrefers
      rcases hleft key hkey (hparent ▸ List.mem_cons_self) with hchild | hclean
      · rcases List.mem_cons.mp hchild with hchild | hchild
        · exact hself key hkey (hchild.trans hparent.symm)
        · exact hfirst key.child hchild key hkey hparent rfl
      · rw [hclean row hrow] at hcarries
        cases hcarries
    · intro key hkey hparent
      rcases hleft key hkey (List.mem_cons_of_mem _ hparent) with hchild | hclean
      · rcases List.mem_cons.mp hchild with hchild | hchild
        · right
          intro row hrow
          rw [hchild, deleteRows, Function.update_self, List.mem_filter] at hrow
          rw [← contains_rowsIn hm htable (hstored table hrow.1)]
          simpa using hrow.2
        · exact .inl hchild
      · exact .inr fun row hrow => hclean row (hkept _ hrow)

/-- **No statement of a deletion takes away a row to which another one refers.** -/
theorem keepsKeys_deletions (hm : db.models.get? name = some m) :
    KeepsKeys db.rows (m.deletions name) :=
  keepsKeys_of_pairwise hm (by decide) (by decide) (fun _ => List.Subset.refl _)
    fun key hkey hparent => .inl <| by
      revert key
      decide

end ModelRecord

/-! ### Statements that update -/

namespace Registry

/-- The rows of all tables once those of one table are updated. -/
def updateRows (stored : TableName → List Row) (table : TableName) (f : Row → Row) :
    TableName → List Row :=
  Function.update stored table ((stored table).map f)

/-- **Updates of several tables**, of each one once, change the rows of these tables and no
others. -/
theorem foldl_updateRows (f : TableName → Row → Row) {tables : List TableName}
    (htables : tables.Nodup) (stored : TableName → List Row) (table : TableName) :
    tables.foldl (fun stored table => updateRows stored table (f table)) stored table =
      if table ∈ tables then (stored table).map (f table) else stored table := by
  induction tables generalizing stored with
  | nil => rfl
  | cons first tables ih =>
    obtain ⟨hfirst, htables⟩ := List.nodup_cons.mp htables
    rw [List.foldl_cons, ih htables, updateRows]
    by_cases hsame : table = first
    · subst hsame
      rw [if_neg hfirst, if_pos List.mem_cons_self, Function.update_self]
    · rw [Function.update_of_ne hsame]
      simp only [List.mem_cons, or_iff_right hsame]

end Registry

end RunLedger
