import RunLedger.Proofs.Registry.Change
import RunLedger.Proofs.Text.ByteOrder

/-!
# Tags as finite maps

A tag table is a finite map from keys to values, whatever calls have entered into it and in whatever
order. The tags that are read list this map once, in the order of the bytes of the keys. Tags given
on creation can repeat a key; of a registered model the first one stays, of a version or an
experiment the last.

## Main definitions

* `TagMap`: the value at each key, if there is one.
* `TagMap.ofTable`: the map that a table holds.
* `TagMap.ofFirst`, `TagMap.ofLast`: the maps that a list of tags stands for.
* `TagMap.IsListed`: tags list a map by key.

## Main results

* `TagMap.isListed_readTags`: the tags read from a table list its map.
* `TagMap.ofTable_enterTags`, `TagMap.ofLast_firstPerKey`: what entering tags makes of a map.
-/

namespace RunLedger

/-- The value of a tag by its key, if it is set. -/
abbrev TagMap := String → Option String

namespace TagMap

/-- The map that a table holds; a missing value reads as the empty text. -/
def ofTable (table : Table String (Option String)) : TagMap :=
  fun key => (table.get? key).map fun value => value.getD ""

/-- Of tags with one key the first one. -/
def ofFirst (tags : List Tag) : TagMap :=
  fun key => (tags.find? fun tag => tag.key = key).map Tag.value

/-- Of tags with one key the last one. -/
def ofLast (tags : List Tag) : TagMap := ofFirst tags.reverse

/-- The tags list the map once, by the bytes of their keys. -/
structure IsListed (values : TagMap) (tags : List Tag) : Prop where
  increasing : tags.Pairwise fun s t => Text.bytes s.key < Text.bytes t.key
  mem_iff : ∀ key value, { key, value } ∈ tags ↔ values key = some value

/-- **The tags read from a table list its map.** -/
theorem isListed_readTags (table : Table String (Option String)) :
    (ofTable table).IsListed (readTags table) where
  increasing := List.pairwise_map.mpr (table.increasing.imp Text.bytes_lt)
  mem_iff key value := by
    rw [ofTable, Option.map_eq_some_iff, readTags, List.mem_map]
    constructor
    · rintro ⟨⟨k, stored⟩, hmem, heq⟩
      obtain ⟨rfl, rfl⟩ := Tag.mk.inj heq
      exact ⟨stored, Table.mem_entries_iff.mp hmem, rfl⟩
    · rintro ⟨stored, hget, rfl⟩
      exact ⟨(key, stored), Table.mem_entries_iff.mpr hget, rfl⟩

theorem ofTable_insert (table : Table String (Option String)) (key value : String) :
    ofTable (table.insert key (some value)) =
      Function.update (ofTable table) key (some value) := by
  funext other
  by_cases hother : other = key
  · subst hother
    rw [Function.update_self, ofTable, Table.get?_insert_self]
    rfl
  · rw [Function.update_of_ne hother, ofTable, Table.get?_insert_of_ne table hother]
    rfl

theorem ofTable_erase (table : Table String (Option String)) (key : String) :
    ofTable (table.erase key) = Function.update (ofTable table) key none := by
  funext other
  by_cases hother : other = key
  · subst hother
    rw [Function.update_self, ofTable, Table.get?_erase_self]
    rfl
  · rw [Function.update_of_ne hother, ofTable, Table.get?_erase_of_ne table hother]
    rfl

/-- A tag that is not set is not in the table. -/
theorem erase_eq_self {table : Table String (Option String)} {key : String}
    (h : ofTable table key = none) : table.erase key = table :=
  Table.erase_eq_self (Option.map_eq_none_iff.mp h)

/-- **Of tags entered into an empty table the last one of each key stays.** -/
theorem ofTable_enterTags (tags : List Tag) : ofTable (enterTags .empty tags) = ofLast tags := by
  suffices ∀ table : Table String (Option String), ∀ key,
      ofTable (enterTags table tags) key = (ofLast tags key).or (ofTable table key) by
    funext key
    rw [this, ofTable, Table.get?_empty, Option.map_none, Option.or_none]
  induction tags with
  | nil => exact fun table key => rfl
  | cons tag tags ih =>
    intro table key
    have hlast : ofLast (tag :: tags) key =
        (ofLast tags key).or (if tag.key = key then some tag.value else none) := by
      rw [ofLast, ofFirst, List.reverse_cons, List.find?_append, Option.map_or]
      by_cases hkey : tag.key = key <;> simp [ofLast, ofFirst, hkey]
    rw [enterTags, List.foldl_cons, ← enterTags, ih, ofTable_insert, hlast, Option.or_assoc]
    congr 1
    by_cases hkey : tag.key = key
    · rw [if_pos hkey, ← hkey, Function.update_self, Option.some_or]
    · rw [if_neg hkey, Function.update_of_ne (Ne.symm hkey), Option.none_or]

/-- **Once repeats of a key are dropped, its first tag is its last.** -/
theorem ofLast_firstPerKey (tags : List Tag) : ofLast (Models.firstPerKey tags) = ofFirst tags := by
  funext key
  have hkept : ((Models.firstPerKey tags).filter fun tag => tag.key = key) =
      (tags.find? fun tag => tag.key = key).toList :=
    filter_of_perm_distinct (List.Perm.refl _) key
  rw [ofLast, ofFirst, ofFirst, ← List.head?_filter, List.filter_reverse, List.head?_reverse,
    hkept]
  cases tags.find? fun tag => tag.key = key <;> rfl

end TagMap

end RunLedger
