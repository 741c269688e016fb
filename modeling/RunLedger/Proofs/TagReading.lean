import RunLedger.Proofs.TagBook

/-!
# Reading tags, and calling on them

The tags that are read of an experiment, of a model, or of a version by its own call or by an alias,
list what stands in the book of tags, and what does not stand there is not found. (Where versions
are listed with their model they come without their tags.) How a call on a tag ends depends on the
key and on the book alone.

## Main definitions

* `TagOwner.reading`: the call that reads something that can have tags.
* `Answer.tags?`: the tags that are read.

## Main results

* `Operation.yields_reading`, `Operation.failsWith_reading`: what stands in the book is read, and
  nothing else is found.
* `Operation.failsWith_tagCall_of_blank`, `Operation.exists_yields_tagCall` and their like: the ends
  of a call on a tag.
* `tags_are_finite_maps`: all of this of the book that calls keep.
-/

namespace RunLedger

open Registry Work

/-- The call that reads something that can have tags. -/
def TagOwner.reading : TagOwner → Operation
  | experiment id => .getExperiment id
  | model name => .getModel name
  | version name number => .getVersion name number

/-- The tags of what a call answers with. -/
def Answer.tags? : Answer → Option (List Tag)
  | experiment e => some e.tags
  | model m => some m.tags
  | version v => some v.tags
  | _ => none

namespace Database

variable (db : Database) (name : String) (number : Int)

/-- What stands in the book about a model is the map of its tags. -/
theorem tagBook_model :
    db.tagBook (.model name) = (db.models.get? name).map fun m => .ofTable m.tags := by
  rw [tagBook]
  cases db.models.get? name <;> rfl

/-- What stands in the book about a version is the map of its tags, if readers find the version. -/
theorem tagBook_version :
    db.tagBook (.version name number) =
      (findVersion? db name number).map fun found => .ofTable found.2.tags := by
  rw [tagBook]
  cases hm : db.models.get? name with
  | none => simp [findVersion?, hm]
  | some m =>
    cases hv : m.versions.get? number with
    | none => simp [findVersion?, ModelRecord.tagMap?, hm, hv]
    | some v =>
      cases hlive : v.stage.isDeleted <;>
        simp [findVersion?, ModelRecord.tagMap?, VersionRecord.tagMap?, hm, hv, hlive]

end Database

/-- A key that is not blank is one that a tag may have. -/
theorem Rules.tagKey_eq_ok {key : String} (h : Text.isBlank key = false) : tagKey key = .ok () := by
  rw [tagKey, h]
  rfl

namespace Operation

variable {db : Database} {owner : TagOwner} {values : TagMap}

/-! ### Reading -/

/-- **What stands in the book is read.** -/
theorem yields_reading (hdb : Reachable db) {reader : Call} (hreader : reader.Unhindered)
    (h : db.tagBook owner = some values) :
    ∃ answer tags, owner.reading.run.Yields reader db answer db ∧ answer.tags? = some tags ∧
      values.IsListed tags := by
  cases owner with
  | experiment id =>
    obtain ⟨e, he, rfl⟩ := Option.map_eq_some_iff.mp h
    exact ⟨_, _, yields_getExperiment hreader he, rfl, TagMap.isListed_readTags e.tags⟩
  | model name =>
    obtain ⟨m, hm, rfl⟩ := Option.map_eq_some_iff.mp ((db.tagBook_model name).symm.trans h)
    obtain ⟨answer, hload⟩ := exists_loadModel hm (hdb.wellFormed hm).readable
    refine ⟨_, answer.tags,
      yields_getModel.mpr ⟨hreader.entry, hreader.hidden _, hload, rfl⟩, rfl, ?_⟩
    obtain ⟨m', -, hm', -, rfl⟩ := loadModel_eq_ok_iff.mp hload
    obtain rfl := Option.some.inj (hm.symm.trans hm')
    exact TagMap.isListed_readTags m.tags
  | version name number =>
    obtain ⟨⟨m, v⟩, hfound, rfl⟩ :=
      Option.map_eq_some_iff.mp ((db.tagBook_version name number).symm.trans h)
    obtain ⟨hm, hv, -⟩ := findVersion?_eq_some_iff.mp hfound
    obtain ⟨entity, hentity⟩ :=
      VersionRecord.exists_entity? ((hdb.wellFormed hm).readable number v hv) name number
    have hload := loadVersion_eq_ok_iff.mpr ⟨m, v, entity, hfound, hentity, rfl⟩
    exact ⟨_, _, yields_getVersion.mpr ⟨hreader.entry, hreader.hidden _, hload, rfl⟩, rfl,
      TagMap.isListed_readTags v.tags⟩

/-- **What does not stand in the book is not found.** -/
theorem failsWith_reading {reader : Call} (hreader : reader.Unhindered)
    (h : db.tagBook owner = none) :
    owner.reading.run.FailsWith reader db .resourceDoesNotExist := by
  cases owner with
  | experiment id =>
    have hget : db.experiments.get? id = none := Option.map_eq_none_iff.mp h
    have hrequire : (Experiments.require id).run db = .error (.experimentNotFound id) := by
      rw [Experiments.require, Query.run_read_bind, hget]
      rfl
    have hload : (Experiments.load id).run db = .error (.experimentNotFound id) := by
      change (Experiments.require id).run db >>= _ = _
      rw [hrequire]
      rfl
    exact (failsWith_consult hreader hload).map _
  | model name =>
    have hget := Option.map_eq_none_iff.mp ((db.tagBook_model name).symm.trans h)
    have hload : (loadModel name).run db = .error (.modelNotFound name) := by
      change (requireModel name).run db >>= _ = _
      rw [run_requireModel, hget]
      rfl
    exact (failsWith_consult hreader hload).map _
  | version name number =>
    have hfound := Option.map_eq_none_iff.mp ((db.tagBook_version name number).symm.trans h)
    have hload : (loadVersion name number).run db = .error (.versionNotFound name number) := by
      change (requireVersion name number).run db >>= _ = _
      rw [run_requireVersion, hfound]
      rfl
    exact (failsWith_consult hreader hload).map _

/-- An alias leads to what stands in the book about its version. -/
theorem isListed_of_yields_getByAlias {reader : Call} {name aliasName : String} {v : ModelVersion}
    {db' : Database} (h : (getByAlias name aliasName).run.Yields reader db (.version v) db') :
    ∃ values, db.tagBook (.version name v.version) = some values ∧ values.IsListed v.tags := by
  obtain ⟨-, -, -, hresolve, -⟩ := yields_getByAlias.mp h
  obtain ⟨-, number, -, -, hload⟩ := Aliases.resolve_eq_ok_iff.mp hresolve
  rw [version_of_loadVersion hload, db.tagBook_version]
  obtain ⟨m, record, entity, hfound, -, rfl⟩ := loadVersion_eq_ok_iff.mp hload
  rw [hfound]
  exact ⟨_, rfl, TagMap.isListed_readTags record.tags⟩

/-! ### Calls on tags -/

variable {operation : Operation} {c : TagCall}

/-- **A tag with a blank key is neither set nor deleted.** -/
theorem failsWith_tagCall_of_blank (hop : operation.tagCall? = some c)
    (hkey : Text.isBlank c.key = true) (call : Call) (db : Database) :
    operation.run.FailsWith call db .invalidParameterValue := by
  have hrule {key : String} {α : Type} (f : Unit → Work α) (h : Text.isBlank key = true) :
      (ensure (Rules.tagKey key) >>= f).FailsWith call db .invalidParameterValue := by
    rw [Rules.tagKey, if_pos h]
    exact ⟨_, rfl, rfl⟩
  cases operation with
  | setModelTag | deleteModelTag | setVersionTag | deleteVersionTag =>
    obtain rfl := Option.some.inj hop
    exact (hrule _ hkey).map _
  | _ => cases hop

/-- **Nor is a tag of what does not stand in the book.** -/
theorem failsWith_tagCall_of_missing (hop : operation.tagCall? = some c)
    (hkey : Text.isBlank c.key = false) (h : db.tagBook c.owner = none) {call : Call}
    (hcall : call.Unhindered) : operation.run.FailsWith call db .resourceDoesNotExist := by
  cases operation with
  | setModelTag name | deleteModelTag name =>
    obtain rfl := Option.some.inj hop
    have hget := Option.map_eq_none_iff.mp ((db.tagBook_model name).symm.trans h)
    have hload : (requireModel name).run db = .error (.modelNotFound name) := by
      rw [run_requireModel, hget]
    exact .map _ <| .ensure_bind (Rules.tagKey_eq_ok hkey) <| .transact hcall _ <|
      failsWith_ask_bind hload _
  | setVersionTag name number | deleteVersionTag name number =>
    obtain rfl := Option.some.inj hop
    have hfound := Option.map_eq_none_iff.mp ((db.tagBook_version name number).symm.trans h)
    have hload : (requireVersion name number).run db = .error (.versionNotFound name number) := by
      rw [run_requireVersion, hfound]
    exact .map _ <| .ensure_bind (Rules.tagKey_eq_ok hkey) <| .transact hcall _ <|
      failsWith_ask_bind hload _
  | _ => cases hop

/-- **A call on a tag of what stands in the book succeeds, and changes nothing if it deletes a tag
that is not set.** -/
theorem exists_yields_tagCall (hdb : Reachable db) (hop : operation.tagCall? = some c)
    (hkey : Text.isBlank c.key = false) (h : db.tagBook c.owner = some values) {call : Call}
    (hcall : call.Undisturbed) :
    ∃ db', operation.run.Yields call db .nothing db' ∧
      (c.value = none → values c.key = none → db' = db) := by
  cases operation with
  | setModelTag name key value =>
    obtain rfl := Option.some.inj hop
    obtain ⟨m, hm, -⟩ := Option.map_eq_some_iff.mp ((db.tagBook_model name).symm.trans h)
    have hset := (Models.leads_setTag hm (Rules.tagKey_eq_ok hkey) value).2 hcall
    exact ⟨_, (yields_map _ _).mpr ⟨(), hset, rfl⟩, fun hvalue => absurd hvalue (by simp)⟩
  | deleteModelTag name key =>
    obtain rfl := Option.some.inj hop
    obtain ⟨m, hm, rfl⟩ := Option.map_eq_some_iff.mp ((db.tagBook_model name).symm.trans h)
    have hdelete := (Models.leads_deleteTag hm (Rules.tagKey_eq_ok hkey)).2 hcall
    refine ⟨_, (yields_map _ _).mpr ⟨(), hdelete, rfl⟩, fun _ habsent => ?_⟩
    rw [amend, TagMap.erase_eq_self habsent]
    exact Database.withModel_eq_self hm
  | setVersionTag name number key value =>
    obtain rfl := Option.some.inj hop
    obtain ⟨⟨m, v⟩, hfound, -⟩ :=
      Option.map_eq_some_iff.mp ((db.tagBook_version name number).symm.trans h)
    obtain ⟨hm, hv, hlive⟩ := findVersion?_eq_some_iff.mp hfound
    have hset := (Versions.leads_setTag hm hv hlive ((hdb.wellFormed hm).readable number v hv)
      (Rules.tagKey_eq_ok hkey) value).2 hcall
    exact ⟨_, (yields_map _ _).mpr ⟨(), hset, rfl⟩, fun hvalue => absurd hvalue (by simp)⟩
  | deleteVersionTag name number key =>
    obtain rfl := Option.some.inj hop
    obtain ⟨⟨m, v⟩, hfound, rfl⟩ :=
      Option.map_eq_some_iff.mp ((db.tagBook_version name number).symm.trans h)
    obtain ⟨hm, hv, hlive⟩ := findVersion?_eq_some_iff.mp hfound
    have hdelete := (Versions.leads_deleteTag hm hv hlive
      ((hdb.wellFormed hm).readable number v hv) (Rules.tagKey_eq_ok hkey)).2 hcall
    refine ⟨_, (yields_map _ _).mpr ⟨(), hdelete, rfl⟩, fun _ habsent => ?_⟩
    rw [amend, Table.update_of_get? hv, TagMap.erase_eq_self habsent, Table.insert_eq_self hv]
    exact Database.withModel_eq_self hm
  | _ => cases hop

end Operation

/-- **Tags are finite maps.** After whatever calls, successful or not, the tags that are read of an
experiment, of a registered model and of a version that is not deleted list a map, one tag for each
key and in the order of the bytes of the keys. It is the map that stands in the book, which starts
from the tags given on creation, of which the first one with its key counts for a model and the last
one for a version or an experiment, and which the calls that set and delete tags and the renames of
models then change. What does not stand in the book, because it was never there or was deleted, is
not found. A call on a tag fails if the key is blank, or else if the owner does not stand in the
book; otherwise it succeeds if nothing disturbs it, and to delete a tag that is not set changes
nothing. -/
theorem tags_are_finite_maps (steps : List (Call × Operation)) :
    let db := (Operation.performAll steps .empty).2
    let book := TagBook.afterAll steps .empty .empty
    (∀ owner (reader : Call), reader.Unhindered →
      (∀ values, book owner = some values →
        ∃ answer tags, owner.reading.run.Yields reader db answer db ∧ answer.tags? = some tags ∧
          values.IsListed tags) ∧
      (book owner = none → owner.reading.run.FailsWith reader db .resourceDoesNotExist)) ∧
    (∀ name aliasName reader v db',
      (Operation.getByAlias name aliasName).run.Yields reader db (.version v) db' →
      ∃ values, book (.version name v.version) = some values ∧ values.IsListed v.tags) ∧
    ∀ (operation : Operation) c, operation.tagCall? = some c → ∀ call : Call,
      (Text.isBlank c.key = true → operation.run.FailsWith call db .invalidParameterValue) ∧
      (Text.isBlank c.key = false → book c.owner = none → call.Unhindered →
        operation.run.FailsWith call db .resourceDoesNotExist) ∧
      ∀ values, Text.isBlank c.key = false → book c.owner = some values → call.Undisturbed →
        ∃ db', operation.run.Yields call db .nothing db' ∧
          (c.value = none → values c.key = none → db' = db) := by
  intro db book
  have hdb : Reachable db := ⟨steps, rfl⟩
  have hempty : Database.empty.tagBook = .empty := by
    funext owner
    cases owner <;> rfl
  have hbook : book = db.tagBook := by
    rw [Operation.tagBook_performAll, hempty]
  rw [hbook]
  refine ⟨fun owner reader hreader => ⟨fun values => Operation.yields_reading hdb hreader,
      Operation.failsWith_reading hreader⟩,
    fun name aliasName reader v db' => Operation.isListed_of_yields_getByAlias,
    fun operation c hop call => ⟨fun hkey => Operation.failsWith_tagCall_of_blank hop hkey call db,
      fun hkey hmissing => Operation.failsWith_tagCall_of_missing hop hkey hmissing,
      fun values hkey hvalues => Operation.exists_yields_tagCall hdb hop hkey hvalues⟩⟩

/-- A model and a version of it are created with a key given twice; the model gets another tag and
another name. -/
private def relabelled : List (Call × Operation) :=
  [(.plain, .createModel "m" none [⟨"k", "1"⟩, ⟨"k", "2"⟩]),
    (.plain, .createVersion "m" (.ofTags [⟨"k", "1"⟩, ⟨"k", "2"⟩])),
    (.plain, .setModelTag "m" "b" "3"), (.plain, .renameModel "m" "n")]

/-- The model is read under its new name with the first tag given for the key, and the version with
the last; under the old name nothing is found. A blank key is refused, and to delete a tag that is
not set succeeds. -/
theorem renamed_model_keeps_its_tags :
    let db := (Operation.performAll relabelled .empty).2
    (∃ answer tags, (Operation.getModel "n").run.Yields .plain db answer db ∧
      answer.tags? = some tags ∧ ⟨"k", "1"⟩ ∈ tags ∧ ⟨"k", "2"⟩ ∉ tags ∧ ⟨"b", "3"⟩ ∈ tags) ∧
    (∃ answer tags, (Operation.getVersion "n" 1).run.Yields .plain db answer db ∧
      answer.tags? = some tags ∧ ⟨"k", "1"⟩ ∉ tags ∧ ⟨"k", "2"⟩ ∈ tags) ∧
    (Operation.getModel "m").run.FailsWith .plain db .resourceDoesNotExist ∧
    (Operation.setModelTag "n" " " "4").run.FailsWith .plain db .invalidParameterValue ∧
    (Operation.setModelTag "m" "k" "4").run.FailsWith .plain db .resourceDoesNotExist ∧
    (Operation.deleteVersionTag "n" 1 "b").run.Yields .plain db .nothing db := by
  intro db
  obtain ⟨hreads, -, hcalls⟩ := tags_are_finite_maps relabelled
  have hplain := Call.plain_undisturbed
  let book := TagBook.afterAll relabelled .empty .empty
  have hold : book (.model "m") = none := by
    rw [← Option.not_isSome_iff_eq_none]
    decide +kernel
  obtain ⟨model, hmodel⟩ : ∃ values, book (.model "n") = some values :=
    Option.isSome_iff_exists.mp (by decide +kernel)
  obtain ⟨version, hversion⟩ : ∃ values, book (.version "n" 1) = some values :=
    Option.isSome_iff_exists.mp (by decide +kernel)
  have hmodelKeys : (book (.model "n")).map (fun values => (values "k", values "b")) =
    some (some "1", some "3") := by decide +kernel
  have hversionKeys : (book (.version "n" 1)).map (fun values => (values "k", values "b")) =
    some (some "2", none) := by decide +kernel
  rw [hmodel, Option.map_some, Option.some.injEq, Prod.mk.injEq] at hmodelKeys
  rw [hversion, Option.map_some, Option.some.injEq, Prod.mk.injEq] at hversionKeys
  obtain ⟨answer, tags, hread, htags, hlisted⟩ :=
    (hreads (.model "n") .plain hplain.unhindered).1 model hmodel
  obtain ⟨answer', tags', hread', htags', hlisted'⟩ :=
    (hreads (.version "n" 1) .plain hplain.unhindered).1 version hversion
  refine ⟨⟨answer, tags, hread, htags, ?_, ?_, ?_⟩,
    ⟨answer', tags', hread', htags', ?_, ?_⟩, ?_, ?_, ?_, ?_⟩
  · exact (hlisted.mem_iff _ _).mpr hmodelKeys.1
  · simp [hlisted.mem_iff, hmodelKeys.1]
  · exact (hlisted.mem_iff _ _).mpr hmodelKeys.2
  · simp [hlisted'.mem_iff, hversionKeys.1]
  · exact (hlisted'.mem_iff _ _).mpr hversionKeys.1
  · exact (hreads (.model "m") .plain hplain.unhindered).2 hold
  · exact (hcalls (.setModelTag "n" " " "4") _ rfl .plain).1 (by decide)
  · exact (hcalls (.setModelTag "m" "k" "4") _ rfl .plain).2.1 (by decide) hold hplain.unhindered
  · obtain ⟨db', hyields, hsame⟩ := (hcalls (.deleteVersionTag "n" 1 "b") _ rfl .plain).2.2 version
      (by decide) hversion hplain
    rwa [hsame rfl hversionKeys.2] at hyields

end RunLedger
