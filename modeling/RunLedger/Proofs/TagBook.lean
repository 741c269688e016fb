import RunLedger.Proofs.Experiments.Creation
import RunLedger.Proofs.Registry.WellFormed

/-!
# The book of tags

Experiments, registered models and versions have tags, kept in three tables that all of them share.
Seen from outside each of them has a map of its own. It begins as the map that the tags given on
creation stand for, changes with the calls that set and delete its tags, follows its model from name
to name, and ends with the deletion of the model or of the version. All calls together keep a book
of these maps.

## Main definitions

* `TagOwner`, `TagBook`: what has tags, and the tags of everything.
* `TagCall`, `Operation.tagCall?`: the calls that set and delete a tag.
* `TagBook.after`, `TagBook.afterAll`: what a successful call, and a sequence of calls, makes of it.
* `Database.tagBook`: the book that a database holds.

## Main results

* `Operation.tagBook_of_yields`: every successful call changes the book as it should.
* `Operation.tagBook_performAll`: so does every sequence of calls.
-/

namespace RunLedger

open Registry Work

/-- What can have tags. -/
inductive TagOwner
  | experiment (id : Int)
  | model (name : String)
  | version (name : String) (number : Int)
deriving DecidableEq

namespace TagOwner

/-- The model that an owner is, or is a version of. -/
def model? : TagOwner → Option String
  | experiment _ => none
  | model name | version name _ => some name

/-- The name that a model had before the one called `name` was called `newName`. -/
def nameBefore (name newName other : String) : Option String :=
  if other = newName then some name else if other = name then none else some other

/-- The owner as it was known before the model called `name` was called `newName`. -/
def before (name newName : String) : TagOwner → Option TagOwner
  | experiment id => some (experiment id)
  | model other => (nameBefore name newName other).map model
  | version other number => (nameBefore name newName other).map fun old => version old number

variable {owner : TagOwner} {name newName : String}

/-- Nothing is known under the old name. -/
theorem before_eq_none (hnew : owner.model? ≠ some newName) (hold : owner.model? = some name) :
    owner.before name newName = none := by
  cases owner with
  | experiment id => cases hold
  | model other | version other number =>
    obtain rfl := Option.some.inj hold
    have hnew : other ≠ newName := fun h => hnew (congrArg some h)
    rw [before, nameBefore, if_neg hnew, if_pos rfl, Option.map_none]

/-- Whatever has neither name was known as it is. -/
theorem before_eq_self (hnew : owner.model? ≠ some newName) (hold : owner.model? ≠ some name) :
    owner.before name newName = some owner := by
  cases owner with
  | experiment id => rfl
  | model other | version other number =>
    have hnew : other ≠ newName := fun h => hnew (congrArg some h)
    have hold : other ≠ name := fun h => hold (congrArg some h)
    rw [before, nameBefore, if_neg hnew, if_neg hold, Option.map_some]

end TagOwner

/-- A call on one tag. -/
structure TagCall where
  /-- What the tag belongs to. -/
  owner : TagOwner
  /-- Its key. -/
  key : String
  /-- The value that it is set to, unless it is deleted. -/
  value : Option String

/-- The calls that set and delete a tag. -/
def Operation.tagCall? : Operation → Option TagCall
  | setModelTag name key value => some ⟨.model name, key, some value⟩
  | deleteModelTag name key => some ⟨.model name, key, none⟩
  | setVersionTag name number key value => some ⟨.version name number, key, some value⟩
  | deleteVersionTag name number key => some ⟨.version name number, key, none⟩
  | _ => none

/-- The tags of everything that has some. -/
abbrev TagBook := TagOwner → Option TagMap

namespace TagBook

/-- The book in which nothing stands. -/
def empty : TagBook := fun _ => none

/-- The book with what stands there for one owner changed. -/
def alter (book : TagBook) (owner : TagOwner) (f : Option TagMap → Option TagMap) : TagBook :=
  Function.update book owner (f (book owner))

/-- What a successful call that answers `answer` makes of the book. -/
def after (book : TagBook) : Operation → Answer → TagBook
  | .createExperiment _ _ tags, .number id =>
    Function.update book (.experiment id) (some (.ofLast tags))
  | .createModel name _ tags, _ => Function.update book (.model name) (some (.ofFirst tags))
  | .createVersion name new, .version v =>
    Function.update book (.version name v.version) (some (.ofLast new.tags))
  | .renameModel name newName, _ => fun owner => (owner.before name newName).bind book
  | .deleteModel name, _ => fun owner => if owner.model? = some name then none else book owner
  | .deleteVersion name number, _ => book.alter (.version name number) fun _ => none
  | operation, _ =>
    match operation.tagCall? with
    | some c => book.alter c.owner (Option.map fun values => Function.update values c.key c.value)
    | none => book

/-- What calls made one after the other make of the book. A call that fails changes nothing. -/
def afterAll : List (Call × Operation) → Database → TagBook → TagBook
  | [], _, book => book
  | (call, operation) :: steps, db, book =>
    match operation.run.perform call db with
    | (.ok answer, db') => afterAll steps db' (book.after operation answer)
    | (.error _, db') => afterAll steps db' book

end TagBook

/-! ### The book that a database holds -/

/-- The tags of a version, unless it is deleted. -/
def VersionRecord.tagMap? (v : VersionRecord) : Option TagMap :=
  if v.stage.isDeleted then none else some (.ofTable v.tags)

/-- The tags of a model, and of its versions. -/
def ModelRecord.tagMap? (m : ModelRecord) : TagOwner → Option TagMap
  | .experiment _ => none
  | .model _ => some (.ofTable m.tags)
  | .version _ number => (m.versions.get? number).bind VersionRecord.tagMap?

/-- The book that a database holds. -/
def Database.tagBook (db : Database) : TagBook
  | .experiment id => (db.experiments.get? id).map fun e => .ofTable e.tags
  | .model name => (db.models.get? name).bind fun m => m.tagMap? (.model name)
  | .version name number => (db.models.get? name).bind fun m => m.tagMap? (.version name number)

namespace Database

variable {db db' : Database} {name : String} {m : ModelRecord}

theorem tagBook_eq_of_eq (hexperiments : db'.experiments = db.experiments)
    (hmodels : db'.models = db.models) : db'.tagBook = db.tagBook := by
  funext owner
  cases owner <;> simp only [tagBook, hexperiments, hmodels]

/-- What stands in the book about a model and its versions. -/
theorem tagBook_of_get? (hm : db.models.get? name = some m) {owner : TagOwner}
    (howner : owner.model? = some name) : db.tagBook owner = m.tagMap? owner := by
  cases owner with
  | experiment id => cases howner
  | model other | version other number =>
    obtain rfl := Option.some.inj howner
    rw [tagBook, hm, Option.bind_some]

theorem tagBook_of_get?_eq_none (hm : db.models.get? name = none) {owner : TagOwner}
    (howner : owner.model? = some name) : db.tagBook owner = none := by
  cases owner with
  | experiment id => cases howner
  | model other | version other number =>
    obtain rfl := Option.some.inj howner
    rw [tagBook, hm, Option.bind_none]

/-- What stands in the book about experiments and other models. -/
theorem tagBook_eq_of_ne (db db' : Database) (hexperiments : db'.experiments = db.experiments)
    {owner : TagOwner}
    (hmodels : ∀ other, owner.model? = some other → db'.models.get? other = db.models.get? other) :
    db'.tagBook owner = db.tagBook owner := by
  cases owner with
  | experiment id => simp only [tagBook, hexperiments]
  | model other | version other number => simp only [tagBook, hmodels other rfl]

/-- The book once the record of a model is stored. -/
theorem tagBook_withModel (db : Database) (name : String) (m : ModelRecord) (owner : TagOwner) :
    (db.withModel name m).tagBook owner =
      if owner.model? = some name then m.tagMap? owner else db.tagBook owner := by
  split
  · next howner => exact tagBook_of_get? (get?_withModel_self db name m) howner
  · next howner =>
    refine tagBook_eq_of_ne db (db.withModel name m) rfl fun other hother =>
      get?_withModel_of_ne ?_
    rintro rfl
    exact howner hother

/-- The book once a model is gone. -/
theorem tagBook_withoutModel (db : Database) (name : String) (owner : TagOwner) :
    (db.withoutModel name).tagBook owner =
      if owner.model? = some name then none else db.tagBook owner := by
  split
  · next howner => exact tagBook_of_get?_eq_none (db.models.get?_erase_self name) howner
  · next howner =>
    refine tagBook_eq_of_ne db (db.withoutModel name) rfl fun other hother =>
      db.models.get?_erase_of_ne ?_
    rintro rfl
    exact howner hother

end Database

/-! ### What calls on a model make of its tags -/

section Versions

variable {m : ModelRecord} {version number : Int}

/-- The tags of a version that is not deleted. -/
theorem VersionRecord.tagMap?_of_not_isDeleted {v : VersionRecord} (h : v.stage.isDeleted = false) :
    v.tagMap? = some (.ofTable v.tags) := by
  rw [tagMap?, h]
  rfl

/-- A move to a stage is none to that of deleted versions, and leaves the tags. -/
theorem VersionRecord.tagMap?_moved {stage : VersionStage} (hstage : stage.isDeleted = false)
    (now : Int) (archiveExisting : Bool) {v : VersionRecord}
    (hlive : number = version → v.stage.isDeleted = false) :
    (moved now version stage archiveExisting number v).tagMap? = v.tagMap? := by
  rw [moved]
  split_ifs with hself hothers
  · have hlive := hlive (by simpa using hself)
    rw [tagMap?_of_not_isDeleted hlive]
    exact tagMap?_of_not_isDeleted hstage
  · have hlive : v.stage.isDeleted = false := by
      obtain ⟨-, hsame⟩ : _ ∧ v.stage = stage := by simpa using hothers
      rw [hsame, hstage]
    rw [tagMap?_of_not_isDeleted hlive]
    exact tagMap?_of_not_isDeleted rfl
  · rfl

/-- Changes of versions that leave their tags. -/
theorem ModelRecord.bind_tagMap?_map {f : Int → VersionRecord → VersionRecord}
    (hf : ∀ k v, m.versions.get? k = some v → (f k v).tagMap? = v.tagMap?) (number : Int) :
    ((m.versions.map f).get? number).bind VersionRecord.tagMap? =
      (m.versions.get? number).bind VersionRecord.tagMap? := by
  rw [Table.get?_map]
  cases hv : m.versions.get? number with
  | none => rfl
  | some v => exact hf number v hv

/-- A change of one version that is not deleted. -/
theorem ModelRecord.bind_tagMap?_update (hlive : m.IsLive version)
    {f : VersionRecord → VersionRecord} {g : Option TagMap → Option TagMap}
    (hf : ∀ v, v.stage.isDeleted = false → (f v).tagMap? = g (some (.ofTable v.tags)))
    (number : Int) :
    ((m.versions.update version f).get? number).bind VersionRecord.tagMap? =
      if number = version then g ((m.versions.get? number).bind VersionRecord.tagMap?)
      else (m.versions.get? number).bind VersionRecord.tagMap? := by
  by_cases hnumber : number = version
  · subst hnumber
    obtain ⟨v, hv, hstage⟩ := hlive
    rw [if_pos rfl, Table.get?_update_self, hv, Option.map_some, Option.bind_some, Option.bind_some,
      hf v hstage, VersionRecord.tagMap?_of_not_isDeleted hstage]
  · rw [if_neg hnumber, Table.get?_update, if_neg (by simpa using hnumber)]

end Versions

namespace TagBook

variable {operation : Operation} {name : String} {m : ModelRecord} {book : TagBook}
  {owner : TagOwner}

theorem alter_self (book : TagBook) (owner : TagOwner) (f : Option TagMap → Option TagMap) :
    book.alter owner f owner = f (book owner) :=
  Function.update_self _ _ _

theorem alter_of_ne {changed : TagOwner} (h : owner ≠ changed)
    (f : Option TagMap → Option TagMap) : book.alter changed f owner = book owner :=
  Function.update_of_ne h _ _

theorem alter_version (book : TagBook) (name : String) (version number : Int)
    (f : Option TagMap → Option TagMap) :
    book.alter (.version name version) f (.version name number) =
      if number = version then f (book (.version name number))
      else book (.version name number) := by
  split
  · next h =>
    subst h
    exact alter_self book _ f
  · next h => exact alter_of_ne (fun heq => h (TagOwner.version.inj heq).2) f

/-- What stands in the book about other models stays when a call changes the record of one. -/
theorem after_of_model?_ne (htarget : operation.target? = some name)
    (howner : owner.model? ≠ some name) (answer : Answer) :
    book.after operation answer owner = book owner := by
  have hne (other : TagOwner) (h : other.model? = some name) : owner ≠ other := by
    rintro rfl
    exact howner h
  cases operation with
  | createVersion other new =>
    obtain rfl := Option.some.inj htarget
    cases answer with
    | version v => exact Function.update_of_ne (hne _ rfl) _ _
    | _ => rfl
  | setModelTag other | deleteModelTag other =>
    obtain rfl := Option.some.inj htarget
    exact alter_of_ne (hne (.model other) rfl) _
  | deleteVersion other number =>
    obtain rfl := Option.some.inj htarget
    exact alter_of_ne (hne (.version other number) rfl) fun _ => none
  | setVersionTag other number | deleteVersionTag other number =>
    obtain rfl := Option.some.inj htarget
    exact alter_of_ne (hne (.version other number) rfl) _
  | updateModel | setAlias | deleteAlias | updateVersion | transition => rfl
  | _ => cases htarget

/-- What a call makes of the tags of its model, unless it creates a version. -/
theorem tagMap?_amend_model (htarget : operation.target? = some name)
    (hop : ∀ name new, operation ≠ .createVersion name new)
    (hbook : book (.model name) = some (.ofTable m.tags)) (now : Int) (answer : Answer) :
    (operation.amend now m).tagMap? (.model name) = book.after operation answer (.model name) := by
  cases operation with
  | createVersion other new => exact absurd rfl (hop other new)
  | setModelTag other key value =>
    obtain rfl := Option.some.inj htarget
    change _ = book.alter (.model other) _ (.model other)
    rw [alter_self, hbook, Option.map_some, ← TagMap.ofTable_insert]
    rfl
  | deleteModelTag other key =>
    obtain rfl := Option.some.inj htarget
    change _ = book.alter (.model other) _ (.model other)
    rw [alter_self, hbook, Option.map_some, ← TagMap.ofTable_erase]
    rfl
  | deleteVersion other number =>
    have hne : TagOwner.model name ≠ .version other number := TagOwner.noConfusion
    exact hbook.symm.trans (alter_of_ne hne fun _ => none).symm
  | setVersionTag other number | deleteVersionTag other number =>
    have hne : TagOwner.model name ≠ .version other number := TagOwner.noConfusion
    exact hbook.symm.trans (alter_of_ne hne _).symm
  | updateModel | setAlias | deleteAlias | transition | updateVersion => exact hbook.symm
  | _ => cases htarget

/-- What a call makes of the tags of the versions of its model, unless it creates one. -/
theorem tagMap?_amend_version {number : Int} (htarget : operation.target? = some name)
    (haccepts : operation.Accepts m) (hop : ∀ name new, operation ≠ .createVersion name new)
    (hbook : book (.version name number) = (m.versions.get? number).bind VersionRecord.tagMap?)
    (now : Int) (answer : Answer) :
    (operation.amend now m).tagMap? (.version name number) =
      book.after operation answer (.version name number) := by
  cases operation with
  | createVersion other new => exact absurd rfl (hop other new)
  | transition other version stage archiveExisting =>
    have hstage := Versions.not_isDeleted_of_checkTransition haccepts.1
    refine (ModelRecord.bind_tagMap?_map (fun k v hv => ?_) number).trans hbook.symm
    refine VersionRecord.tagMap?_moved hstage now archiveExisting fun hk => ?_
    exact haccepts.2.not_isDeleted (hk ▸ hv)
  | updateVersion other version description =>
    refine (ModelRecord.bind_tagMap?_update haccepts (g := id) (fun v hv => ?_) number).trans
      ((ite_self _).trans hbook.symm)
    exact VersionRecord.tagMap?_of_not_isDeleted hv
  | deleteVersion other version =>
    obtain rfl := Option.some.inj htarget
    change _ = book.alter (.version other version) (fun _ => none) (.version other number)
    rw [alter_version, hbook]
    exact ModelRecord.bind_tagMap?_update haccepts (g := fun _ => none) (fun v hv => rfl) number
  | setVersionTag other version key value =>
    obtain rfl := Option.some.inj htarget
    change _ = book.alter (.version other version) _ (.version other number)
    rw [alter_version, hbook]
    refine ModelRecord.bind_tagMap?_update haccepts (fun v hv => ?_) number
    rw [Option.map_some, ← TagMap.ofTable_insert]
    exact VersionRecord.tagMap?_of_not_isDeleted hv
  | deleteVersionTag other version key =>
    obtain rfl := Option.some.inj htarget
    change _ = book.alter (.version other version) _ (.version other number)
    rw [alter_version, hbook]
    refine ModelRecord.bind_tagMap?_update haccepts (fun v hv => ?_) number
    rw [Option.map_some, ← TagMap.ofTable_erase]
    exact VersionRecord.tagMap?_of_not_isDeleted hv
  | setModelTag other | deleteModelTag other =>
    have hne : TagOwner.version name number ≠ .model other := TagOwner.noConfusion
    exact hbook.symm.trans (alter_of_ne hne _).symm
  | updateModel | setAlias | deleteAlias => exact hbook.symm
  | _ => cases htarget

end TagBook

/-! ### What calls make of the book -/

namespace Operation

variable {operation : Operation} {call : Call} {db db' : Database} {a : Answer}

theorem tagBook_of_createExperiment {name : String} {location : Option String} {tags : List Tag}
    (h : (createExperiment name location tags).run.Yields call db a db') :
    db'.tagBook = db.tagBook.after (createExperiment name location tags) a := by
  obtain ⟨n, hcreate, rfl⟩ := (yields_map _ _).mp h
  obtain ⟨-, -, rfl, rfl⟩ := Experiments.create_inversion hcreate
  funext owner
  change _ = Function.update db.tagBook (.experiment (db.lastExperimentId + 1)) _ owner
  rw [Function.update_apply]
  split
  · next howner =>
    subst howner
    rw [Database.tagBook, Database.get?_withNextExperiment_self, Option.map_some,
      ← TagMap.ofTable_enterTags]
    rfl
  · next howner =>
    cases owner with
    | experiment id =>
      have hne : id ≠ db.lastExperimentId + 1 := fun hid => howner (congrArg _ hid)
      simp only [Database.tagBook, Database.get?_withNextExperiment_of_ne hne]
    | model _ | version _ _ => rfl

theorem tagBook_of_createVersion {name : String} {new : NewVersion}
    (h : (createVersion name new).run.Yields call db a db') :
    db'.tagBook = db.tagBook.after (createVersion name new) a := by
  obtain ⟨v, hcreate, rfl⟩ := (yields_map _ _).mp h
  obtain ⟨m, hm, -, hversion, rfl⟩ := Versions.create_inversion hcreate
  funext owner
  change _ = Function.update db.tagBook (.version name v.version) _ owner
  rw [Database.tagBook_withModel, Function.update_apply, hversion]
  split
  · next howner =>
    rw [Database.tagBook_of_get? hm howner]
    cases owner with
    | experiment id => cases howner
    | model _ => rfl
    | version other number =>
      obtain rfl := Option.some.inj howner
      by_cases hnumber : number = Versions.nextNumber m
      · subst hnumber
        rw [if_pos rfl, ← TagMap.ofTable_enterTags]
        simp [ModelRecord.tagMap?, amend]
        rfl
      · have hne : TagOwner.version other number ≠ .version other (Versions.nextNumber m) :=
          fun h => hnumber (TagOwner.version.inj h).2
        rw [if_neg hne]
        simp only [ModelRecord.tagMap?, amend, Table.get?_insert_of_ne _ hnumber]
  · next howner =>
    rw [if_neg]
    rintro rfl
    exact howner rfl

theorem tagBook_of_createModel {name : String} {description : Option String} {tags : List Tag}
    (hnew : db.models.get? name = none) (now : Int) (a : Answer) :
    (db.withModel name (.ofNew now description tags)).tagBook =
      db.tagBook.after (createModel name description tags) a := by
  funext owner
  change _ = Function.update db.tagBook (.model name) (some (.ofFirst tags)) owner
  rw [Database.tagBook_withModel, Function.update_apply]
  split
  · next howner =>
    cases owner with
    | experiment id => cases howner
    | model other =>
      obtain rfl := Option.some.inj howner
      rw [if_pos rfl, ← TagMap.ofLast_firstPerKey, ← TagMap.ofTable_enterTags]
      rfl
    | version other number =>
      rw [if_neg TagOwner.noConfusion, Database.tagBook_of_get?_eq_none hnew howner]
      rfl
  · next howner =>
    rw [if_neg]
    rintro rfl
    exact howner rfl

/-- A call that changes the record of one model, and creates no version. -/
theorem tagBook_of_target? {name : String} {m : ModelRecord}
    (htarget : operation.target? = some name) (hm : db.models.get? name = some m)
    (haccepts : operation.Accepts m) (hop : ∀ name new, operation ≠ .createVersion name new)
    (now : Int) (a : Answer) :
    (db.withModel name (operation.amend now m)).tagBook = db.tagBook.after operation a := by
  funext owner
  rw [Database.tagBook_withModel]
  split
  · next howner =>
    have hbook := Database.tagBook_of_get? hm howner
    cases owner with
    | experiment id => cases howner
    | model other =>
      obtain rfl := Option.some.inj howner
      exact TagBook.tagMap?_amend_model htarget hop hbook now a
    | version other number =>
      obtain rfl := Option.some.inj howner
      exact TagBook.tagMap?_amend_version htarget haccepts hop hbook now a
  · next howner => exact (TagBook.after_of_model?_ne htarget howner a).symm

/-- What stands in the book about a model is found under its new name, and nothing under the old. -/
theorem tagBook_of_renameModel {name newName : String} {m : ModelRecord}
    (hm : db.models.get? name = some m) (now : Int) (a : Answer) :
    ((db.withoutModel name).withModel newName ((renameModel name newName).amend now m)).tagBook =
      db.tagBook.after (renameModel name newName) a := by
  funext owner
  change _ = (owner.before name newName).bind db.tagBook
  rw [Database.tagBook_withModel, Database.tagBook_withoutModel]
  split
  · next hnew =>
    cases owner with
    | experiment id => cases hnew
    | model other =>
      obtain rfl := Option.some.inj hnew
      rw [TagOwner.before, TagOwner.nameBefore, if_pos rfl, Option.map_some, Option.bind_some,
        Database.tagBook_of_get? hm rfl]
      rfl
    | version other number =>
      obtain rfl := Option.some.inj hnew
      rw [TagOwner.before, TagOwner.nameBefore, if_pos rfl, Option.map_some, Option.bind_some,
        Database.tagBook_of_get? hm rfl]
      exact ModelRecord.bind_tagMap?_map (f := fun _ v => { v with lastUpdatedTime := now })
        (fun _ _ _ => rfl) number
  · next hnew =>
    split
    · next hold => rw [TagOwner.before_eq_none hnew hold, Option.bind_none]
    · next hold => rw [TagOwner.before_eq_self hnew hold, Option.bind_some]

/-- Calls outside the registry, and calls that read, leave the book as it is. -/
theorem after_eq_self (hop : operation.area ≠ .registry ∨ operation.isRead = true)
    (hexperiment : ∀ name location tags, operation ≠ .createExperiment name location tags)
    (book : TagBook) (a : Answer) : book.after operation a = book := by
  cases operation with
  | createExperiment name location tags => exact absurd rfl (hexperiment name location tags)
  | getExperiment | createRun | getRun | deleteRun | restoreRun | logMetrics | metricHistory
  | latestMetrics | rebuildLatest | modelMetrics | getModel | getByAlias | getVersion
  | latestVersions => rfl
  | _ => simp [area, isRead] at hop

/-- **Every successful call changes the book as it should.** -/
theorem tagBook_of_yields (h : operation.run.Yields call db a db') :
    db'.tagBook = db.tagBook.after operation a := by
  by_cases hexperiment : ∃ name location tags, operation = .createExperiment name location tags
  · obtain ⟨name, location, tags, rfl⟩ := hexperiment
    exact tagBook_of_createExperiment h
  by_cases hversion : ∃ name new, operation = .createVersion name new
  · obtain ⟨name, new, rfl⟩ := hversion
    exact tagBook_of_createVersion h
  push Not at hexperiment hversion
  cases registryEffect h with
  | created hnew => exact tagBook_of_createModel hnew call.now a
  | amended htarget hm haccepts => exact tagBook_of_target? htarget hm haccepts hversion call.now a
  | renamed hm hfree => exact tagBook_of_renameModel hm call.now a
  | deleted hm => exact funext (db.tagBook_withoutModel _)
  | none hop hmodels =>
    rw [after_eq_self hop hexperiment]
    exact Database.tagBook_eq_of_eq (experiments_eq_of_yields hexperiment h).1 hmodels

/-- **Calls made one after the other keep the book.** -/
theorem tagBook_performAll (steps : List (Call × Operation)) (db : Database) :
    (performAll steps db).2.tagBook = TagBook.afterAll steps db db.tagBook := by
  induction steps generalizing db with
  | nil => rfl
  | cons step steps ih =>
    obtain ⟨call, operation⟩ := step
    rw [performAll_cons, ih, TagBook.afterAll]
    rcases hresult : operation.run.perform call db with ⟨error | a, db'⟩
    · rw [eq_of_perform_error hresult]
    · rw [tagBook_of_yields hresult]

end Operation

end RunLedger
