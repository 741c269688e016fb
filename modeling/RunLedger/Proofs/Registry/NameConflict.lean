import RunLedger.Proofs.Registry.Renaming
import RunLedger.Proofs.Work.Failure

/-!
# Names that are taken

Prompts are registered models with a certain tag, and they share one name space with the others. So
a model cannot get a name that another one has, and the error says which kind the two models are
of. Whether a model is a prompt is not stored. It is read off its tags each time, and calls that set
or delete this one tag turn a model into a prompt and back; a rename takes the tag along.

A creation finds the kinds of both models. A rename looks at neither: it always reports two models
that are no prompts.

## Main definitions

* `marksPrompt`, `firstMarksPrompt`: the tag that makes a model a prompt, and the tag with its key
  that counts when a model is created.
* `Database.prompts`: for each registered model, whether it is a prompt.
* `Operation.Reclassifies`: what a successful call makes of that.

## Main results

* `Operation.reclassifies`: every successful call does so.
* `Models.raises_create`, `Models.raises_rename`: the errors for a name that is taken.
* `conflicts_on_creation_name_kinds`: creations report the kinds of the two models, and renames do
  if neither is a prompt.
-/

namespace RunLedger

open Work Registry

/-! ### The tag for prompts -/

/-- Whether a value of the tag for prompts makes its model one. -/
def marksPrompt (value : String) : Bool := Text.sameLetters value.toList "true".toList

/-- Whether tags make a prompt if of those with one key the first counts. -/
def firstMarksPrompt (tags : List Tag) : Bool :=
  (tags.find? fun tag => tag.key = promptTagKey).any fun tag => marksPrompt tag.value

theorem isPrompt_eq_any_filter (tags : List Tag) :
    isPrompt tags =
      (tags.filter fun tag => tag.key = promptTagKey).any fun tag => marksPrompt tag.value := by
  rw [List.any_filter]
  rfl

theorem Models.filter_firstPerKey (tags : List Tag) (key : String) :
    (Models.firstPerKey tags).filter (fun tag => tag.key = key) =
      (tags.find? fun tag => tag.key = key).toList :=
  filter_of_perm_distinct (List.Perm.refl (Models.firstPerKey tags)) key

theorem Models.isPrompt_firstPerKey (tags : List Tag) :
    isPrompt (Models.firstPerKey tags) = firstMarksPrompt tags := by
  rw [isPrompt_eq_any_filter, filter_firstPerKey, firstMarksPrompt]
  cases tags.find? fun tag => tag.key = promptTagKey <;> simp

/-- Whether stored tags make a prompt. -/
theorem isPrompt_readTags (table : Table String (Option String)) :
    isPrompt (readTags table) =
      (table.get? promptTagKey).any fun value => marksPrompt (value.getD "") := by
  rw [isPrompt_eq_any_filter, Bool.eq_iff_iff, List.any_eq_true, Option.any_eq_true]
  constructor
  · rintro ⟨tag, htag, hmarks⟩
    obtain ⟨hmem, hkey⟩ := List.mem_filter.mp htag
    obtain ⟨⟨key, value⟩, hentry, rfl⟩ := List.mem_map.mp hmem
    obtain rfl : key = promptTagKey := of_decide_eq_true hkey
    exact ⟨value, Table.mem_entries_iff.mp hentry, hmarks⟩
  · rintro ⟨value, hvalue, hmarks⟩
    exact ⟨⟨promptTagKey, value.getD ""⟩, List.mem_filter.mpr
      ⟨List.mem_map.mpr ⟨_, Table.mem_entries_iff.mpr hvalue, rfl⟩, decide_eq_true rfl⟩, hmarks⟩

/-- Of the tags that are entered, those with a key decide what is stored under it. -/
theorem get?_enterTags (table : Table String (Option String)) (tags : List Tag) (key : String) :
    (enterTags table tags).get? key =
      (tags.filter fun tag => tag.key = key).foldl (fun _ tag => some (some tag.value))
        (table.get? key) := by
  induction tags generalizing table with
  | nil => rfl
  | cons tag tags ih =>
    rw [enterTags, List.foldl_cons, ← enterTags, ih, Table.get?_insert, List.filter_cons]
    by_cases hkey : tag.key = key
    · subst hkey
      simp
    · have hne : key ≠ tag.key := Ne.symm hkey
      simp [hkey, hne]

theorem ModelRecord.isPrompt_ofNew (now : Int) (description : Option String) (tags : List Tag) :
    isPrompt (readTags (ModelRecord.ofNew now description tags).tags) = firstMarksPrompt tags := by
  rw [isPrompt_readTags, ModelRecord.ofNew, get?_enterTags, Models.filter_firstPerKey,
    firstMarksPrompt]
  cases tags.find? fun tag => tag.key = promptTagKey <;> simp

/-! ### Kinds of models -/

/-- For each registered model, whether it is a prompt. -/
def Database.prompts (db : Database) (name : String) : Option Bool :=
  (db.models.get? name).map fun m => isPrompt (readTags m.tags)

/-- What a successful call makes of the kinds of the models: a new model is of the kind that its
tags say, the first of each key, setting and deleting the tag for prompts decide the kind anew, a
rename takes the kind along, and no other call changes any. -/
def Operation.Reclassifies (before after : String → Option Bool) : Operation → Prop
  | createModel name _ tags =>
    before name = none ∧ after = Function.update before name (some (firstMarksPrompt tags))
  | setModelTag name key value =>
    before name ≠ none ∧ after =
      if key = promptTagKey then Function.update before name (some (marksPrompt value)) else before
  | deleteModelTag name key =>
    before name ≠ none ∧ after =
      if key = promptTagKey then Function.update before name (some false) else before
  | renameModel name newName =>
    ∃ kind, before name = some kind ∧ (newName = name ∨ before newName = none) ∧
      after = Function.update (Function.update before name none) newName (some kind)
  | deleteModel name => before name ≠ none ∧ after = Function.update before name none
  | _ => after = before

namespace Database

variable {db : Database} {name : String} {m : ModelRecord}

theorem prompts_of_get? (hm : db.models.get? name = some m) :
    db.prompts name = some (isPrompt (readTags m.tags)) := by
  rw [prompts, hm, Option.map_some]

theorem prompts_eq_none_iff : db.prompts name = none ↔ db.models.get? name = none :=
  Option.map_eq_none_iff

theorem prompts_withModel (db : Database) (name : String) (m : ModelRecord) :
    (db.withModel name m).prompts =
      Function.update db.prompts name (some (isPrompt (readTags m.tags))) :=
  map_get?_withModel _ db name m

theorem prompts_withoutModel (db : Database) (name : String) :
    (db.withoutModel name).prompts = Function.update db.prompts name none :=
  map_get?_withoutModel _ db name

end Database

namespace Operation

variable {operation : Operation} {call : Call} {db db' : Database} {answer : Answer}

/-- Only two calls change the tags of a model that is there. -/
theorem tags_amend (hset : ∀ name key value, operation ≠ .setModelTag name key value)
    (hdelete : ∀ name key, operation ≠ .deleteModelTag name key) (now : Int) (m : ModelRecord) :
    (operation.amend now m).tags = m.tags := by
  cases operation with
  | setModelTag name key value => exact absurd rfl (hset name key value)
  | deleteModelTag name key => exact absurd rfl (hdelete name key)
  | _ => rfl

/-- The kind of a model whose tag is set. -/
theorem isPrompt_amend_setModelTag (name key value : String) (now : Int) (m : ModelRecord) :
    isPrompt (readTags ((setModelTag name key value).amend now m).tags) =
      if key = promptTagKey then marksPrompt value else isPrompt (readTags m.tags) := by
  rw [isPrompt_readTags, amend, Table.get?_insert, isPrompt_readTags]
  by_cases hkey : key = promptTagKey
  · simp [hkey]
  · have hne : promptTagKey ≠ key := Ne.symm hkey
    simp [hkey, hne]

/-- The kind of a model whose tag is deleted. -/
theorem isPrompt_amend_deleteModelTag (name key : String) (now : Int) (m : ModelRecord) :
    isPrompt (readTags ((deleteModelTag name key).amend now m).tags) =
      if key = promptTagKey then false else isPrompt (readTags m.tags) := by
  rw [isPrompt_readTags, amend, Table.get?_erase, isPrompt_readTags]
  by_cases hkey : key = promptTagKey
  · simp [hkey]
  · have hne : promptTagKey ≠ key := Ne.symm hkey
    simp [hkey, hne]

/-- **What a successful call makes of the kinds of the models.** -/
theorem reclassifies (h : operation.run.Yields call db answer db') :
    operation.Reclassifies db.prompts db'.prompts := by
  cases registryEffect h with
  | @created name description tags _ hnew =>
    refine ⟨Database.prompts_eq_none_iff.mpr hnew, ?_⟩
    rw [Database.prompts_withModel, ModelRecord.isPrompt_ofNew]
  | @amended _ name _ m htarget hm haccepts =>
    have hold := Database.prompts_of_get? hm
    have hthere : db.prompts name ≠ none := by simp [hold]
    have hnew := Database.prompts_withModel db name (operation.amend call.now m)
    by_cases hset : ∃ name key value, operation = .setModelTag name key value
    · obtain ⟨_, key, value, rfl⟩ := hset
      obtain rfl := Option.some.inj htarget
      refine ⟨hthere, hnew.trans ?_⟩
      rw [isPrompt_amend_setModelTag]
      split
      · rfl
      · rw [← hold, Function.update_eq_self]
    by_cases hdelete : ∃ name key, operation = .deleteModelTag name key
    · obtain ⟨_, key, rfl⟩ := hdelete
      obtain rfl := Option.some.inj htarget
      refine ⟨hthere, hnew.trans ?_⟩
      rw [isPrompt_amend_deleteModelTag]
      split
      · rfl
      · rw [← hold, Function.update_eq_self]
    push Not at hset hdelete
    rw [tags_amend hset hdelete, ← hold, Function.update_eq_self] at hnew
    cases operation with
    | setModelTag name key value => exact absurd rfl (hset name key value)
    | deleteModelTag name key => exact absurd rfl (hdelete name key)
    | createModel | renameModel | deleteModel => cases htarget
    | _ => exact hnew
  | @renamed name newName _ m hm hfree =>
    refine ⟨_, Database.prompts_of_get? hm, hfree.imp_right Database.prompts_eq_none_iff.mpr, ?_⟩
    rw [Database.prompts_withModel, Database.prompts_withoutModel, tags_amend (by simp) (by simp)]
  | deleted hm =>
    refine ⟨?_, Database.prompts_withoutModel _ _⟩
    simp [Database.prompts_of_get? hm]
  | none hop hmodels =>
    have hsame : db'.prompts = db.prompts := by
      funext name
      rw [Database.prompts, Database.prompts, hmodels]
    cases operation with
    | createModel | setModelTag | deleteModelTag | renameModel | deleteModel =>
      simp [area, isRead] at hop
    | _ => exact hsame

end Operation

/-! ### Errors for a name that is taken -/

namespace Registry

variable {db : Database} {name : String} {e : StoreError}

theorem code_of_requireModel_eq_error (h : (requireModel name).run db = .error e) :
    e.code ≠ .resourceAlreadyExists := by
  rw [run_requireModel] at h
  split at h
  · cases h
  · obtain rfl := Except.error.inj h
    exact nofun

theorem code_of_loadModel_eq_error (h : (loadModel name).run db = .error e) :
    e.code ≠ .resourceAlreadyExists := by
  rw [loadModel, Query.bind_eq_error_iff] at h
  rcases h with h | ⟨m, -, h⟩
  · exact code_of_requireModel_eq_error h
  rcases Query.bind_eq_error_iff.mp h with h | ⟨versions, -, h⟩
  · obtain ⟨⟨version, v⟩, -, h⟩ := Query.exists_of_mapM_eq_error h
    rcases Query.bind_eq_error_iff.mp h with h | ⟨entity, -, h⟩
    · rw [decode] at h
      split at h
      · cases h
      · obtain rfl := Except.error.inj h
        intro hcode
        cases hcode
    · cases h
  · cases h

end Registry

namespace Models

variable {call : Call} {db : Database} {name newName : String} {e : StoreError}

theorem spares_requireModel (name : String) :
    (ask (requireModel name)).Spares .resourceAlreadyExists :=
  spares_ask fun _ _ => code_of_requireModel_eq_error

theorem spares_loadModel (name : String) :
    (ask (loadModel name)).Spares .resourceAlreadyExists :=
  spares_ask fun _ _ => code_of_loadModel_eq_error

theorem spares_putTag (name key value : String) :
    (putTag name key value).Spares .resourceAlreadyExists :=
  spares_bind (spares_requireModel name) fun _ =>
    spares_bind (spares_attemptUpsert (by decide) _ _ _) fun _ => spares_modify _

theorem spares_forM_putTag (name : String) (tags : List Tag) :
    (tags.forM fun tag => putTag name tag.key tag.value).Spares .resourceAlreadyExists :=
  spares_forM (f := fun tag : Tag => putTag name tag.key tag.value)
    (fun tag => spares_putTag name tag.key tag.value) tags

theorem spares_alterVersions (name : String) (p : Int → VersionRecord → Bool)
    (f : VersionRecord → VersionRecord) :
    (alterVersions name p f).Spares .resourceAlreadyExists :=
  spares_bind (spares_requireModel name) fun _ =>
    spares_bind (spares_attempt (by decide) _ _ _) fun _ => spares_modify _

theorem raises_insertNew {m : ModelRecord} {newIsPrompt : Bool}
    (h : (insertNew name m newIsPrompt).Raises call db e)
    (hcode : e.code = .resourceAlreadyExists) :
    ∃ existing, db.prompts name = some existing ∧ e = .modelExists name existing newIsPrompt := by
  have hread := h.after hcode (spares_attemptOr (by decide) _ _ _) (leads_attemptOr _ _ _ _)
  have hmatch := hread.after hcode spares_get leads_get
  split at hmatch
  · next taken htaken => exact ⟨_, Database.prompts_of_get? htaken, (raises_throw _).mp hmatch⟩
  · exact absurd hmatch (raises_modify _)

/-- **A creation reports the kinds of both models.** -/
theorem raises_create {description : Option String} {tags : List Tag}
    (h : (create name description tags).Raises call db e)
    (hcode : e.code = .resourceAlreadyExists) :
    ∃ existing, db.prompts name = some existing ∧
      e = .modelExists name existing (firstMarksPrompt tags) := by
  obtain ⟨_, -, hnamed⟩ := h.of_ensure_bind (by simp [hcode])
  obtain ⟨_, -, htransact⟩ := hnamed.of_ensure_bind (by simp [hcode])
  have hbody := (htransact.of_transact (by simp [hcode])).after hcode spares_read leads_read
  rcases (raises_bind _ _).mp hbody with hinsert | ⟨_, _, -, hrest⟩
  · rw [← isPrompt_firstPerKey]
    exact raises_insertNew hinsert hcode
  · refine absurd hcode (hrest.code_ne ?_)
    exact spares_bind (spares_forM_putTag name _) fun _ => spares_loadModel name

theorem raises_moveModel {now : Int} (h : (moveModel name newName now).Raises call db e)
    (hcode : e.code = .resourceAlreadyExists) :
    ∃ renamed existing, newName ≠ name ∧ db.prompts name = some renamed ∧
      db.prompts newName = some existing ∧ e = .modelExists newName false false := by
  rcases (raises_bind _ _).mp h with hfind | ⟨m, _, hfind, hmove⟩
  · exact absurd hcode (spares_requireModel name _ _ _ hfind)
  obtain ⟨hm, rfl⟩ := (yields_ask _).mp hfind
  have hread := hmove.after hcode (spares_attemptOr (by decide) _ _ _) (leads_attemptOr _ _ _ _)
  have hguard := hread.after hcode spares_get leads_get
  split at hguard
  · next htaken =>
    obtain ⟨hne, hcontains⟩ : newName ≠ name ∧ _ := by simpa using htaken
    obtain ⟨taken, htaken⟩ := Option.isSome_iff_exists.mp hcontains
    have herror : e = .modelExists newName false false := by simpa using hguard
    exact ⟨_, _, hne, Database.prompts_of_get? (requireModel_eq_ok_iff.mp hm),
      Database.prompts_of_get? htaken, herror⟩
  · exact absurd hguard (raises_modify _)

/-- **A rename reports two models that are no prompts**, whatever they are. -/
theorem raises_rename (h : (rename name newName).Raises call db e)
    (hcode : e.code = .resourceAlreadyExists) :
    ∃ renamed existing, newName ≠ name ∧ db.prompts name = some renamed ∧
      db.prompts newName = some existing ∧ e = .modelExists newName false false := by
  obtain ⟨_, -, hwithin⟩ := h.of_ensure_bind (by simp [hcode])
  obtain ⟨e', htransact, rfl⟩ := (raises_within _ _).mp hwithin
  rw [StoreError.code_during] at hcode
  have hduring : e'.during "error renaming registered model" = e' := by
    rw [StoreError.during, if_neg (by simp [hcode])]
  have hbody := (htransact.of_transact (by simp [hcode])).after hcode spares_read leads_read
  rw [hduring]
  rcases (raises_bind _ _).mp hbody with hmove | ⟨_, _, -, hrest⟩
  · exact raises_moveModel hmove hcode
  · refine absurd hcode (hrest.code_ne ?_)
    exact spares_bind (spares_checkpoint (by decide) _ _) fun _ =>
      spares_bind (spares_alterVersions newName _ _) fun _ =>
      spares_bind (spares_requireModel newName) fun _ =>
      spares_bind (spares_attempt (by decide) _ _ _) fun _ =>
      spares_bind (spares_attempt (by decide) _ _ _) fun _ =>
      spares_bind (spares_attempt (by decide) _ _ _) fun _ => spares_loadModel newName

/-- A model cannot be created under the name of another one. -/
theorem failsWith_create (hcall : call.Undisturbed) {taken : ModelRecord}
    (htaken : db.models.get? name = some taken) (hname : Rules.modelName name = .ok ())
    {tags : List Tag} (htags : checkTagKeys (firstPerKey tags) = .ok ())
    (description : Option String) :
    (create name description tags).FailsWith call db .resourceAlreadyExists := by
  have hinsert (m : ModelRecord) (newIsPrompt : Bool) :
      (insertNew name m newIsPrompt).FailsWith call db .resourceAlreadyExists := by
    refine .after hcall (leads_attemptOr _ _ _ _) <| .after hcall leads_get ?_
    rw [htaken]
    exact ⟨_, perform_throw .., rfl⟩
  exact .ensure_bind hname <| .ensure_bind htags <| .transact hcall.unhindered _ <|
    .after hcall leads_read <| .bind (hinsert _ _) _

end Models

/-- What is said of two models that are no prompts is said of no others. -/
theorem StoreError.modelExistsText_eq_iff (name : String) (existing new : Bool) :
    modelExistsText name false false = modelExistsText name existing new ↔
      existing = false ∧ new = false := by
  refine ⟨fun h => ?_, by rintro ⟨rfl, rfl⟩; rfl⟩
  -- the three other wordings begin with another letter
  have hfirst := congrArg (fun text : String => text.toList.head?) h
  cases existing <;> cases new <;> simp [modelExistsText, kindText] at hfirst ⊢

/-- **Creations report the kinds of the two models that want one name, and renames do if neither is
a prompt.** The kind of a model is what its tags say when it is read; a call that fails changes no
kind, and one that succeeds does as `Operation.Reclassifies` says. In every database that calls lead
to, a creation that fails because the name is taken reports the kind of the model that has the name
then, and that of the new model, for which the first tag of each key counts. A rename that fails
because the name is taken reports two models that are no prompts, so what it says is what should be
said of the two models only if they are none. If nothing disturbs a call that keeps the rules, it
does fail so where another model has the name. -/
theorem conflicts_on_creation_name_kinds {db : Database} (hdb : Reachable db) :
    (∀ name (call : Call), call.Unhindered → ∀ kind, db.prompts name = some kind →
      ∃ model, (Operation.getModel name).run.Yields call db (.model model) db ∧
        kind = isPrompt model.tags) ∧
    (∀ (operation : Operation) call e db', operation.run.perform call db = (.error e, db') →
      db'.prompts = db.prompts) ∧
    (∀ (operation : Operation) call answer db', operation.run.Yields call db answer db' →
      operation.Reclassifies db.prompts db'.prompts) ∧
    (∀ name description tags call e db',
      (Operation.createModel name description tags).run.perform call db = (.error e, db') →
      e.code = .resourceAlreadyExists →
      ∃ existing, db.prompts name = some existing ∧
        e = .modelExists name existing (firstMarksPrompt tags)) ∧
    (∀ name newName call e db',
      (Operation.renameModel name newName).run.perform call db = (.error e, db') →
      e.code = .resourceAlreadyExists →
      ∃ renamed existing, newName ≠ name ∧ db.prompts name = some renamed ∧
        db.prompts newName = some existing ∧ e = .modelExists newName false false ∧
        (e.message = StoreError.modelExistsText newName existing renamed ↔
          existing = false ∧ renamed = false)) ∧
    ∀ (call : Call), call.Undisturbed →
      (∀ name existing description tags, db.prompts name = some existing →
        Text.isBlank name = false → Models.checkTagKeys (Models.firstPerKey tags) = .ok () →
        (Operation.createModel name description tags).run.FailsWith call db
          .resourceAlreadyExists) ∧
      ∀ name renamed newName existing, db.prompts name = some renamed →
        db.prompts newName = some existing → newName ≠ name → Text.isBlank newName = false →
        (Operation.renameModel name newName).run.FailsWith call db .resourceAlreadyExists := by
  have hrule {name : String} (hgiven : Text.isBlank name = false) :
      Rules.modelName name = .ok () := by
    rw [Rules.modelName, hgiven]
    rfl
  refine ⟨?_, ?_, fun operation call answer db' => Operation.reclassifies, ?_, ?_, ?_⟩
  · intro name call hcall kind hkind
    obtain ⟨m, hm, rfl⟩ := Option.map_eq_some_iff.mp hkind
    obtain ⟨model, hmodel, -⟩ := (hdb.wellFormed hm).exists_yields_getModel hm hcall
    obtain ⟨-, -, hload, -⟩ := Operation.yields_getModel.mp hmodel
    obtain ⟨u, versions, hu, -, hfields⟩ := loadModel_eq_ok_iff.mp hload
    obtain rfl := Option.some.inj (hm.symm.trans hu)
    exact ⟨model, hmodel, by rw [hfields]⟩
  · intro operation call e db' h
    rw [Operation.eq_of_perform_error h]
  · intro name description tags call e db' h hcode
    exact Models.raises_create ((raises_map _ _).mp (congrArg Prod.fst h)) hcode
  · intro name newName call e db' h hcode
    obtain ⟨renamed, existing, hne, hrenamed, hexisting, rfl⟩ :=
      Models.raises_rename ((raises_map _ _).mp (congrArg Prod.fst h)) hcode
    exact ⟨renamed, existing, hne, hrenamed, hexisting, rfl,
      StoreError.modelExistsText_eq_iff newName existing renamed⟩
  · intro call hcall
    constructor
    · intro name existing description tags hexisting hgiven htags
      obtain ⟨taken, htaken, -⟩ := Option.map_eq_some_iff.mp hexisting
      exact (Models.failsWith_create hcall htaken (hrule hgiven) htags description).map _
    · intro name renamed newName existing hrenamed hexisting hne hgiven
      obtain ⟨m, hm, -⟩ := Option.map_eq_some_iff.mp hrenamed
      obtain ⟨taken, htaken, -⟩ := Option.map_eq_some_iff.mp hexisting
      exact (Models.failsWith_rename hcall hm (hrule hgiven) hne ⟨taken, htaken⟩).map _

/-- A prompt is created and renamed, and so is a model that becomes a prompt and none again. -/
private def kindsChanged : List (Call × Operation) :=
  [(.plain, .createModel "p" none [⟨promptTagKey, "True"⟩, ⟨promptTagKey, "false"⟩]),
    (.plain, .renameModel "p" "a"), (.plain, .createModel "b" none []),
    (.plain, .setModelTag "b" promptTagKey "true"), (.plain, .deleteModelTag "b" promptTagKey)]

private def kindsKnown : Database := (Operation.performAll kindsChanged .empty).2

/-- A creation finds the kinds that the calls before it have left. -/
theorem creation_reports_kind_after_rename :
    Reachable kindsKnown ∧ ∃ e db',
      (Operation.createModel "a" none []).run.perform .plain kindsKnown = (.error e, db') ∧
      e.code = .resourceAlreadyExists ∧ e = .modelExists "a" true false := by
  have hdb : Reachable kindsKnown := ⟨kindsChanged, rfl⟩
  have hkind : kindsKnown.prompts "a" = some true := by decide +kernel
  obtain ⟨-, -, -, hcreate, -, htaken⟩ := conflicts_on_creation_name_kinds hdb
  obtain ⟨e, hfails, hcode⟩ :=
    (htaken .plain Call.plain_undisturbed).1 "a" true none [] hkind (by decide) rfl
  obtain ⟨existing, hexisting, herror⟩ := hcreate "a" none [] .plain e _ hfails hcode
  obtain rfl := Option.some.inj (hexisting.symm.trans hkind)
  exact ⟨hdb, e, _, hfails, hcode, herror⟩

/-- **Renames do not report the kinds of the two models**: a model that is no prompt cannot get the
name of a prompt, and what is said is that a registered model has it. -/
theorem not_conflicts_on_rename_name_kinds :
    ¬ ∀ db, Reachable db → ∀ name newName call e db' renamed existing,
      (Operation.renameModel name newName).run.perform call db = (.error e, db') →
      e.code = .resourceAlreadyExists → db.prompts name = some renamed →
      db.prompts newName = some existing →
      e.message = StoreError.modelExistsText newName existing renamed := by
  intro h
  let renamed := (Operation.renameModel "b" "a").run.perform .plain kindsKnown
  have hresult : renamed.1 = .error (.modelExists "a" false false) := by decide +kernel
  have hmessage := h kindsKnown ⟨kindsChanged, rfl⟩ "b" "a" .plain _ renamed.2 false true
    (Prod.ext hresult rfl) rfl (by decide +kernel) (by decide +kernel)
  exact absurd ((StoreError.modelExistsText_eq_iff "a" true false).mp hmessage).1 nofun

end RunLedger
