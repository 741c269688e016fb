import RunLedger.Proofs.Registry.Change

/-!
# Calls on models and their aliases

What the calls on registered models, their tags and their aliases lead to, and what a success of
one of them takes. Creating, renaming and deleting a model change which names are taken; the other
calls change the record under one name.

## Main results

* `Models.create_inversion`, `Models.rename_inversion`, `Models.delete_inversion`: what is left of
  the names.
* `Models.update_inversion`, `Models.setTag_inversion`, `Aliases.set_inversion` and their like: what
  is left under one name.
-/

namespace RunLedger

open Work Registry

section Calls

variable {call : Call} {db db' : Database} {name : String} {m : ModelRecord}

/-! ### Models -/

namespace Models

theorem leads_putTag (hm : db.models.get? name = some m) (key value : String) :
    (putTag name key value).Leads call db ()
      (db.withModel name { m with tags := m.tags.insert key (some value) }) :=
  leads_bind (leads_ask (requireModel_eq_ok_iff.mpr hm)) <|
    leads_bind (leads_attemptUpsert _ _ _) (leads_putModel _ _)

/-- Setting tags one after the other. -/
theorem leads_forM_putTag (hm : db.models.get? name = some m) (tags : List Tag) :
    (tags.forM fun tag => putTag name tag.key tag.value).Leads call db ⟨⟩
      (db.withModel name { m with tags := enterTags m.tags tags }) := by
  induction tags generalizing db m with
  | nil =>
    rw [enterTags, List.foldl_nil, Database.withModel_eq_self hm]
    exact leads_pure
  | cons tag tags ih =>
    have hrest := ih (Database.get?_withModel_self db name
      { m with tags := m.tags.insert tag.key (some tag.value) })
    rw [Database.withModel_withModel] at hrest
    exact leads_bind (leads_putTag hm tag.key tag.value) hrest

theorem leads_setTag (hm : db.models.get? name = some m) {key : String}
    (hkey : Rules.tagKey key = .ok ()) (value : String) :
    (setTag name key value).Leads call db ()
      (db.withModel name ((Operation.setModelTag name key value).amend call.now m)) :=
  leads_bind (leads_ensure hkey) <| leads_transact (leads_putTag hm key value)

theorem setTag_inversion {key value : String} {u : Unit}
    (h : (setTag name key value).Yields call db u db') :
    ∃ m, db.models.get? name = some m ∧
      db' = db.withModel name ((Operation.setModelTag name key value).amend call.now m) := by
  obtain ⟨_, hkey, htransact⟩ := yields_ensure_bind.mp h
  obtain ⟨m, hm, -⟩ := yields_ask_bind.mp ((yields_transact _ _).mp htransact).2.2.1
  have hm := requireModel_eq_ok_iff.mp hm
  exact ⟨m, hm, ((leads_setTag hm hkey value).1 _ _ h).2⟩

theorem leads_deleteTag (hm : db.models.get? name = some m) {key : String}
    (hkey : Rules.tagKey key = .ok ()) :
    (deleteTag name key).Leads call db ()
      (db.withModel name ((Operation.deleteModelTag name key).amend call.now m)) :=
  leads_bind (leads_ensure hkey) <| leads_transact <|
    leads_bind (leads_ask (requireModel_eq_ok_iff.mpr hm)) <|
    leads_bind (leads_attempt _ _ _) (leads_putModel _ _)

theorem deleteTag_inversion {key : String} {u : Unit}
    (h : (deleteTag name key).Yields call db u db') :
    ∃ m, db.models.get? name = some m ∧
      db' = db.withModel name ((Operation.deleteModelTag name key).amend call.now m) := by
  obtain ⟨_, hkey, htransact⟩ := yields_ensure_bind.mp h
  obtain ⟨m, hm, -⟩ := yields_ask_bind.mp ((yields_transact _ _).mp htransact).2.2.1
  have hm := requireModel_eq_ok_iff.mp hm
  exact ⟨m, hm, ((leads_deleteTag hm hkey).1 _ _ h).2⟩

/-- A name that is not taken can be given to a new model. -/
theorem leads_insertNew (hnew : db.models.get? name = none) (m : ModelRecord)
    (newIsPrompt : Bool) :
    (insertNew name m newIsPrompt).Leads call db () (db.withModel name m) := by
  refine leads_bind (leads_attemptOr _ _ _ _) <| leads_bind leads_get ?_
  rw [hnew]
  exact leads_putModel name m

theorem leads_create (call : Call) (hnew : db.models.get? name = none)
    (hname : Rules.modelName name = .ok ())
    {tags : List Tag} (htags : checkTagKeys (firstPerKey tags) = .ok ())
    (description : Option String) :
    ∃ answer, (create name description tags).Leads call db answer
      (db.withModel name (.ofNew call.now description tags)) := by
  let m := ModelRecord.ofNew call.now description tags
  have hm := Database.get?_withModel_self db name m
  obtain ⟨answer, hload⟩ := exists_loadModel hm (by rintro version v ⟨⟩)
  refine ⟨answer, leads_bind (leads_ensure hname) <| leads_bind (leads_ensure htags) <|
    leads_transact <| leads_bind leads_read <| leads_bind (leads_insertNew hnew _ _) <|
    leads_bind (leads_forM_putTag (Database.get?_withModel_self _ _ _) (firstPerKey tags)) ?_⟩
  rw [Database.withModel_withModel]
  exact leads_ask hload

theorem create_inversion {description : Option String} {tags : List Tag}
    {answer : RegisteredModel} (h : (create name description tags).Yields call db answer db') :
    db.models.get? name = none ∧
      db' = db.withModel name (.ofNew call.now description tags) := by
  obtain ⟨_, hname, hrest⟩ := yields_ensure_bind.mp h
  obtain ⟨_, htags, htransact⟩ := yields_ensure_bind.mp hrest
  have hinsert := leads_read.next ((yields_transact _ _).mp htransact).2.2.1
  obtain ⟨_, db₁, hinsert, -⟩ := (yields_bind _ _).mp hinsert
  have hnew : db.models.get? name = none := by
    have hput := leads_get.next ((leads_attemptOr _ _ _ _).next hinsert)
    cases hname : db.models.get? name with
    | none => rfl
    | some taken =>
      rw [hname] at hput
      exact absurd hput (yields_throw _)
  obtain ⟨answer', hleads⟩ := leads_create call hnew hname htags description
  exact ⟨hnew, (hleads.1 _ _ h).2⟩

theorem update_inversion {description : Option String} {answer : RegisteredModel}
    (h : (update name description).Yields call db answer db') :
    ∃ m, db.models.get? name = some m ∧
      db' = db.withModel name ((Operation.updateModel name description).amend call.now m) := by
  have hbody := ((yields_transact _ _).mp ((yields_within _ _).mp h)).2.2.1
  obtain ⟨_, _, halter, -⟩ := (yields_bind _ _).mp hbody
  obtain ⟨m, hm, -⟩ := yields_ask_bind.mp halter
  have hm := requireModel_eq_ok_iff.mp hm
  have htouch := (leads_alterModel hm _).next hbody
  have hload := (leads_touch (Database.get?_withModel_self _ _ _)).next htouch
  rw [Database.withModel_withModel] at hload
  exact ⟨m, hm, ((yields_ask _).mp hload).2⟩

/-- A model can be moved to a name that is not taken, and to its own. -/
theorem leads_moveModel (hm : db.models.get? name = some m) {newName : String}
    (hfree : newName = name ∨ db.models.get? newName = none) (now : Int) :
    (moveModel name newName now).Leads call db ()
      ((db.withoutModel name).withModel newName (m.touched now)) := by
  refine leads_bind (leads_ask (requireModel_eq_ok_iff.mpr hm)) <|
    leads_bind (leads_attemptOr _ _ _ _) <| leads_bind leads_get ?_
  have hguard : ¬ (newName != name && db.models.contains newName) = true := by
    rcases hfree with rfl | hfree
    · simp
    · simp [Table.contains, hfree]
  rw [if_neg hguard]
  exact leads_modify _

theorem rename_inversion {newName : String} {answer : RegisteredModel}
    (h : (rename name newName).Yields call db answer db') :
    ∃ m, db.models.get? name = some m ∧ (newName = name ∨ db.models.get? newName = none) ∧
      db' = (db.withoutModel name).withModel newName
        ((Operation.renameModel name newName).amend call.now m) := by
  obtain ⟨_, -, hwithin⟩ := yields_ensure_bind.mp h
  have hbody := leads_read.next ((yields_transact _ _).mp ((yields_within _ _).mp hwithin)).2.2.1
  obtain ⟨_, _, hmove, -⟩ := (yields_bind _ _).mp hbody
  obtain ⟨m, hm, hmove⟩ := yields_ask_bind.mp hmove
  have hm := requireModel_eq_ok_iff.mp hm
  have hfree : newName = name ∨ db.models.get? newName = none := by
    have hguard := leads_get.next ((leads_attemptOr _ _ _ _).next hmove)
    split at hguard
    · simp at hguard
    · next hfree => simpa [Table.contains, or_iff_not_imp_left] using hfree
  refine ⟨m, hm, hfree, ?_⟩
  have hself := Database.get?_withModel_self
  have hversions := (leads_checkpoint _ _).next ((leads_moveModel hm hfree call.now).next hbody)
  have hask := (leads_alterVersions call (hself _ _ _) _ _).next hversions
  rw [Database.withModel_withModel] at hask
  have htags := (leads_ask (requireModel_eq_ok_iff.mpr (hself _ _ _))).next hask
  have hload := (leads_attempt _ _ _).next <| (leads_attempt _ _ _).next <|
    (leads_attempt _ _ _).next htags
  exact ((yields_ask _).mp hload).2

theorem leads_delete (hm : db.models.get? name = some m) :
    (delete name).Leads call db () (db.withoutModel name) := by
  rw [← db.withoutModel_withModel name { m with versions := .empty }]
  exact leads_within <| leads_transact <|
    leads_bind (leads_ask (requireModel_eq_ok_iff.mpr hm)) <| leads_bind (leads_attempt _ _ _) <|
    leads_bind (leads_attempt _ _ _) <| leads_bind (leads_putModel _ _) <|
    leads_bind (leads_checkpoint _ _) <| leads_bind (leads_attempt _ _ _) <|
    leads_bind (leads_attempt _ _ _) <| leads_bind (leads_attempt _ _ _) (leads_modify _)

theorem delete_inversion {u : Unit} (h : (delete name).Yields call db u db') :
    (∃ m, db.models.get? name = some m) ∧ db' = db.withoutModel name := by
  obtain ⟨m, hm, -⟩ := yields_ask_bind.mp
    ((yields_transact _ _).mp ((yields_within _ _).mp h)).2.2.1
  have hm := requireModel_eq_ok_iff.mp hm
  exact ⟨⟨m, hm⟩, ((leads_delete hm).1 _ _ h).2⟩

end Models

/-! ### Aliases -/

namespace Aliases

theorem leads_set (hm : db.models.get? name = some m) {version : Int} {v : VersionRecord}
    (hv : m.versions.get? version = some v) (hlive : v.stage.isDeleted = false)
    (hread : v.IsReadable) {aliasName : String} (halias : Rules.aliasName aliasName = .ok ()) :
    (set name aliasName version).Leads call db ()
      (db.withModel name ((Operation.setAlias name aliasName version).amend call.now m)) := by
  obtain ⟨entity, hfound⟩ := exists_requireVersion hm hv hlive hread
  exact leads_bind (leads_ensure halias) <| leads_transact <|
    leads_bind (leads_ask (requireModel_eq_ok_iff.mpr hm)) <| leads_bind (leads_ask hfound) <|
    leads_bind (leads_attemptUpsert _ _ _) (leads_putModel _ _)

theorem set_inversion {aliasName : String} {version : Int} {u : Unit}
    (h : (set name aliasName version).Yields call db u db') :
    ∃ m, db.models.get? name = some m ∧ (Operation.setAlias name aliasName version).Accepts m ∧
      db' = db.withModel name ((Operation.setAlias name aliasName version).amend call.now m) := by
  obtain ⟨_, halias, htransact⟩ := yields_ensure_bind.mp h
  obtain ⟨m, hm, hrest⟩ := yields_ask_bind.mp ((yields_transact _ _).mp htransact).2.2.1
  have hm := requireModel_eq_ok_iff.mp hm
  obtain ⟨⟨m', v, entity⟩, hfound, -⟩ := yields_ask_bind.mp hrest
  obtain ⟨hm', hv, hlive, hread⟩ := of_requireVersion hfound
  obtain rfl := Option.some.inj (hm.symm.trans hm')
  exact ⟨m, hm, ⟨halias, v, hv, hlive⟩, ((leads_set hm hv hlive hread halias).1 _ _ h).2⟩

theorem leads_delete (hm : db.models.get? name = some m) {aliasName : String}
    (halias : Rules.aliasName aliasName = .ok ()) :
    (delete name aliasName).Leads call db ()
      (db.withModel name ((Operation.deleteAlias name aliasName).amend call.now m)) :=
  leads_bind (leads_ensure halias) <| leads_transact <|
    leads_bind (leads_ask (requireModel_eq_ok_iff.mpr hm)) <|
    leads_bind (leads_attempt _ _ _) (leads_putModel _ _)

theorem delete_inversion {aliasName : String} {u : Unit}
    (h : (delete name aliasName).Yields call db u db') :
    ∃ m, db.models.get? name = some m ∧
      db' = db.withModel name ((Operation.deleteAlias name aliasName).amend call.now m) := by
  obtain ⟨_, halias, htransact⟩ := yields_ensure_bind.mp h
  obtain ⟨m, hm, -⟩ := yields_ask_bind.mp ((yields_transact _ _).mp htransact).2.2.1
  have hm := requireModel_eq_ok_iff.mp hm
  exact ⟨m, hm, ((leads_delete hm halias).1 _ _ h).2⟩

end Aliases

end Calls

end RunLedger
