import RunLedger.Registry

/-!
# Registered models

A model is created under a name that is not taken; models and prompts share one name space. Every
change of a model or its versions, except those of tags, aliases and the descriptions of versions,
moves the time of its last change forward, also when the clock has not. Renaming a model takes
everything it owns along, and deleting it removes everything it owns.

## Main definitions

* `Models.create`, `Models.get`, `Models.update`, `Models.rename`, `Models.delete`: the calls.
* `Models.setTag`, `Models.deleteTag`: the calls for tags.
-/

namespace RunLedger.Models

open Work Registry

/-- The keys of tags must not be blank. -/
def checkTagKeys (tags : List Tag) : Except RuleViolation Unit :=
  tags.forM fun tag => Rules.tagKey tag.key

/-- Of tags with one key the first one. -/
def firstPerKey (tags : List Tag) : List Tag := distinct (fun a b => a.key == b.key) tags

/-- Sets one tag of a model. -/
def putTag (name key value : String) : Work Unit := do
  let m ← ask (requireModel name)
  attemptUpsert .modelTags (modelTagRow name key (some value)) (m.tags.contains key)
  putModel name { m with tags := m.tags.insert key (some value) }

/-- Inserts the record of a new model, which is a prompt or not. -/
def insertNew (name : String) (m : ModelRecord) (newIsPrompt : Bool) : Work Unit := do
  attemptOr (.activityFailed "error creating registered model") .insert .models [m.row name]
  match (← get).models.get? name with
  | some taken => throw (.modelExists name (isPrompt (readTags taken.tags)) newIsPrompt)
  | none => putModel name m

/-- Creates a model. Of tags with one key the first one stays. -/
def create (name : String) (description : Option String) (tags : List Tag) :
    Work RegisteredModel := do
  ensure (Rules.modelName name)
  let tags := firstPerKey tags
  ensure (checkTagKeys tags)
  transact "create_registered_model" do
    let now := (← read).now
    insertNew name
      { creationTime := now, lastUpdatedTime := now, description, tags := .empty,
        versions := .empty, aliases := .empty } (isPrompt tags)
    tags.forM fun tag => putTag name tag.key tag.value
    ask (loadModel name)

/-- The model with the given name. -/
def get (name : String) : Work RegisteredModel :=
  consult "get_registered_model" .models (loadModel name)

/-- Replaces the description of a model. -/
def update (name : String) (description : Option String) : Work RegisteredModel :=
  within "error updating registered model" <| transact "update_registered_model" do
    alterModel name fun m => { m with description }
    touch name
    ask (loadModel name)

/-- Moves the row of a model, and with it everything the model owns, to another name. -/
def moveModel (name newName : String) (now : Int) : Work Unit := do
  let m ← ask (requireModel name)
  let m := { m with lastUpdatedTime := bumped now m.lastUpdatedTime }
  attemptOr (.activityFailed "error renaming registered model") .update .models [m.row newName]
  if newName != name && (← MonadState.get).models.contains newName then
    throw (.modelExists newName false false)
  modify fun db => { db with models := (db.models.erase name).insert newName m }

/-- Renames a model. The versions, their tags, and the tags and aliases of the model carry its name;
the versions note the change as well. -/
def rename (name newName : String) : Work RegisteredModel := do
  ensure (Rules.modelName newName)
  within "error renaming registered model" <| transact "rename_registered_model" do
    let now := (← read).now
    moveModel name newName now
    checkpoint "rename_registered_model" (.inside 0)
    alterVersions newName (fun _ _ => true) fun v => { v with lastUpdatedTime := now }
    let m ← ask (requireModel newName)
    attempt .update .versionTags (m.versionTagRows newName)
    attempt .update .modelTags (m.tagRows newName)
    attempt .update .aliases (m.aliasRows newName)
    ask (loadModel newName)

/-- Deletes a model and everything it owns. -/
def delete (name : String) : Work Unit :=
  within "error deleting registered model" <| transact "delete_registered_model" do
    let m ← ask (requireModel name)
    attempt .delete .versionTags (m.versionTagRows name)
    attempt .delete .versions (m.versionRows name)
    putModel name { m with versions := .empty }
    checkpoint "delete_registered_model" (.inside 0)
    attempt .delete .modelTags (m.tagRows name)
    attempt .delete .aliases (m.aliasRows name)
    attempt .delete .models [m.row name]
    modify fun db => { db with models := db.models.erase name }

/-- Sets a tag of a model. -/
def setTag (name key value : String) : Work Unit := do
  ensure (Rules.tagKey key)
  transact "set_registered_model_tag" do
    putTag name key value

/-- Deletes a tag of a model; deleting a tag that is not set changes nothing. -/
def deleteTag (name key : String) : Work Unit := do
  ensure (Rules.tagKey key)
  transact "delete_registered_model_tag" do
    let m ← ask (requireModel name)
    attempt .delete .modelTags ((m.tags.filter fun k _ => k == key).entries.map fun (k, value) =>
      modelTagRow name k value)
    putModel name { m with tags := m.tags.erase key }

end RunLedger.Models
