import RunLedger.Registry

/-!
# Aliases of registered models

An alias is a name, unique within a model, for one of its versions. Setting it moves it if it is
bound already.

## Main definitions

* `Aliases.set`, `Aliases.delete`, `Aliases.get`: the calls.
-/

namespace RunLedger.Aliases

open Work Registry

/-- Binds an alias to a version. -/
def set (name aliasName : String) (version : Int) : Work Unit := do
  ensure (Rules.aliasName aliasName)
  transact "set_registered_model_alias" do
    let m ← ask (requireModel name)
    let _ ← ask (requireVersion name version)
    attemptUpsert .aliases (aliasRow name aliasName version) (m.aliases.contains aliasName)
    putModel name { m with aliases := m.aliases.insert aliasName version }

/-- Deletes an alias; deleting one that is not bound changes nothing. -/
def delete (name aliasName : String) : Work Unit := do
  ensure (Rules.aliasName aliasName)
  transact "delete_registered_model_alias" do
    let m ← ask (requireModel name)
    attempt .delete .aliases ((m.aliases.filter fun k _ => k == aliasName).entries.map
      fun (k, version) => aliasRow name k version)
    putModel name { m with aliases := m.aliases.erase aliasName }

/-- The version that an alias stands for. -/
def resolve (name aliasName : String) : Query ModelVersion := do
  let m ← requireModel name
  match m.aliases.get? aliasName with
  | some version => loadVersion name version
  | none => throw (.aliasNotFound aliasName)

/-- The version that an alias stands for. -/
def get (name aliasName : String) : Work ModelVersion := do
  ensure (Rules.aliasName aliasName)
  consult "get_model_version_by_alias" .models (resolve name aliasName)

end RunLedger.Aliases
