import RunLedger.Text.Blank
import RunLedger.Text.Lowercase

/-!
# Stages and statuses

Experiments and runs are active or deleted. A model version is in one of five stages: four that a
caller may name, and the mark of a soft deletion, which no caller's text denotes. A version also has
a registration status.

## Main definitions

* `LifecycleStage`, `VersionStage`, `VersionStatus`, each with its stored spelling `stored` and the
  exact decoding `ofStored?`.
* `VersionStage.isActive`: the stages other versions can be archived out of.
* `VersionStage.ofText?`: the stage a caller's text names.

## Main results

* `LifecycleStage.ofStored?_stored`, `VersionStage.ofStored?_stored`: every stage is decoded from
  its stored spelling.
-/

namespace RunLedger

/-- Whether an experiment or a run accepts work. -/
inductive LifecycleStage
  | active
  | deleted
deriving DecidableEq

namespace LifecycleStage

/-- The stored spelling. -/
def stored : LifecycleStage → String
  | active => "active"
  | deleted => "deleted"

/-- The stage with the given stored spelling. -/
def ofStored? (s : String) : Option LifecycleStage :=
  [active, deleted].find? fun stage => stage.stored == s

theorem ofStored?_stored (stage : LifecycleStage) : ofStored? stage.stored = some stage := by
  cases stage <;> rfl

end LifecycleStage

/-- The stage of a model version. -/
inductive VersionStage
  | none
  | staging
  | production
  | archived
  /-- The mark of a soft deletion. -/
  | deletedInternal
deriving DecidableEq

namespace VersionStage

/-- The stored spelling. -/
def stored : VersionStage → String
  | none => "None"
  | staging => "Staging"
  | production => "Production"
  | archived => "Archived"
  | deletedInternal => "Deleted_Internal"

/-- The stages a caller may name. -/
def named : List VersionStage := [none, staging, production, archived]

/-- The stage with the given stored spelling. -/
def ofStored? (s : String) : Option VersionStage :=
  (named ++ [deletedInternal]).find? fun stage => stage.stored == s

theorem ofStored?_stored (stage : VersionStage) : ofStored? stage.stored = some stage := by
  cases stage <;> rfl

/-- Staging and Production are the stages other versions can be archived out of. -/
def isActive (stage : VersionStage) : Bool :=
  stage == staging || stage == production

/-- Whether the stage marks a soft deletion. -/
def isDeleted (stage : VersionStage) : Bool :=
  stage == deletedInternal

/-- The spellings a caller may use, for error messages. -/
def namedText : String :=
  String.intercalate ", " (named.map stored)

/-- The stage that a caller's text names, up to surrounding white space and letter case. -/
def ofText? (s : String) : Option VersionStage :=
  let wanted := Text.lowercase (Text.trim s.toList)
  named.find? fun stage => Text.lowercase stage.stored.toList == wanted

end VersionStage

/-- How far the registration of a model version has come. -/
inductive VersionStatus
  | pendingRegistration
  | failedRegistration
  | ready
deriving DecidableEq

namespace VersionStatus

/-- The stored spelling. -/
def stored : VersionStatus → String
  | pendingRegistration => "PENDING_REGISTRATION"
  | failedRegistration => "FAILED_REGISTRATION"
  | ready => "READY"

/-- The status with the given stored spelling. -/
def ofStored? (s : String) : Option VersionStatus :=
  [pendingRegistration, failedRegistration, ready].find? fun status => status.stored == s

end VersionStatus

end RunLedger
