import RunLedger.Error
import RunLedger.Text.Digits

/-!
# Rules for names, aliases, versions and stages

The rules a request has to keep, checked before any table is touched.

## Main definitions

* `Rules.stage`: the stage that a caller's text names.
* `Rules.aliasName`: the syntax of an alias and its two reserved forms, in that order.
* `Rules.modelName`, `Rules.tagKey`: parameters that must not be blank.
* `Rules.version`: a version number in text.
-/

namespace RunLedger

namespace Rules

/-- The stage that a caller's text names. -/
def stage (input : String) : Except RuleViolation VersionStage :=
  match VersionStage.ofText? input with
  | some stage => .ok stage
  | none => .error (.invalidStage input)

/-- The characters allowed in an alias: Latin letters, decimal digits, underscore and dash. -/
def isAliasChar (c : Char) : Bool :=
  c.isAlphanum || c == '_' || c == '-'

/-- Whether the characters are one `v` or `V` followed by one or more digits. -/
def isVersionAlias : List Char → Bool
  | c :: d :: ds => (c == 'v' || c == 'V') && (d :: ds).all Char.isDigit
  | _ => false

/-- Checks the syntax of an alias, then that it is neither of the reserved forms. -/
def aliasName (name : String) : Except RuleViolation Unit :=
  let cs := name.toList
  if cs.isEmpty || !cs.all isAliasChar then .error (.invalidAliasSyntax name)
  else if Text.sameLetters cs "latest".toList then .error .reservedLatestAlias
  else if isVersionAlias cs then .error (.reservedVersionAlias name)
  else .ok ()

/-- The name of a model must not be blank. -/
def modelName (name : String) : Except RuleViolation Unit :=
  if Text.isBlank name then .error (.missingField "name") else .ok ()

/-- The key of a tag must not be blank. -/
def tagKey (key : String) : Except RuleViolation Unit :=
  if Text.isBlank key then .error (.missingField "key") else .ok ()

/-- The version number that a text denotes, up to surrounding white space. -/
def version (input : String) : Except RuleViolation Int :=
  match Text.readInt64? (Text.trim input.toList) with
  | some n => .ok n
  | none => .error (.invalidVersion input)

end Rules

end RunLedger
