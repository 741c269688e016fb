import RunLedger.Json.Number
import RunLedger.Json.Parser
import RunLedger.Json.Printer

/-!
# Types in JSON

A type with a JSON form has an encoder and a decoder. A record is written as an object with its
fields in order. It is read from an object, where unknown fields are skipped and a known field may
occur once, or from an array of its fields in order. A field that is missing can have a default: a
field of optional type has one in an object only, a defaulted field in both forms. An enumeration is
written as the name of its value, and read also from an object that maps the name to `null`.

## Main definitions

* `JsonCodec`: types with a JSON form, with `JsonCodec.toText` and `JsonCodec.ofText?`.
* `Json.record?`: the fields of a record, by position.
* `RecordFields.required?`, `RecordFields.optional?`, `RecordFields.defaulted?`: one field.
* `Json.enum?`: the name of an enumerated value.
-/

namespace RunLedger

/-- A type with a JSON form. -/
class JsonCodec (α : Type) where
  /-- The JSON form of a value. -/
  encode : α → Json
  /-- The value that a JSON form denotes. -/
  decode? : Json → Option α

namespace JsonCodec

variable {α : Type} [JsonCodec α]

/-- The compact text of a value. -/
def toText (a : α) : String := String.ofList (encode a).print

/-- The text of a value over lines. -/
def toLines (a : α) : String := String.ofList ((encode a).printLines 0)

/-- The value that a whole text spells. -/
def ofText? (s : String) : Option α := (Json.parse? s.toList).bind decode?

/-- A list is an array of its members. -/
instance : JsonCodec (List α) where
  encode as := .array (as.map encode)
  decode?
    | .array items => items.mapM decode?
    | _ => none

instance : JsonCodec String where
  encode := Json.ofString
  decode? := Json.text?

end JsonCodec

/-- The fields of a record in the order of their declaration. -/
structure RecordFields where
  /-- Whether the fields came by name, from an object. -/
  byName : Bool
  /-- What was given for each field. -/
  given : List (Option Json)

namespace Json

/-- The members of an object with their names decoded. -/
def named? (members : List (List Char × Json)) : Option (List (String × Json)) :=
  members.mapM fun (name, v) => (unescape? name).map fun cs => (String.ofList cs, v)

/-- What an object gives for the field `name`: nothing, or one value; two are refused. -/
def field? (members : List (String × Json)) (name : String) : Option (Option Json) :=
  match members.filter (·.1 == name) with
  | [] => some none
  | [(_, v)] => some (some v)
  | _ => none

/-- The fields `names` of a record. -/
def record? (names : List String) : Json → Option RecordFields
  | .object members => do
    let members ← named? members
    let given ← names.mapM (field? members)
    some { byName := true, given }
  | .array items =>
    if items.length ≤ names.length then
      some { byName := false
             given := items.map some ++ List.replicate (names.length - items.length) none }
    else none
  | _ => none

/-- The object with the given fields. -/
def ofFields (fields : List (String × Json)) : Json :=
  .object (fields.map fun (name, v) => (escape name.toList, v))

/-- The value that `decode?` finds, or nothing if the JSON value is `null`. -/
def nullable? {α : Type} (decode? : Json → Option α) : Json → Option (Option α)
  | .null => some none
  | v => (decode? v).map some

/-- The JSON form of an optional value: `null` if there is none. -/
def ofOption {α : Type} (encode : α → Json) : Option α → Json
  | none => .null
  | some a => encode a

/-- The name of an enumerated value: a string, or an object that maps the name to `null`. -/
def enum? {α : Type} (ofName? : String → Option α) : Json → Option α
  | .string written => (text? (.string written)).bind ofName?
  | .object [(name, .null)] => (text? (.string name)).bind ofName?
  | _ => none

end Json

namespace RecordFields

/-- What was given for the field at a position. -/
def at? (fields : RecordFields) (position : Nat) : Option Json :=
  (fields.given[position]?).join

/-- A field that must be given. -/
def required? {α : Type} (fields : RecordFields) (position : Nat) (decode? : Json → Option α) :
    Option α :=
  (fields.at? position).bind decode?

/-- A field of optional type: `null` stands for no value, and so does its absence from an object. -/
def optional? {α : Type} (fields : RecordFields) (position : Nat) (decode? : Json → Option α) :
    Option (Option α) :=
  match fields.at? position with
  | some v => Json.nullable? decode? v
  | none => if fields.byName then some none else none

/-- A field that has the value `default` if it is not given. -/
def defaulted? {α : Type} (fields : RecordFields) (position : Nat) (default : α)
    (decode? : Json → Option α) : Option α :=
  match fields.at? position with
  | some v => decode? v
  | none => some default

end RecordFields

end RunLedger
