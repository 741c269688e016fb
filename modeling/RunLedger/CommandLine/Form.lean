import RunLedger.Binary64.Decimal
import RunLedger.Tag
import RunLedger.Text.Digits

/-!
# Forms of values

The value of an option is a text of a certain form. One of another form breaks the grammar of
command lines, whatever else is asked for.

## Main definitions

* `Form`: the forms.
* `readPath?`, `readTimeout?`: readers of values, beside those for numbers and tags.
* `Form.accepts`: whether a text has a form.
-/

namespace RunLedger.CommandLine

/-- The form of a value. -/
inductive Form
  /-- Any text. -/
  | text
  /-- An integer of 64 bits. -/
  | integer
  /-- A natural number of 64 bits. -/
  | timeout
  /-- A floating-point number. -/
  | real
  /-- A key and a value. -/
  | tag
  /-- A path. -/
  | path
deriving DecidableEq

/-- A path, which must not be empty. -/
def readPath? (text : String) : Option String := if text.isEmpty then none else some text

/-- A natural number of 64 bits, with an optional plus sign. -/
def readTimeout? (text : String) : Option Nat :=
  (Text.readNat? (match text.toList with
    | '+' :: ds => ds
    | cs => cs)).filter (· < 0x10000000000000000)

/-- Whether a text has a form. -/
def Form.accepts (form : Form) (text : String) : Bool :=
  match form with
  | .text => true
  | integer => (Text.readInt64? text.toList).isSome
  | timeout => (readTimeout? text).isSome
  | real => (Binary64.read? text.toList).isSome
  | tag => (TagText.split? text).isSome
  | path => (readPath? text).isSome

end RunLedger.CommandLine
