/-!
# TOML documents

A document is a table of keys. Its entries come from key-value lines, from headers of tables and
from headers of arrays of tables, and a table may be opened in more than one way: a table that
exists only because a longer header or a dotted key passed through it is implicit. A header may
define an implicit table once; a dotted key may extend only tables that dotted keys made.

## Main definitions

* `Toml`: values and tables.
* `Toml.Entries`: the entries of a table in the order of their keys' first use.
* `Toml.setDotted?`: the effect of one key-value line on the table it stands in.
* `Toml.openTable?`, `Toml.appendTable?`: the effect of a header on the whole document.
-/

namespace RunLedger

/-- A value, a table or an array of tables. Values whose content no reader asks for are
`opaqueScalar`: floating-point numbers, truth values, dates and times. -/
inductive Toml
  | string (text : String)
  | integer (n : Int)
  | opaqueScalar
  | array (items : List Toml)
  /-- A table written in braces; nothing can be added to it. -/
  | inlineTable (entries : List (String × Toml))
  /-- A table of the document. -/
  | table (implicitly dotted : Bool) (entries : List (String × Toml))
  /-- An array of tables, the last one first. -/
  | tables (latest : List (String × Toml)) (earlier : List (List (String × Toml)))

namespace Toml

/-- The entries of a table. -/
abbrev Entries := List (String × Toml)

/-- The entry of a key. -/
def get? (entries : Entries) (key : String) : Option Toml :=
  (entries.find? (·.1 == key)).map (·.2)

/-- Replaces the entry of a key, or adds it at the end. -/
def put (entries : Entries) (key : String) (v : Toml) : Entries :=
  if entries.any (·.1 == key) then
    entries.map fun e => if e.1 == key then (key, v) else e
  else entries ++ [(key, v)]

/-- Adds a new key; a key that exists is refused. -/
def add? (entries : Entries) (key : String) (v : Toml) : Option Entries :=
  if entries.any (·.1 == key) then none else some (entries ++ [(key, v)])

/-- The effect of a key-value line with the dotted key `path.key` on the table it stands in. Only
tables that dotted keys made can be extended. -/
def setDotted? (entries : Entries) (path : List String) (key : String) (v : Toml) :
    Option Entries :=
  match path with
  | [] => add? entries key v
  | name :: path =>
    match get? entries name with
    | none => do
      let inner ← setDotted? [] path key v
      some (entries ++ [(name, .table true true inner)])
    | some (.table true dotted inner) =>
      if path.isEmpty && !dotted then none
      else do
        let inner ← setDotted? inner path key v
        some (put entries name (.table true dotted inner))
    | some (.tables latest earlier) =>
      if path.isEmpty then none
      else do
        let latest ← setDotted? latest path key v
        some (put entries name (.tables latest earlier))
    | some _ => none

/-- Applies `change?` to the table that the header path `path` leads to, through the last table of
an array of tables, making implicit tables on the way. -/
def descend? (entries : Entries) (path : List String) (change? : Entries → Option Entries) :
    Option Entries :=
  match path with
  | [] => change? entries
  | name :: path =>
    match get? entries name with
    | none => do
      let inner ← descend? [] path change?
      some (entries ++ [(name, .table true false inner)])
    | some (.table implicitly dotted inner) => do
      let inner ← descend? inner path change?
      some (put entries name (.table implicitly dotted inner))
    | some (.tables latest earlier) => do
      let latest ← descend? latest path change?
      some (put entries name (.tables latest earlier))
    | some _ => none

/-- The effect of the header `[path.key]`: the table is defined, once. -/
def openTable? (entries : Entries) (path : List String) (key : String) : Option Entries :=
  descend? entries path fun parent =>
    match get? parent key with
    | none => some (parent ++ [(key, .table false false [])])
    | some (.table true false inner) => some (put parent key (.table false false inner))
    | some _ => none

/-- The effect of the header `[[path.key]]`: the array gets one more table. -/
def appendTable? (entries : Entries) (path : List String) (key : String) : Option Entries :=
  descend? entries path fun parent =>
    match get? parent key with
    | none => some (parent ++ [(key, .tables [] [])])
    | some (.tables latest earlier) => some (put parent key (.tables [] (latest :: earlier)))
    | some _ => none

/-- The effect of a key-value line in the table that the last header opened. -/
def setIn? (document : Entries) (header : List String) (path : List String) (key : String)
    (v : Toml) : Option Entries :=
  descend? document header fun entries => setDotted? entries path key v

/-- Whether the value is an empty table or array. -/
def isEmptyCollection : Toml → Bool
  | .array [] | .inlineTable [] | .table _ _ [] => true
  | _ => false

/-- The name of an enumerated value: a string, or a table that maps the name to an empty table or
array. -/
def enumName? : Toml → Option String
  | .string s => some s
  | .inlineTable [(name, v)] | .table _ _ [(name, v)] =>
    if v.isEmptyCollection then some name else none
  | _ => none

end Toml

end RunLedger
