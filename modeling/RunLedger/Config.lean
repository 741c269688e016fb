import RunLedger.Error
import RunLedger.Json.Codec
import RunLedger.Toml.Parser

/-!
# Configuration of a ledger

A ledger is opened from a configuration: where its database is, how long a writer waits for the
write lock, how the database keeps its journal, how many keys one look-up of latest metrics asks
for, and where artifacts go by default. All but the path have defaults. It is read from JSON or
TOML.

## Main definitions

* `JournalMode`, `Config`.
* `Config.atPath`: the defaults for a path.
* `Config.validate`: a path is given and the chunk size is positive.
* `Config.ofToml?`: a configuration in a TOML document.
-/

namespace RunLedger

/-- How the database keeps its journal. -/
inductive JournalMode
  | wal
  | delete
deriving DecidableEq

namespace JournalMode

/-- The written form. -/
def text : JournalMode → String
  | wal => "wal"
  | delete => "delete"

/-- The mode with the given written form. -/
def ofText? (s : String) : Option JournalMode :=
  [wal, delete].find? fun mode => mode.text == s

instance : JsonCodec JournalMode where
  encode mode := Json.ofString mode.text
  decode? := Json.enum? ofText?

end JournalMode

/-- The configuration of a ledger. -/
structure Config where
  /-- Where the database is. -/
  path : String
  /-- How long a writer waits for the write lock. -/
  busyTimeoutMs : Nat
  /-- How the database keeps its journal. -/
  journalMode : JournalMode
  /-- How many keys one look-up of latest metrics asks for. -/
  chunkSize : Nat
  /-- Where the artifacts of an experiment go if it does not say. -/
  artifactRoot : String
deriving DecidableEq

namespace Config

/-- The path of a database that is kept in memory only. -/
def inMemoryPath : String := ":memory:"

/-- The default waiting time for the write lock. -/
def defaultBusyTimeoutMs : Nat := 5000

/-- The default number of keys for one look-up. -/
def defaultChunkSize : Nat := 500

/-- The default place for artifacts. -/
def defaultArtifactRoot : String := "./mlruns"

/-- The defaults for a path. -/
def atPath (path : String) : Config where
  path
  busyTimeoutMs := defaultBusyTimeoutMs
  journalMode := .wal
  chunkSize := defaultChunkSize
  artifactRoot := defaultArtifactRoot

/-- The longest waiting time for the write lock that can be kept, in milliseconds. -/
def longestWaitMs : Nat := 2147483647

/-- Whether the waiting time for the write lock can be kept. -/
def canWait (c : Config) : Bool := c.busyTimeoutMs ≤ longestWaitMs

/-- Whether the database is kept in memory only. -/
def isInMemory (c : Config) : Bool := c.path == inMemoryPath

/-- A path must be given, and the chunk size must be positive. -/
def validate (c : Config) : Except StoreError Unit :=
  if c.path.isEmpty then .error .emptyPath
  else if c.chunkSize = 0 then .error .zeroChunkSize
  else .ok ()

/-- The JSON form of a configuration. -/
def toJson (c : Config) : Json :=
  Json.ofFields [("path", Json.ofString c.path), ("busy_timeout_ms", Json.ofInt c.busyTimeoutMs),
    ("journal_mode", JsonCodec.encode c.journalMode),
    ("latest_metrics_chunk_size", Json.ofInt c.chunkSize),
    ("default_artifact_root", Json.ofString c.artifactRoot)]

/-- The configuration that a JSON value denotes. -/
def ofJson? (j : Json) : Option Config := do
  let fields ← Json.record? ["path", "busy_timeout_ms", "journal_mode",
    "latest_metrics_chunk_size", "default_artifact_root"] j
  let path ← fields.required? 0 Json.text?
  let busyTimeoutMs ← fields.defaulted? 1 defaultBusyTimeoutMs Json.nat64?
  let journalMode ← fields.defaulted? 2 .wal JsonCodec.decode?
  let chunkSize ← fields.defaulted? 3 defaultChunkSize Json.nat64?
  let artifactRoot ← fields.defaulted? 4 defaultArtifactRoot Json.text?
  some { path, busyTimeoutMs, journalMode, chunkSize, artifactRoot }

instance : JsonCodec Config := ⟨toJson, ofJson?⟩

/-- The string of a TOML value. -/
def tomlText? : Toml → Option String
  | .string s => some s
  | _ => none

/-- The natural number of a TOML value. -/
def tomlNat? : Toml → Option Nat
  | .integer n => if 0 ≤ n then some n.toNat else none
  | _ => none

/-- The entry of a key, or the default where the document has none. -/
def tomlField? {α : Type} (document : Toml.Entries) (key : String) (default : α)
    (read? : Toml → Option α) : Option α :=
  match Toml.get? document key with
  | none => some default
  | some v => read? v

/-- The configuration in a TOML document; other keys of it are skipped. -/
def ofToml? (text : String) : Option Config := do
  let document ← Toml.parse? text.toList
  let path ← (Toml.get? document "path").bind tomlText?
  let busyTimeoutMs ← tomlField? document "busy_timeout_ms" defaultBusyTimeoutMs tomlNat?
  let journalMode ← tomlField? document "journal_mode" .wal fun v =>
    v.enumName?.bind JournalMode.ofText?
  let chunkSize ← tomlField? document "latest_metrics_chunk_size" defaultChunkSize tomlNat?
  let artifactRoot ← tomlField? document "default_artifact_root" defaultArtifactRoot tomlText?
  some { path, busyTimeoutMs, journalMode, chunkSize, artifactRoot }

end Config

end RunLedger
