import RunLedger.CommandLine.Run
import RunLedger.Database.Snapshot
import Std.Time.DateTime

/-!
# The program

Looks up the files that a command line names, runs it, prints what it comes to and keeps what it
leaves. A failure is printed as one JSON object on standard error.

## Main definitions

* `main`: the program.
-/

namespace RunLedger.Program

open CommandLine

/-- What a file with the given bytes holds. -/
def contentOf (bytes : ByteArray) : Content :=
  match String.fromUTF8? bytes with
  | none => .binary
  | some s =>
    match Database.ofText? s with
    | some (db, mode) => .database db mode
    | none => .text s

/-- The bytes of a file. What is no text is kept as a single byte that is none. -/
def bytesOf : Content → ByteArray
  | .text s => s.toUTF8
  | .database db mode => (db.toText mode).toUTF8
  | .binary => ⟨#[255]⟩

/-- The path from the root to a place. -/
def pathTo (place : Place) : IO String :=
  match Text.ofBytes? place.path with
  | some path => return if path.isEmpty then "/" else path
  | none => throw (.userError "a path must be a text")

/-- Adds what is at a place to the files that are known. -/
def look (files : FileTree) (place : Place) : IO FileTree := do
  let path := (← IO.currentDir) / (← pathTo place)
  if !(← path.pathExists) then return files
  match (← path.metadata).type with
  | .dir => return files.insert place .folder
  | .other => return files.insert place .device
  | _ => return files.insert place (.file (contentOf (← IO.FS.readBinFile path)))

/-- The places that a path leads through. -/
def onTheWay (directory : Place) (path : List UInt8) : List Place :=
  (Place.start directory path).trail (Place.parts path)

/-- The places of a database and what is beside it, with those on the way. -/
def aroundDatabase (directory : Place) (path : List UInt8) (access : Access) : List Place :=
  let place := Place.ofPath directory path
  onTheWay directory path ++ Companion.all.map (·.place place)
    ++ (access.likeness.map (onTheWay directory)).getD []

/-- The files that a command line needs, and the directories on the way to them. -/
def lookUp (args : List String) (environment : Option String) : IO FileTree := do
  let directory := Place.ofPath [] (Text.bytes (← IO.currentDir).toString)
  let files := FileTree.bare directory
  match invocation? args environment with
  | none => return files
  | some i =>
    let texts := i.textFiles.flatMap fun path => onTheWay directory (Text.bytes path)
    let files ← texts.foldlM look files
    match i.databaseFile? files with
    | none => return files
    | some (path, access) => (aroundDatabase directory path access).foldlM look files

/-- Writes and removes what a command has changed. -/
def save (before after : FileTree) : IO Unit := do
  for (place, _) in before.nodes.entries do
    if (after.node? place).isNone then IO.FS.removeFile (← pathTo place)
  for (place, node) in after.nodes.entries do
    match node with
    | .file content =>
      if before.content? place != some content then
        IO.FS.writeBinFile (← pathTo place) (bytesOf content)
    | .folder | .device => continue

/-- The reading of the wall clock in milliseconds. -/
def wallClock : IO Int := do
  return (← Std.Time.Timestamp.now).toMillisecondsSinceUnixEpoch.val

/-- Random bits. -/
def randomBits : IO Nat := do
  let bytes ← IO.getRandomBytes 16
  return bytes.toList.foldl (fun n b => 256 * n + b.toNat) 0

/-- The line that is printed for a failure. -/
def failureLine (f : Failure) : String :=
  String.ofList (Json.print (Json.ofFields
    [("error_code", .ofString f.code.text), ("message", .ofString f.message)]))

/-- The commands, one on each line, with their options. -/
def helpText : String :=
  let line (path : List String) (parameters : List Parameter) : String :=
    String.intercalate " " (path ++ parameters.map fun p => "--" ++ p.name)
  String.intercalate "\n" (line ["Options:"] globals :: "Commands:" ::
    commands.map fun (path, own) => "  " ++ line path own)

/-- Prints what a command line comes to. -/
def report : Result → IO Unit
  | .printed text => IO.print text
  | .failed f => IO.eprintln (failureLine f)
  | .help => IO.println helpText
  | .misused => IO.eprintln helpText
  | .stopped => IO.eprintln StoreError.waitTooLong.message

/-- Runs one command line and returns its exit code. -/
def start (args : List String) : IO UInt32 := do
  let environment ← IO.getEnv "MLMETA_DB"
  let files ← lookUp args environment
  let (result, left) := run args
    { now := ← wallClock, entropy := ← randomBits, database := environment, files }
  save files left
  report result
  return result.exitCode.toUInt32

end RunLedger.Program

/-- Runs one command line. -/
def main (args : List String) : IO UInt32 := RunLedger.Program.start args
