import RunLedger.Config
import RunLedger.Database
import RunLedger.Path

/-!
# Files

A ledger keeps its database in a file, and configurations and batches of metrics are read from text
files. The path to a text file is walked; the path to a database names its place.

## Main definitions

* `Content`: what a file holds.
* `FileTree`: the files and directories that are known.
* `FileTree.readText`: a text file, or why it cannot be read.
* `FileTree.fileNamed?`: the place of the file of a database.
-/

namespace RunLedger

/-- What a file holds. -/
inductive Content
  /-- A text. -/
  | text (s : String)
  /-- Bytes that are no text. -/
  | binary
  /-- A database and how it keeps its journal. -/
  | database (db : Database) (mode : JournalMode)
deriving DecidableEq

namespace Content

/-- Nothing. -/
def nothing : Content := text ""

/-- Whether the first byte is zero, as it is in no database and no index of a log. Where nothing is
there, zero is read. -/
def startsWithZero : Content → Bool
  | text s => s.toList.head?.all (· == Char.ofNat 0)
  | binary | database _ _ => false

/-- Whether there are at least as many bytes as at the head of a write-ahead log. -/
def isLong : Content → Bool
  | text s => 32 ≤ s.utf8ByteSize
  | binary | database _ _ => true

end Content

/-- What is at a place. -/
inductive Node
  /-- A directory. -/
  | folder
  /-- A file. -/
  | file (content : Content)
  /-- A device, which is used like a file but keeps nothing. -/
  | device
deriving DecidableEq

/-- What is at a place, but for what a file holds. -/
def Node.entry : Node → Entry
  | folder => .folder
  | file _ | device => .file

/-- Why a file cannot be read as a text. -/
inductive ReadProblem
  /-- Its path cannot be walked. -/
  | blocked (o : Obstacle)
  /-- It is a directory. -/
  | isFolder
  /-- It holds no text. -/
  | notText
deriving DecidableEq

/-- The wording of a problem. -/
def ReadProblem.message : ReadProblem → String
  | blocked .missing => "No such file or directory (os error 2)"
  | blocked .notFolder => "Not a directory (os error 20)"
  | blocked .longName => "File name too long (os error 36)"
  | isFolder => "Is a directory (os error 21)"
  | notText => "stream did not contain valid UTF-8"

/-- The files and directories that are known, seen from a working directory. -/
structure FileTree where
  /-- The working directory. -/
  directory : Place
  /-- What is at each place. -/
  nodes : Table Place Node
deriving DecidableEq

namespace FileTree

/-- What is at a place. -/
def node? (t : FileTree) (p : Place) : Option Node := t.nodes.get? p

/-- The tree with a file or a directory. -/
def insert (t : FileTree) (p : Place) (node : Node) : FileTree :=
  { t with nodes := t.nodes.insert p node }

/-- The tree without the file at a place. -/
def removeFile (t : FileTree) (p : Place) : FileTree :=
  match t.node? p with
  | some (.file _) => { t with nodes := t.nodes.erase p }
  | _ => t

/-- The tree with the directories at some places. -/
def withFolders (t : FileTree) (places : List Place) : FileTree :=
  places.foldl (fun t p => t.insert p .folder) t

/-- A working directory and the directories around it. -/
def bare (directory : Place) : FileTree :=
  withFolders { directory, nodes := .empty } (Place.trail [] directory)

/-- What is where. -/
def landscape (t : FileTree) : Landscape := fun p => (t.node? p).map Node.entry

/-- What the file at a place holds. -/
def content? (t : FileTree) (p : Place) : Option Content :=
  match t.node? p with
  | some (.file content) => some content
  | some .device => some .nothing
  | _ => none

/-- The tree with a text file, and the directories that it is in. -/
def addText (t : FileTree) (path s : String) : FileTree :=
  let path := Text.bytes path
  let folders := (Place.start t.directory path).trail (Place.parts path).dropLast
  (t.withFolders folders).insert (Place.ofPath t.directory path) (.file (.text s))

/-- The tree with text files, each with the directories that it is in. -/
def addTexts (t : FileTree) (files : List (String × String)) : FileTree :=
  files.foldl (fun t (path, s) => t.addText path s) t

/-- Walks a path. -/
def find (t : FileTree) (path : List UInt8) : Except Obstacle Place :=
  t.landscape.find t.directory path

/-- The text of a file, or why it cannot be read. -/
def readText (t : FileTree) (path : String) : Except ReadProblem String :=
  match t.find (Text.bytes path) with
  | .error obstacle => .error (.blocked obstacle)
  | .ok place =>
    match t.content? place with
    | none => .error .isFolder
    | some (.text s) => .ok s
    | some _ => .error .notText

/-- The place of the file of a database that a path names, if there can be one. -/
def fileNamed? (t : FileTree) (path : List UInt8) : Option Place :=
  t.landscape.fileNamed? t.directory path

end FileTree

end RunLedger
