import RunLedger.Text.Bytes
import RunLedger.Text.Fields

/-!
# Paths

A path leads from directory to directory, part by part between its slashes, to a place. It starts
in the working directory, or at the root if a slash comes first. Names and paths are bytes, which
need not be those of a text.

A path is gone in one of two ways. One who walks it needs a directory for each part to lead on from.
One who names a place by it goes by the names alone, and two dots take back the name before them,
whether it is there or not; the names must only be such that one can ask what is there, and the
places on the way must not lie too deep.

## Main definitions

* `Place`: a place in the tree of directories.
* `Place.step`: the place that one part of a path leads to.
* `Landscape`: what is there.
* `Landscape.walk`, `Landscape.find`: walks parts of a path, or all of it.
* `Landscape.fileNamed?`: the place of the file that a path names.
-/

namespace RunLedger

/-- A name, by its bytes. -/
abbrev Name := List UInt8

/-- A place in the tree of directories: the names on the way to it from the root. -/
abbrev Place := List Name

namespace Place

/-- The byte between the parts of a path. -/
def slash : UInt8 := '/'.toUInt8

/-- The part of a path that stays. -/
def dot : Name := ['.'.toUInt8]

/-- The part of a path that leads to the directory around. -/
def dots : Name := ['.'.toUInt8, '.'.toUInt8]

/-- The most bytes that a name can have. -/
def longestName : Nat := 255

/-- The directory around a place; the root is around itself. -/
def parent (p : Place) : Place := p.dropLast

/-- The place that one part of a path leads to: an empty part and a dot stay, two dots lead to the
directory around, and any other part is a name. -/
def step (p : Place) (part : Name) : Place :=
  if part = [] || part = dot then p else if part = dots then p.parent else p ++ [part]

/-- The parts of a path between its slashes. -/
def parts (path : List UInt8) : List Name := Text.fields slash path

/-- The directory in which a path starts, from a working directory. -/
def start (directory : Place) (path : List UInt8) : Place :=
  if path.head? = some slash then [] else directory

/-- The places that parts of a path lead through, with both ends. -/
def trail (p : Place) : List Name → List Place
  | [] => [p]
  | part :: rest => p :: trail (p.step part) rest

/-- The place that a path leads to by its names alone. -/
def ofPath (directory : Place) (path : List UInt8) : Place :=
  (parts path).foldl step (start directory path)

/-- The shortest path from the root to a place; that of the root itself is empty. -/
def path (p : Place) : List UInt8 := p.flatMap fun name => slash :: name

/-- How deep a place lies, by the bytes of its path. -/
def depth (p : Place) : Nat := p.path.length

/-- The greatest depth of a place that the path of a database leads through. -/
def deepest : Nat := 511

/-- The greatest depth of the file of a database. -/
def deepestFile : Nat := 504

end Place

/-- What is at a place. -/
inductive Entry
  | folder
  | file
deriving DecidableEq

/-- Why a path cannot be walked. -/
inductive Obstacle
  /-- Nothing is where it leads. -/
  | missing
  /-- A file is on the way. -/
  | notFolder
  /-- A name, or the path, is too long. -/
  | longName
deriving DecidableEq

/-- What is there, as far as it is known. The root is always there. -/
abbrev Landscape := Place → Option Entry

namespace Landscape

/-- What is at a place. -/
def entry? (l : Landscape) (p : Place) : Option Entry := if p.isEmpty then some .folder else l p

/-- Walks parts of a path from a place. What they lead to must be there. -/
def walk (l : Landscape) (p : Place) (parts : List Name) : Except Obstacle Place :=
  match l.entry? p, parts with
  | none, _ => .error .missing
  | some _, [] => .ok p
  | some .file, _ :: _ => .error .notFolder
  | some .folder, part :: rest =>
    if Place.longestName < part.length then .error .longName else l.walk (p.step part) rest

/-- The most bytes that a path can have. -/
def longestPath : Nat := 4095

/-- Walks a path from a working directory. An empty path leads nowhere. -/
def find (l : Landscape) (directory : Place) (path : List UInt8) : Except Obstacle Place :=
  if path.isEmpty then .error .missing
  else if longestPath < path.length then .error .longName
  else l.walk (Place.start directory path) (Place.parts path)

/-- Whether one can ask what is at a place: no name on the way is in a file, and no name in a
directory is too long. -/
def canAsk (l : Landscape) (p : Place) : Bool :=
  match l.walk [] p with
  | .ok _ | .error .missing => true
  | .error _ => false

/-- The place of the file of a database that a path names, where there can be a file: in a directory
that is there and not itself one. -/
def fileNamed? (l : Landscape) (directory : Place) (path : List UInt8) : Option Place :=
  let p := Place.ofPath directory path
  let way := (Place.start directory path).trail (Place.parts path)
  if (way.all fun q => l.canAsk q && q.depth ≤ Place.deepest) && p.depth ≤ Place.deepestFile
      && l.entry? p.parent = some .folder && l.entry? p != some .folder then some p
  else none

end Landscape

end RunLedger
