import RunLedger.Config
import RunLedger.Path
import RunLedger.Text.Digits

/-!
# Locations of databases

A database is in memory or in a file. Where it is, and how it may be used, is said by a path or by
a URI: `file:` with a path, and options as in `file:name?option=value&option=value`. In the parts of
a URI a percent sign with two hexadecimal digits stands for a byte. A database without a name is
kept until it is closed, like one in memory. One in memory is shared by its name if its cache is
shared, or if memory keeps it as a file and its name is absolute.

## Main definitions

* `Isolation`: what others find while a unit of work is open.
* `Keeper`, `Access`: what keeps the file of a database, and how it may be used.
* `Location`: where a database is.
* `Location.options`, `Location.ofUri?`: what a URI says.
* `Location.ofPath?`: the location that a path or a URI says.
-/

namespace RunLedger

/-- What other handles find in a database while a unit of work is open on it. They cannot write, as
long as something is locked. -/
inductive Isolation
  /-- The state before the unit. -/
  | snapshot
  /-- The state before the unit, until it has written more than its page cache takes; then
  nothing. -/
  | cached
  /-- The state before the unit, but not in the tables that the unit has written. -/
  | tables
  /-- Nothing. -/
  | whole
  /-- The state before the unit, and whatever others write meanwhile: nothing is locked. -/
  | unlocked
deriving DecidableEq

/-- What keeps the file of a database. -/
inductive Keeper
  /-- Files with locks, for several programs. -/
  | shared
  /-- Files with locks, for one program alone. -/
  | exclusive
  /-- Files without locks. -/
  | unlocked
  /-- Files that are locked by files beside them. -/
  | lockFile
  /-- Memory. -/
  | memory
deriving DecidableEq

/-- How the file of a database may be used. -/
structure Access where
  /-- Whether a file that is not there is created. -/
  creates : Bool
  /-- Whether the file is opened for writing. -/
  writes : Bool
  /-- Whether the file is taken never to change, so that nothing beside it matters. -/
  fixed : Bool
  /-- Whether the file is locked while it is used. -/
  locks : Bool
  /-- Whether the index of a write-ahead log is only read. -/
  fixedIndex : Bool
  /-- The path of the file that a new file is to be like, which must be there. -/
  likeness : Option (List UInt8)
  /-- Whether the handles of the program share what they have read. -/
  sharesCache : Bool
  /-- What keeps the file. -/
  keeper : Keeper
deriving DecidableEq

namespace Access

/-- The access to a file that a plain path names. -/
def plain : Access where
  creates := true
  writes := true
  fixed := false
  locks := true
  fixedIndex := false
  likeness := none
  sharesCache := false
  keeper := .shared

/-- Whether the database can be changed. -/
def canWrite (a : Access) : Bool := a.writes && !a.fixed

/-- Whether a write-ahead log can be kept. -/
def canLog (a : Access) : Bool :=
  a.locks && !a.fixed && (a.keeper == .shared || a.keeper == .exclusive)

/-- Whether the index of a write-ahead log is a file; one program alone has it in memory. -/
def hasIndexFile (a : Access) : Bool := !(a.keeper == .exclusive && a.canWrite)

/-- Whether the database is locked by a file beside it. -/
def hasLockFile (a : Access) : Bool := a.keeper == .lockFile && a.locks && !a.fixed

/-- Whether changes go to a write-ahead log. Otherwise a journal takes what the file holds, and the
changes go to the file itself. -/
def keepsLog (a : Access) (mode : JournalMode) : Bool := a.canLog && mode = .wal

/-- Whether only one handle at a time can write: the file is locked, or the cache is, if it is
shared. -/
def excludes (a : Access) : Bool := a.sharesCache || (a.locks && a.keeper != .unlocked)

/-- What others find while a unit of work is open. -/
def isolation (a : Access) (mode : JournalMode) : Isolation :=
  if a.sharesCache then .tables
  else if !a.excludes then .unlocked
  else if a.hasLockFile then .whole
  else if a.keepsLog mode then .snapshot
  else .cached

end Access

/-- Where a database is. -/
inductive Location
  /-- In memory: a new one each time it is opened, or one that all share who have it open. -/
  | memory (writes : Bool) (sharing : Option Isolation)
  /-- In a file that a path names. -/
  | file (path : List UInt8) (access : Access)
deriving DecidableEq

namespace Location

/-- What others find while a unit of work is open. A database that is not shared has no others. -/
def isolation (mode : JournalMode) : Location → Isolation
  | memory _ sharing => sharing.getD .snapshot
  | file _ access => access.isolation mode

/-- The bytes that a part of a URI stands for, up to the first zero byte. -/
def decoded : List Char → List UInt8
  | [] => []
  | '%' :: a :: b :: cs =>
    match Text.hexDigit? a, Text.hexDigit? b with
    | some x, some y => if 16 * x + y = 0 then [] else UInt8.ofNat (16 * x + y) :: decoded cs
    | _, _ => '%'.toUInt8 :: decoded (a :: b :: cs)
  | c :: cs => Text.bytes (String.singleton c) ++ decoded cs

/-- The options of a URI with their values, in order; one without a name does not count. -/
def options (query : List Char) : List (List UInt8 × List UInt8) :=
  ((Text.fields '&' query).map fun field =>
    (decoded (Text.cut '=' field).1, decoded (Text.cut '=' field).2)).filter fun (name, _) =>
      name != []

/-- The values of one option, in order. -/
def valuesOf (options : List (List UInt8 × List UInt8)) (name : String) : List (List UInt8) :=
  options.filterMap fun (n, v) => if n = Text.bytes name then some v else none

/-- The words that are the values of one option, in order. Bytes that are no text are no word. -/
def wordsOf (options : List (List UInt8 × List UInt8)) (name : String) : List (Option String) :=
  (valuesOf options name).map Text.ofBytes?

/-- How a database is to be opened. -/
inductive Mode
  | readOnly
  | readWrite
  | create
  | memory
deriving DecidableEq

namespace Mode

/-- The mode with the given written form. -/
def ofText? : String → Option Mode
  | "ro" => some readOnly
  | "rw" => some readWrite
  | "rwc" => some create
  | "memory" => some memory
  | _ => none

/-- How much a mode allows. -/
def rank : Mode → Nat
  | readOnly => 0
  | readWrite => 1
  | create => 2
  | memory => 3

/-- The mode once another one is asked for, which may be memory, or one that allows no more than the
present one. -/
def change? (present asked : Mode) : Option Mode :=
  if asked = memory || asked.rank ≤ present.rank then some asked else none

/-- The mode that options ask for. -/
def ofOptions? (options : List (List UInt8 × List UInt8)) : Option Mode :=
  (wordsOf options "mode").foldlM (fun present word => (word.bind ofText?).bind present.change?)
    create

end Mode

/-- The keeper with the given name. -/
def keeperOfText? : String → Option Keeper
  | "unix" => some .shared
  | "unix-excl" => some .exclusive
  | "unix-none" => some .unlocked
  | "unix-dotfile" => some .lockFile
  | "memdb" => some .memory
  | _ => none

/-- The keeper that options name, the last one if they name several. -/
def keeper? (options : List (List UInt8 × List UInt8)) : Option Keeper :=
  match (wordsOf options "vfs").getLast? with
  | some word => word.bind keeperOfText?
  | none => some .shared

/-- Whether options ask for a shared cache, the last one if they ask more than once. -/
def sharesCache? (options : List (List UInt8 × List UInt8)) : Option Bool := do
  let asked ← (wordsOf options "cache").mapM fun
    | some "shared" => some true
    | some "private" => some false
    | _ => none
  return asked.getLast?.getD false

/-- The greatest value of a switch; a greater one counts as zero. -/
def greatestSwitch : Nat := 2147483647

/-- The number at the start of the value of a switch: decimal digits, or hexadecimal ones behind a
zero and an x. -/
def switchNumber? : List Char → Option Nat
  | '0' :: x :: d :: cs =>
    if (x = 'x' || x = 'X') && (Text.hexDigit? d).isSome then
      Text.readHex? ((d :: cs).takeWhile fun c => (Text.hexDigit? c).isSome)
    else some (Text.natOfDigits (('0' :: x :: d :: cs).takeWhile Char.isDigit))
  | cs => if cs.head?.any Char.isDigit then some (Text.natOfDigits (cs.takeWhile Char.isDigit))
    else none

/-- Whether the value of a switch turns it on: a number whose low byte is not zero, or a word. -/
def isOn (value : List UInt8) : Bool :=
  let cs := value.map Char.ofUInt8
  match switchNumber? cs with
  | some n => n ≤ greatestSwitch && n % 256 != 0
  | none => ["on", "yes", "true"].any fun word => Text.sameLetters cs word.toList

/-- Whether options turn a switch on; the first value counts. -/
def switchedOn (options : List (List UInt8 × List UInt8)) (name : String) : Bool :=
  (valuesOf options name).head?.any isOn

/-- The path in a URI and what follows it, behind the name of the machine, which can only be this
one. -/
def behindAuthority? : List Char → Option (List Char)
  | '/' :: '/' :: cs =>
    let machine := String.ofList (cs.takeWhile (· != '/'))
    if machine == "" || machine == "localhost" then some (cs.dropWhile (· != '/')) else none
  | cs => some cs

/-- The most bytes that the name of a file in memory can have. -/
def longestInMemory : Nat := 1016

/-- The location that a URI says, from behind its scheme. A fragment does not count, nor does an
option that is not known. -/
def ofUri? (cs : List Char) : Option Location := do
  let (written, query) := Text.cut '?' ((← behindAuthority? cs).takeWhile (· != '#'))
  let options := options query
  let name := decoded written
  let mode ← Mode.ofOptions? options
  let keeper ← keeper? options
  let sharesCache := (← sharesCache? options) && name != []
  let access : Access :=
    { creates := mode = .create, writes := mode != .readOnly
      fixed := switchedOn options "immutable", locks := !switchedOn options "nolock"
      fixedIndex := switchedOn options "readonly_shm"
      likeness := (valuesOf options "modeof").head?, sharesCache, keeper }
  let sharing := if sharesCache then some .tables else none
  if mode = .memory || name = [] || name = Text.bytes Config.inMemoryPath then
    return .memory access.writes sharing
  else if keeper != .memory then return .file name access
  else if longestInMemory < name.length then none
  else
    let absolute := name.head? = some Place.slash && name != [Place.slash]
    let locked := if access.locks then Isolation.whole else .unlocked
    return .memory access.canWrite (if !sharesCache && absolute then some locked else sharing)

/-- The location that a path or a URI says. A path with a zero character says none. -/
def ofPath? (path : String) : Option Location :=
  if path.toList.contains (Char.ofNat 0) then none
  else
    match path.toList with
    | 'f' :: 'i' :: 'l' :: 'e' :: ':' :: cs => ofUri? cs
    | _ =>
      if path == Config.inMemoryPath then some (.memory true none)
      else some (.file (Text.bytes path) .plain)

end Location

end RunLedger
