import RunLedger.Session

/-!
# Steps of a session

A session is a sequence of steps: clocks move, contexts come and fire, handles are opened, calls are
made through them. A unit of work can hold further steps, which are taken while it is open; then it
commits, or fails and leaves nothing behind.

## Main definitions

* `Step`: one step, and `Outcome`: what it comes to.
* `Session.take`, `Session.takeAll`: one step, and several one after the other.
* `Session.play`: a whole session, from the opening of its first handle.
-/

namespace RunLedger

/-- One step of a session. A call has the context with the given name, or a fresh one. -/
inductive Step
  | setClock (wall : Int)
  | advance (ms : Int)
  | readClock
  | newContext (name : String) (timeout : Option Int)
  | cloneContext (name source : String)
  | cancelContext (name : String)
  | inspectContext (name : String)
  | checkContext (name operation : String)
  | openHandle (handle : String)
  | readSchema (handle : String)
  | migrate (handle : String)
  | readConfig (handle : String)
  /-- A call; reading its arguments may have failed. -/
  | call (handle : String) (context : Option String) (entropy : Nat)
      (operation : Except RuleViolation Operation)
  | adjust (handle : String) (adjustment : Adjustment)
  | setFault (handle : String) (fault : Fault)
  | clearFault (handle : String) (kind : StatementKind) (table : TableName)
  | listRows (handle : String) (table : TableName)
  /-- A unit of work that inserts bare models, holds the steps `inner`, may then cancel its own
  context, and may then fail by itself. -/
  | transaction (handle : String) (context : Option String) (operation : String)
      (models : List String) (inner : List Step) (cancel : Bool) (failure : Option StoreError)

/-- What a step comes to. -/
inductive Outcome
  | done
  | number (n : Int)
  | answer (a : Answer)
  | contextState (cancelled expired hasDeadline : Bool)
  | config (c : Config)
  | rows (rows : List Row)
  | failed (e : StoreError)
  /-- A unit of work that committed, with what its inner steps came to. -/
  | committed (inner : List Outcome)
  /-- A unit of work that failed, with what its inner steps came to. -/
  | rolledBack (e : StoreError) (inner : List Outcome)
  /-- The step names a handle or a context that is not there. -/
  | unknownName

namespace Outcome

/-- The outcome of something that answers with nothing. -/
def ofUnit : Except StoreError Unit → Outcome
  | .ok _ => done
  | .error e => failed e

/-- The outcome of something that answers with a number. -/
def ofNumber : Except StoreError Int → Outcome
  | .ok n => number n
  | .error e => failed e

/-- The outcome of something that answers with rows. -/
def ofRows : Except StoreError (List Row) → Outcome
  | .ok rs => rows rs
  | .error e => failed e

/-- The outcome of a call. -/
def ofAnswer : Except StoreError Answer → Outcome
  | .ok a => answer a
  | .error e => failed e

end Outcome

namespace Session

/-- The family of the context a call is made with: a fresh one if no name is given. -/
def family? (s : Session) : Option String → Option Family
  | none => some .background
  | some name => s.contexts.family? name

/-- Changes the contexts, unless a name is unknown. -/
def changeContexts (s : Session) (contexts : Option Contexts) : Outcome × Session :=
  match contexts with
  | some contexts => (.done, { s with contexts })
  | none => (.unknownName, s)

/-- Does something with the database of a handle. -/
def onVolume (s : Session) (handle : String) (f : Nat → Volume → Outcome × Session) :
    Outcome × Session :=
  match s.volume? handle with
  | some (n, v) => f n v
  | none => (.unknownName, s)

/-- Makes a call through a handle. -/
def callThrough (s : Session) (handle : String) (context : Option String) (entropy : Nat)
    (operation : Operation) : Outcome × Session :=
  s.onVolume handle fun n v =>
    match s.family? context with
    | some family =>
      let (result, s) := s.call n v family entropy operation.run
      (.ofAnswer result, s)
    | none => (.unknownName, s)

/-- The number of an adjustment's changes; setting the version of the layout has none. -/
def adjustmentOutcome (a : Adjustment) (result : Except StoreError Int) : Outcome :=
  match a, result with
  | .schemaVersion _, .ok _ => .done
  | _, result => .ofNumber result

/-- Changes the faults set for a database, which is an adjustment as well. -/
def changeFaults (s : Session) (handle : String) (f : List Fault → List Fault) :
    Outcome × Session :=
  s.onVolume handle fun n v =>
    if v.locked then (.failed (.lockTimeout Adjustment.name), s)
    else (.done, s.putVolume n { v with faults := f v.faults })

/-- The rows of a table. They are read in a unit of work of their own. -/
def rows (table : TableName) : Work (List Row) :=
  Work.transact "dump" do return (← get).rows table

/-- How a unit of work ends: it may fail by itself, and its own context may have fired, which is
that of the family `own`, or a fresh one. A fresh context can only have been cancelled by the
unit. -/
def verdict (s : Session) (own : Option Nat) (operation : String) (cancel : Bool)
    (failure : Option StoreError) : Except StoreError Unit :=
  match failure with
  | some e => .error e
  | none =>
    let family := (own.bind s.contexts.families.get?).getD .background
    s.contexts.check (if cancel then family.cancel else family) operation

/-- Cancels the own context of a unit of work, if others can have it too. -/
def cancelOwn (s : Session) (own : Option Nat) : Session :=
  match own with
  | some number => { s with contexts := s.contexts.cancelFamily number }
  | none => s

/-- Ends a unit of work that began on the database `before` and made the given writes. -/
def conclude (s : Session) (n : Nat) (own : Option Nat) (operation : String) (cancel : Bool)
    (failure : Option StoreError) (before writes : Database) (inner : List Outcome) :
    Outcome × Session :=
  let s := if cancel then s.cancelOwn own else s
  match s.verdict own operation cancel failure with
  | .ok _ =>
    match s.commit n operation before writes with
    | (.ok _, s) => (.committed inner, s)
    | (.error e, s) => (.rolledBack e inner, s)
  | .error e => (.rolledBack e inner, s.finish n none)

/-- How many pages of a page cache a unit of work may change before the file has to take them: nine
tenths of them. -/
def changedPages : Nat := 432

/-- How many bytes of a long name a page takes. -/
def pageCapacity : Nat := 4092

/-- What a unit of work holds that inserts bare models. Their names are written twice, into rows and
into an index, and the changed pages are too many at the latest when the names alone fill more; how
much the rows take besides is not told here. -/
def holdOf (models : List String) : Hold where
  written := if models.isEmpty then [] else [.models]
  spilled := changedPages * pageCapacity < 2 * (models.flatMap Text.bytes).length

mutual

/-- Takes one step. -/
def take (s : Session) : Step → Outcome × Session
  | .setClock wall => (.done, { s with contexts := s.contexts.setWall wall })
  | .advance ms => (.done, { s with contexts := s.contexts.advance ms })
  | .readClock => (.number s.contexts.wall, s)
  | .newContext name timeout => (.done, { s with contexts := s.contexts.create name timeout })
  | .cloneContext name source => s.changeContexts (s.contexts.clone name source)
  | .cancelContext name => s.changeContexts (s.contexts.cancel name)
  | .inspectContext name =>
    match s.contexts.family? name with
    | some f =>
      (.contextState f.cancelled (f.isPastDeadline s.contexts.monotonic) f.deadline.isSome, s)
    | none => (.unknownName, s)
  | .checkContext name operation =>
    match s.contexts.family? name with
    | some f => (.ofUnit (s.contexts.check f operation), s)
    | none => (.unknownName, s)
  | .openHandle handle =>
    match s.open handle with
    | (.ok _, s) => s.onVolume handle fun _ v => (.number v.database.schemaVersion, s)
    | (.error e, s) => (.failed e, s)
  | .readSchema handle => s.onVolume handle fun _ v => (.ofNumber (s.schemaVersion v), s)
  | .migrate handle =>
    s.onVolume handle fun n v =>
      let (result, s) := s.migrate n v
      (.ofUnit result, s)
  | .readConfig handle => s.onVolume handle fun _ _ => (.config s.config, s)
  | .call _ _ _ (.error violation) => (.failed (.rule violation), s)
  | .call handle context entropy (.ok operation) => s.callThrough handle context entropy operation
  | .adjust handle a =>
    s.onVolume handle fun n v =>
      let (result, s) := s.call n v .background 0 a.run
      (adjustmentOutcome a result, s)
  | .setFault handle fault => s.changeFaults handle (· ++ [fault])
  | .clearFault handle kind table =>
    s.changeFaults handle (·.filter fun f => !(f.kind == kind && f.table == table))
  | .listRows handle table =>
    s.onVolume handle fun n v =>
      let (result, s) := s.call n v .background 0 (rows table)
      (.ofRows result, s)
  | .transaction handle context operation models inner cancel failure =>
    match s.volume? handle, s.family? context with
    | some (n, v), some family =>
      match s.begin n v family operation (seedModels models) (holdOf models) with
      | (.error e, s) => (.rolledBack e [], s)
      | (.ok writes, s) =>
        let own := context.bind s.contexts.number?
        let (outcomes, s) := takeAll s inner
        s.conclude n own operation cancel failure v.database writes outcomes
    | _, _ => (.unknownName, s)

/-- Takes steps one after the other. -/
def takeAll (s : Session) : List Step → List Outcome × Session
  | [] => ([], s)
  | step :: steps =>
    let (outcome, s) := take s step
    let (outcomes, s) := takeAll s steps
    (outcome :: outcomes, s)

end

/-- The handle that a session starts with. -/
def firstHandle : String := "a"

/-- Plays a whole session among given files: opens the first handle and takes all steps. -/
def play (config : Config) (surroundings : FileTree) (wall : Int) (steps : List Step) :
    Except StoreError (List Outcome) :=
  match (start config surroundings wall).open firstHandle with
  | (.ok _, s) => .ok (s.takeAll steps).1
  | (.error e, _) => .error e

end Session

end RunLedger
