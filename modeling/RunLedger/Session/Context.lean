import RunLedger.Error
import RunLedger.Table

/-!
# Contexts and clocks

Every call is made with a context. A context fires when it is cancelled or when the monotonic clock
reaches its deadline, and its clones fire with it. The wall clock plays no part in that: it only
gives the times that are stored, and it can be set to anything.

## Main definitions

* `Family`: a context and its clones.
* `Contexts`: both clocks, and all contexts by name.
* `Contexts.interrupt?`: whether and how a context has fired.
* `Contexts.setWall`, `Contexts.advance`, `Contexts.create`, `Contexts.clone`, `Contexts.cancel`:
  what can happen to them.
-/

namespace RunLedger

/-- A context and its clones, which share everything. -/
structure Family where
  /-- The reading of the monotonic clock at which they fire. -/
  deadline : Option Int
  /-- Whether they were cancelled. -/
  cancelled : Bool
deriving DecidableEq

namespace Family

/-- A context without a deadline. -/
def background : Family := { deadline := none, cancelled := false }

/-- Whether the deadline has passed. -/
def isPastDeadline (f : Family) (monotonic : Int) : Bool :=
  match f.deadline with
  | some d => d ≤ monotonic
  | none => false

/-- How the contexts have fired, if they have. -/
def interrupt? (f : Family) (monotonic : Int) : Option Interrupt :=
  if f.cancelled then some .cancelled
  else if f.isPastDeadline monotonic then some .pastDeadline
  else none

/-- The contexts after one of them is cancelled. -/
def cancel (f : Family) : Family := { f with cancelled := true }

end Family

/-- Both clocks and all contexts. -/
structure Contexts where
  /-- The reading of the wall clock. -/
  wall : Int
  /-- The reading of the monotonic clock. -/
  monotonic : Int
  /-- The families by number. -/
  families : Table Nat Family
  /-- The family of each context by name. -/
  names : Table String Nat
deriving DecidableEq

namespace Contexts

/-- No contexts yet, at a reading of the wall clock. -/
def start (wall : Int) : Contexts where
  wall
  monotonic := 0
  families := .empty
  names := .empty

/-- The number of the family of a context. -/
def number? (c : Contexts) (name : String) : Option Nat := c.names.get? name

/-- The family of a context. -/
def family? (c : Contexts) (name : String) : Option Family :=
  (c.number? name).bind c.families.get?

/-- Sets the wall clock. -/
def setWall (c : Contexts) (wall : Int) : Contexts := { c with wall }

/-- Lets time pass on both clocks. -/
def advance (c : Contexts) (ms : Int) : Contexts :=
  { c with wall := c.wall + ms, monotonic := c.monotonic + ms }

/-- Creates a context that fires after `timeout`, if one is given, under a name. -/
def create (c : Contexts) (name : String) (timeout : Option Int) : Contexts :=
  let number := c.families.entries.length
  { c with
    families := c.families.insert number
      { deadline := timeout.map (c.monotonic + ·), cancelled := false }
    names := c.names.insert name number }

/-- Creates a clone of a context under another name. -/
def clone (c : Contexts) (name source : String) : Option Contexts :=
  (c.number? source).map fun number => { c with names := c.names.insert name number }

/-- Cancels all contexts of a family. -/
def cancelFamily (c : Contexts) (number : Nat) : Contexts :=
  { c with families := c.families.update number .cancel }

/-- Cancels a context and its clones. -/
def cancel (c : Contexts) (name : String) : Option Contexts :=
  (c.number? name).map c.cancelFamily

/-- How a context has fired, if it has. -/
def interrupt? (c : Contexts) (f : Family) : Option Interrupt := f.interrupt? c.monotonic

/-- Fails if a context has fired. -/
def check (c : Contexts) (f : Family) (operation : String) : Except StoreError Unit :=
  match c.interrupt? f with
  | some cause => .error (.interrupted operation cause)
  | none => .ok ()

end Contexts

end RunLedger
