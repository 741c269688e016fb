import RunLedger.Entity
import RunLedger.Table

/-!
# Which observation is the latest

Of the observations of one key the latest has the highest step; of those the latest timestamp
decides, and of those the largest value, compared as it is stored. Between observations that agree
in all three the earlier candidate stays.

## Main definitions

* `Point`: step, timestamp and reading of an observation.
* `Point.supersedes`: one point replaces another.
* `Point.stored`: a point as a table keeps it.
* `Metric.point`: the point of an observation as a client logs it.
* `winners`: the winning candidate of each key.
-/

namespace RunLedger

/-- What decides between observations of one key. -/
structure Point where
  /-- The step of the run. -/
  step : Int
  /-- When it was measured. -/
  timestamp : Int
  /-- The value measured, as it is stored. -/
  reading : Reading
deriving DecidableEq

/-- Whether `p` replaces `q`: a higher step, then a later timestamp, then a larger value. -/
def Point.supersedes (p q : Point) : Bool :=
  q.step < p.step
    || (p.step == q.step && q.timestamp < p.timestamp)
    || (p.step == q.step && p.timestamp == q.timestamp
      && q.reading.value.rank < p.reading.value.rank)

/-- The point as a table keeps it, without a negative zero. -/
def Point.stored (p : Point) : Point := { p with reading := p.reading.stored }

@[simp] theorem Point.stored_stored (p : Point) : p.stored.stored = p.stored := by
  simp only [stored, Reading.stored_stored]

/-- The point of an observation. -/
def Metric.point (m : Metric) : Point where
  step := m.step
  timestamp := m.timestamp
  reading := .ofValue m.value

/-- Enters a candidate if its key has no winner yet or it supersedes that winner. -/
def contend {α : Type} (key : α → String) (point : α → Point) (best : Table String α)
    (candidate : α) : Table String α :=
  match best.get? (key candidate) with
  | some current =>
    if (point candidate).supersedes (point current) then best.insert (key candidate) candidate
    else best
  | none => best.insert (key candidate) candidate

/-- The winning candidate of each key. -/
def winners {α : Type} (key : α → String) (point : α → Point) (candidates : List α) :
    Table String α :=
  candidates.foldl (contend key point) .empty

end RunLedger
