import RunLedger.Distinct
import RunLedger.Runs

/-!
# The metric log

A batch of observations of one run enters the history of the run, the lists of the logged models it
is tied to, and the latest points of its keys, in this order and as one unit of work. Repeats are
ignored: in the batch those that agree in every field, in the history those with the same key and
point, in the list of a logged model those with the same slot. A latest point moves only to a point
that supersedes it. The present latest points are looked up for several keys at a time, as many as
the configuration says; a statement that would have to ask for too many keys fails, and the unit of
work with it.

## Main definitions

* `HistoryEntry.ofMetric`, `HistoryEntry.stored`, `HistoryEntry.metric`, `HistoryEntry.modelEntry?`:
  an observation in its different forms.
* `MetricLog.batch`: the entries of a batch.
* `MetricLog.lookUp`: the latest points of some keys, looked up in pieces.
* `MetricLog.record`, `MetricLog.rebuild`: the calls that write.
* `MetricLog.history`, `MetricLog.latest`, `MetricLog.ofModel`: the calls that read.
-/

namespace RunLedger

namespace HistoryEntry

/-- The entry for an observation of a run, before a table takes it. -/
def ofMetric (runId : String) (m : Metric) : HistoryEntry where
  runId
  key := m.key
  point := m.point
  modelId := m.modelId
  datasetName := m.datasetName
  datasetDigest := m.datasetDigest

/-- The entry as the history keeps it. -/
def stored (e : HistoryEntry) : HistoryEntry := { e with point := e.point.stored }

/-- The observation of an entry. -/
def metric (e : HistoryEntry) : Metric where
  key := e.key
  value := e.point.reading.toValue
  timestamp := e.point.timestamp
  step := e.point.step
  modelId := e.modelId
  datasetName := e.datasetName
  datasetDigest := e.datasetDigest

/-- The entry in the list of a logged model, for an observation tied to one. -/
def modelEntry? (experimentId : Int) (e : HistoryEntry) : Option ModelEntry :=
  e.modelId.map fun modelId =>
    { modelId, name := e.key, timestamp := e.point.timestamp, step := e.point.step,
      value := some e.point.reading.stored.value, experimentId, runId := e.runId,
      datasetName := e.datasetName, datasetDigest := e.datasetDigest }

end HistoryEntry

/-- The observation of an entry in the list of a logged model. A missing value reads as zero. -/
def ModelEntry.metric (e : ModelEntry) : ModelMetric where
  modelId := e.modelId
  name := e.name
  timestamp := e.timestamp
  step := e.step
  value := e.value.getD .zero
  experimentId := e.experimentId
  runId := e.runId
  datasetName := e.datasetName
  datasetDigest := e.datasetDigest

/-- The observation that a latest point stands for; it is tied to no model. -/
def Point.metric (key : String) (p : Point) : Metric where
  key
  value := p.reading.toValue
  timestamp := p.timestamp
  step := p.step
  modelId := none
  datasetName := none
  datasetDigest := none

namespace MetricLog

open Work

/-- The entries of a batch, without those that repeat an earlier one field for field. The two zeros
count as different here. -/
def batch (runId : String) (metrics : List Metric) : List HistoryEntry :=
  distinct (· == ·) (metrics.map (HistoryEntry.ofMetric runId))

/-- The keys of observations must not be blank. -/
def checkKeys (metrics : List Metric) : Except StoreError Unit :=
  match metrics.find? fun m => Text.isBlank m.key with
  | some m => .error (.blankMetricKey m.key)
  | none => .ok ()

/-- Enters an observation into the history, unless its place there is taken. -/
def enterHistory (e : HistoryEntry) : Work Unit := do
  attempt .insert .history [e.row]
  modify fun db => { db with history := appendNew HistoryEntry.sameSlot db.history e.stored }

/-- Enters an observation into the list of its logged model, unless its place there is taken. -/
def enterModel (e : ModelEntry) : Work Unit := do
  attempt .insert .modelMetrics [e.row]
  modify fun db => { db with modelMetrics := appendNew ModelEntry.sameSlot db.modelMetrics e }

/-- A list cut into the rest of a piece that has room for `room` members, and further pieces of
`size` members. -/
def cut {α : Type} (size : Nat) : Nat → List α → List α × List (List α)
  | _, [] => ([], [])
  | 0, x :: xs => ([], (x :: (cut size (size - 1) xs).1) :: (cut size (size - 1) xs).2)
  | room + 1, x :: xs => (x :: (cut size room xs).1, (cut size room xs).2)

/-- A list cut into pieces of `size` members, the last one possibly shorter. A size of zero counts
as one. -/
def pieces {α : Type} (size : Nat) (xs : List α) : List (List α) := (cut size 0 xs).2

/-- The most keys that one statement can ask for: it takes 32766 parameters, and one is the run. -/
def keyLimit : Nat := 32765

/-- What was found before, and the latest points of the keys of one piece, which are looked up by
one statement. -/
def lookUpPiece (latest found : Table String Point) (piece : List String) :
    Except StoreError (Table String Point) :=
  if keyLimit < piece.length then .error .statementFailed
  else .ok ((latest.filter fun key _ => piece.contains key).entries.foldl
    (fun found (key, p) => found.insert key p) found)

/-- The latest points of the given keys, looked up for `size` keys at a time. -/
def lookUp (latest : Table String Point) (size : Nat) (keys : List String) :
    Except StoreError (Table String Point) :=
  (pieces size keys).foldlM (lookUpPiece latest) .empty

/-- Sets the latest point of a key of a run. -/
def putLatest (runId key : String) (p : Point) : Work Unit := do
  let r ← ask (Runs.require runId)
  attemptUpsert .latest (latestRow runId key p) (r.latest.contains key)
  Runs.put runId { r with latest := r.latest.insert key p.stored }

/-- Moves the latest point of a key to the winner of a batch if that supersedes the point `found`
for the key. -/
def advance (found : Table String Point) (runId key : String) (p : Point) : Work Unit :=
  match found.get? key with
  | some current => if p.supersedes current then putLatest runId key p else return ()
  | none => putLatest runId key p

/-- Moves the latest points of a run to the winners of a batch. -/
def advanceLatest (runId : String) (entries : List HistoryEntry) : Work Unit := do
  let best := winners HistoryEntry.key HistoryEntry.point entries
  let r ← ask (Runs.require runId)
  let call ← read
  let found ← ask fun _ => lookUp r.latest call.config.chunkSize best.keys
  best.entries.forM fun (key, e) => advance found runId key e.point

/-- Enters the observations of an active run everywhere they belong. -/
def enter (runId : String) (r : RunRecord) (entries : List HistoryEntry) : Work Unit := do
  entries.forM enterHistory
  checkpoint "log_metrics" (.inside 0)
  (entries.filterMap (HistoryEntry.modelEntry? r.experimentId)).forM enterModel
  checkpoint "log_metrics" (.inside 1)
  advanceLatest runId entries

/-- Logs a batch of observations of one run. -/
def record (runId : String) (metrics : List Metric) : Work Unit :=
  within "error logging metrics" <| transact "log_metrics" do
    let r ← ask (Runs.requireActive runId)
    ask fun _ => checkKeys metrics
    match batch runId metrics with
    | [] => return ()
    | e :: es => enter runId r (e :: es)

/-- The observations of a run in the order of their acceptance. -/
def entriesOf (runId : String) (db : Database) : List HistoryEntry :=
  db.history.filter fun e => e.runId == runId

/-- Whether an observation comes before or with another one by step and timestamp. -/
def noLater (e f : HistoryEntry) : Bool :=
  e.point.step < f.point.step
    || (e.point.step == f.point.step && e.point.timestamp ≤ f.point.timestamp)

/-- The observations of one key of a run by step and timestamp, and of those that agree in both by
their acceptance. -/
def historyOf (runId key : String) : Query (List Metric) := do
  let _ ← Runs.require runId
  let entries := (entriesOf runId (← read)).filter fun e => e.key == key
  return (entries.mergeSort noLater).map HistoryEntry.metric

/-- The observations of one key of a run. -/
def history (runId key : String) : Work (List Metric) :=
  consult "get_metric_history" .runs (historyOf runId key)

/-- The latest observation of each key of a run, by key. -/
def latestOf (runId : String) : Query (List Metric) := do
  return (← Runs.require runId).latest.entries.map fun (key, p) => p.metric key

/-- The latest observation of each key of a run. -/
def latest (runId : String) : Work (List Metric) :=
  consult "get_latest_metrics" .runs (latestOf runId)

/-- Computes the latest points of a run anew from its whole history, and returns their number. -/
def rebuild (runId : String) : Work Nat :=
  within "error rebuilding latest metrics" <| transact "rebuild_latest_metrics" do
    let r ← ask (Runs.require runId)
    let best := winners HistoryEntry.key HistoryEntry.point (entriesOf runId (← get))
    attempt .delete .latest (r.latestRows runId)
    Runs.put runId { r with latest := .empty }
    checkpoint "rebuild_latest_metrics" (.inside 0)
    best.entries.forM fun (key, e) => putLatest runId key e.point
    return best.entries.length

/-- The order in which the observations of a logged model are listed: by name, step and timestamp,
then by run, value and dataset. -/
def listingOrder (a b : ModelMetric) : Ordering :=
  (compare a.name b.name).then <| (compare a.step b.step).then <|
    (compare a.timestamp b.timestamp).then <| (compare a.runId b.runId).then <|
    (compare a.value.rank b.value.rank).then <| (compare a.datasetName b.datasetName).then <|
    compare a.datasetDigest b.datasetDigest

/-- The observations tied to a logged model, in their order. -/
def modelMetricsOf (modelId : String) : Query (List ModelMetric) := do
  let entries := (← read).modelMetrics.filter fun e => e.modelId == modelId
  return (entries.map ModelEntry.metric).mergeSort fun a b => (listingOrder a b).isLE

/-- The observations tied to a logged model. -/
def ofModel (modelId : String) : Work (List ModelMetric) :=
  consult "get_logged_model_metrics" .modelMetrics (modelMetricsOf modelId)

end MetricLog

end RunLedger
