import Mathlib.Data.Finset.Card
import RunLedger.Proofs.Metric.LatestInStep

/-!
# Rebuilding agrees with maintenance

The latest points of a run are kept up batch by batch: a batch has one winner for each key, and the
winner is held against the point that is stored. Rebuilding takes all observations of the run as one
batch and stores its winners without looking at what was there. Both make the same of a history,
ties included, since both come to the first maximum of each key. So rebuilding changes nothing where
the latest points were kept up, and restores them where they were lost.

## Main definitions

* `MetricLog.keysOf`: the keys in the history of a run.

## Main results

* `MetricLog.length_entries_winners`: a batch has as many winners as keys.
* `rebuilding_agrees_with_maintenance`: what rebuilding does to a database, and to one whose latest
  points were replaced.
-/

namespace RunLedger

open MetricLog Work

namespace MetricLog

/-- A batch has as many winners as it has keys. -/
theorem length_entries_winners (es : List HistoryEntry) :
    (winners HistoryEntry.key HistoryEntry.point es).entries.length =
      (es.map HistoryEntry.key).toFinset.card := by
  let best := winners HistoryEntry.key HistoryEntry.point es
  have hkeys : best.keys.toFinset = (es.map HistoryEntry.key).toFinset := by
    ext k
    rw [List.mem_toFinset, List.mem_toFinset, Table.mem_keys_iff, ← Option.isSome_iff_exists,
      get?_winners, Option.isSome_iff_ne_none, ne_eq, List.argmax_eq_none, List.mem_map]
    simp only [List.filter_eq_nil_iff, beq_iff_eq, not_forall, not_not, exists_prop]
  have hlength : best.entries.length = best.keys.length := (List.length_map _).symm
  rw [← hkeys, List.toFinset_card_of_nodup best.nodup_keys]
  exact hlength

/-- The keys in the history of a run. -/
def keysOf (runId : String) (db : Database) : Finset String :=
  ((entriesOf runId db).map HistoryEntry.key).toFinset

end MetricLog

/-- **Rebuilding agrees with maintenance.** In every reachable database, rebuilding the latest
points of a run, whatever its stage, changes nothing and answers with the number of keys in the
history of the run. If they are replaced before by any others, or by none, it puts back those that
were there. And on every database with the same history of the run it puts those in their place, and
leaves all else alone. -/
theorem rebuilding_agrees_with_maintenance {db : Database} (hdb : Reachable db) {runId : String}
    {r : RunRecord} (hr : db.runs.get? runId = some r) {call : Call} (hcall : call.Undisturbed) :
    (Operation.rebuildLatest runId).run.perform call db =
      (.ok (.number (keysOf runId db).card), db) ∧
    (∀ latest, (Operation.rebuildLatest runId).run.perform call
        (db.alterLatest runId fun _ => latest) = (.ok (.number (keysOf runId db).card), db)) ∧
    ∀ other r', other.runs.get? runId = some r' → entriesOf runId other = entriesOf runId db →
      (Operation.rebuildLatest runId).run.perform call other =
        (.ok (.number (keysOf runId db).card), other.alterLatest runId fun _ => r.latest) := by
  have hstep := hdb.latestInStep
  have hkept : (db.alterLatest runId fun _ => r.latest) = db :=
    hstep.latest runId r hr ▸ hstep.rebuilt_eq_self hr
  have hother (other : Database) (r' : RunRecord) (hr' : other.runs.get? runId = some r')
      (hentries : entriesOf runId other = entriesOf runId db) :
      (Operation.rebuildLatest runId).run.perform call other =
        (.ok (.number (keysOf runId db).card), other.alterLatest runId fun _ => r.latest) := by
    have hrebuild := (leads_rebuild hr').2 hcall
    rw [hentries, length_entries_winners, ← hstep.latest runId r hr] at hrebuild
    exact (yields_map _ _).mpr ⟨_, (yields_bind _ _).mpr ⟨_, _, hrebuild, rfl⟩, rfl⟩
  refine ⟨?_, fun latest => ?_, hother⟩
  · rw [hother db r hr rfl, hkept]
  · rw [hother _ _ (Database.get?_alterLatest_self hr _) rfl, Database.alterLatest_alterLatest,
      hkept]

/-- A NaN and a zero on a par in two batches, and an observation of another key, of a run that is
deleted in the end. -/
private def deletedRun : List (Call × Operation) :=
  [(.plain, .createExperiment "e" none []), (.plain, .createRun 1 "" none 0 []),
    (.plain, .logMetrics zeroRun [lossOf .nan, { lossOf .zero with key := "accuracy" }]),
    (.plain, .logMetrics zeroRun [lossOf (.zeroOf true)]), (.plain, .deleteRun zeroRun)]

/-- The latest points of two keys are rebuilt as they were, also where that of a third key had taken
their place. -/
theorem rebuilding_agrees_with_maintenance_deletedRun :
    let db := (Operation.performAll deletedRun .empty).2
    let replaced := db.alterLatest zeroRun fun _ =>
      Table.empty.insert "other" (lossOf (.infinity true)).point
    Reachable db ∧ (∃ r, db.runs.get? zeroRun = some r ∧ r.stage = .deleted) ∧
    Call.plain.Undisturbed ∧ db ≠ replaced ∧
    (Operation.rebuildLatest zeroRun).run.perform .plain db = (.ok (.number 2), db) ∧
    (Operation.rebuildLatest zeroRun).run.perform .plain replaced = (.ok (.number 2), db) := by
  intro db replaced
  have hstage : (db.runs.get? zeroRun).map RunRecord.stage = some .deleted := by decide +kernel
  obtain ⟨r, hr, hdeleted⟩ := Option.map_eq_some_iff.mp hstage
  have hkeys : (keysOf zeroRun db).card = 2 := by decide +kernel
  have hreachable : Reachable db := ⟨deletedRun, rfl⟩
  have hrebuilt := rebuilding_agrees_with_maintenance hreachable hr Call.plain_undisturbed
  rw [hkeys] at hrebuilt
  exact ⟨hreachable, ⟨r, hr, hdeleted⟩, Call.plain_undisturbed, by decide +kernel,
    hrebuilt.1, hrebuilt.2.1 _⟩

end RunLedger
