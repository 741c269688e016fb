import Mathlib.Data.List.Forall2
import RunLedger.Proofs.Metric.Acceptance
import RunLedger.Proofs.Metric.LatestInStep

/-!
# The latest points do not depend on the order of batches, up to NaN against zero

Writers log batches for one run through any number of handles, and the order in which their batches
are committed is a matter of chance. The latest point of a key is the first maximum of all points
logged, so another order can only choose another point of the same step, timestamp and stored value.
Such points differ in whether they mark a NaN: a NaN is stored as a marked zero and is on a par with
a zero, and the one that is committed first stays. Where no NaN meets a zero at the step and
timestamp of the latest point, all orders lead to the same answer.

## Main definitions

* `Metric.AgreesUpToNaN`: two observations are the same, or a NaN and a zero that were both logged.

## Main results

* `Operation.latest_performAll`: the latest points of a run after any calls.
* `Reading.stored_ofValue_of_rank_eq`: values on a par are stored alike, but for a NaN and a zero.
* `writers_converge_up_to_nan_against_zero`: the answers after two orders of the same batches.
* `not_writers_converge`: they can differ.
-/

namespace RunLedger

open MetricLog Work

namespace Operation

/-! ### Committed batches -/

/-- What a successful call makes of the latest points of a run. A rebuild is harmless only where
they are in step with the history. -/
theorem latest_of_metricEffect {operation : Operation} {db db' : Database} {runId : String}
    {r : RunRecord} (h : MetricEffect operation db db') (hr : db.runs.get? runId = some r)
    (hrebuild : operation = .rebuildLatest runId → db.LatestInStep) (a : Answer) :
    ∃ r', db'.runs.get? runId = some r' ∧
      r'.latest = ((committedBy runId operation (.ok a)).flatten.map
        (HistoryEntry.ofMetric runId)).foldl raise r.latest := by
  cases h with
  | @logged id metrics _ r₀ hrun =>
    by_cases hid : id = runId
    · subst hid
      refine ⟨_, Database.get?_logged_self hr _ _, ?_⟩
      simp [committedBy]
    · refine ⟨r, (Database.get?_logged_of_ne (Ne.symm hid) _ _ db).trans hr, ?_⟩
      simp [committedBy, hid]
  | @rebuilt id _ r₀ hrun =>
    rw [committedBy_rebuildLatest]
    by_cases hid : id = runId
    · subst hid
      rw [(hrebuild rfl).rebuilt_eq_self hr]
      exact ⟨r, hr, rfl⟩
    · exact ⟨r, (Database.get?_alterLatest_of_ne (Ne.symm hid) _ db).trans hr, rfl⟩
  | none hop hsame =>
    rw [committedBy_eq_nil hop]
    rcases hsame.latest runId with hold | ⟨hnew, -⟩
    · rw [hr, Option.map_some, Option.map_eq_some_iff] at hold
      exact hold
    · rw [hr] at hnew
      cases hnew

/-- **The latest points of a run after any calls** are those that the observations committed for it
make of the latest points before. -/
theorem latest_performAll {runId : String} (steps : List (Call × Operation)) {db : Database}
    {r : RunRecord} (hr : db.runs.get? runId = some r)
    (hrebuild : (∃ call, (call, .rebuildLatest runId) ∈ steps) → db.LatestInStep) :
    ∃ r', (performAll steps db).2.runs.get? runId = some r' ∧
      r'.latest = ((committed runId steps db).flatten.map (HistoryEntry.ofMetric runId)).foldl raise
        r.latest := by
  induction steps generalizing db r with
  | nil => exact ⟨r, hr, rfl⟩
  | cons step steps ih =>
    obtain ⟨call, operation⟩ := step
    have hlater : (∃ call, (call, .rebuildLatest runId) ∈ steps) → db.LatestInStep := fun h =>
      hrebuild (h.imp fun _ => List.mem_cons_of_mem _)
    rw [performAll_cons, committed]
    rcases hresult : operation.run.perform call db with ⟨e | a, db'⟩
    · obtain rfl := eq_of_perform_error hresult
      rw [committedBy_error, List.nil_append]
      exact ih hr hlater
    · have heffect : MetricEffect operation db db' := metricEffect hresult
      obtain ⟨r₁, hr₁, hlatest₁⟩ := latest_of_metricEffect heffect hr
        (fun hop => hrebuild ⟨call, hop ▸ List.mem_cons_self⟩) a
      obtain ⟨r', hr', hlatest'⟩ := ih hr₁ fun h => heffect.latestInStep (hlater h)
      refine ⟨r', hr', ?_⟩
      rw [hlatest', hlatest₁, List.flatten_append, List.map_append, List.foldl_append]

end Operation

/-! ### Values on a par -/

namespace Reading

theorem nan_ofValue (x : Binary64) : (ofValue x).nan = x.isNaN := by
  rw [ofValue]
  split_ifs with hnan <;> simp [hnan]

/-- Only zeros and NaNs are stored as a zero. -/
theorem magnitude_eq_zero_of_rank {x : Binary64} (hnan : x.isNaN = false)
    (h : (ofValue x).value.rank = 0) : x.magnitude = 0 := by
  have hlargest : ∀ negative, (Binary64.largestOf negative).rank ≠ 0 := by decide
  rw [ofValue, if_neg (by simp [hnan])] at h
  split_ifs at h with hinfinite
  · exact absurd h (hlargest _)
  · rw [Binary64.rank] at h
    split_ifs at h <;> simpa using h

theorem rank_ofValue_of_isNaN {x : Binary64} (hnan : x.isNaN = true) :
    (ofValue x).value.rank = 0 := by
  rw [ofValue, if_pos hnan]
  rfl

/-- Values on a par are stored alike, unless one is a NaN and the other a zero. -/
theorem stored_ofValue_of_rank_eq {x y : Binary64}
    (h : (ofValue x).value.rank = (ofValue y).value.rank) :
    (ofValue x).stored = (ofValue y).stored ∨
      (x.isNaN = true ∧ y.isNaN = false ∧ y.magnitude = 0) ∨
      x.isNaN = false ∧ x.magnitude = 0 ∧ y.isNaN = true := by
  by_cases hnan : x.isNaN = y.isNaN
  · left
    rw [stored, stored, Binary64.unsignZero_eq_of_rank_eq h, mk.injEq]
    exact ⟨rfl, by rw [nan_ofValue, nan_ofValue, hnan]⟩
  · right
    cases hx : x.isNaN with
    | true =>
      have hy : y.isNaN = false := by simpa [hx] using hnan
      exact .inl ⟨rfl, hy, magnitude_eq_zero_of_rank hy (h ▸ rank_ofValue_of_isNaN hx)⟩
    | false =>
      have hy : y.isNaN = true := by simpa [hx] using hnan
      exact .inr ⟨rfl, magnitude_eq_zero_of_rank hx (h ▸ rank_ofValue_of_isNaN hy), hy⟩

theorem toValue_stored_of_isNaN {x : Binary64} (h : x.isNaN = true) :
    (ofValue x).stored.toValue = .nan := by
  rw [toValue, stored, nan_ofValue, if_pos h]

theorem toValue_stored_of_zero {x : Binary64} (hnan : x.isNaN = false) (hzero : x.magnitude = 0) :
    (ofValue x).stored.toValue = .zero := by
  have hinfinite : x.isInfinite = false := by
    rw [Binary64.isInfinite, hzero]
    rfl
  have hvalue : (ofValue x).value = x := by
    rw [ofValue, hnan, hinfinite]
    rfl
  rw [toValue, stored, nan_ofValue, hnan, hvalue, Binary64.unsignZero, if_pos hzero]
  rfl

end Reading

/-! ### The answers -/

/-- Two observations are of the same key, at the same step and time. -/
structure Metric.SameSpot (m n : Metric) : Prop where
  key : m.key = n.key
  step : m.step = n.step
  timestamp : m.timestamp = n.timestamp

/-- Two observations of one key, step and time are the same, or one is a NaN and the other a zero
and both a NaN and a zero were logged there. -/
structure Metric.AgreesUpToNaN (logged : List Metric) (m n : Metric) : Prop where
  spot : m.SameSpot n
  value : m = n ∨
    (m.value = .nan ∧ n.value = .zero ∨ m.value = .zero ∧ n.value = .nan) ∧
      (∃ x ∈ logged, x.SameSpot m ∧ x.value.isNaN = true) ∧
      ∃ y ∈ logged, y.SameSpot m ∧ y.value.magnitude = 0

/-- The points of a key that observations are stored with. -/
theorem MetricLog.exists_of_mem_pointsAt {runId k : String} {metrics : List Metric} {p : Point}
    (h : p ∈ pointsAt k (metrics.map (HistoryEntry.ofMetric runId))) :
    ∃ m ∈ metrics, m.key = k ∧ p = m.point.stored := by
  obtain ⟨e, he, rfl⟩ := List.mem_map.mp h
  obtain ⟨he, hk⟩ := List.mem_filter.mp he
  obtain ⟨m, hm, rfl⟩ := List.mem_map.mp he
  exact ⟨m, hm, beq_iff_eq.mp hk, rfl⟩

/-- Points of logged observations that are on a par are answered alike, up to NaN against zero. -/
theorem Metric.agreesUpToNaN_of_precedence {logged : List Metric} {m n : Metric} (hm : m ∈ logged)
    (hn : n ∈ logged) (hkey : m.key = n.key) (h : m.point.precedence = n.point.precedence) :
    AgreesUpToNaN logged (m.point.stored.metric m.key) (n.point.stored.metric m.key) := by
  obtain ⟨hstep, htimestamp, hrank⟩ := Point.precedence_eq_iff.mp h
  have hspot : n.SameSpot m := ⟨hkey.symm, hstep.symm, htimestamp.symm⟩
  refine ⟨⟨rfl, hstep, htimestamp⟩, ?_⟩
  rcases Reading.stored_ofValue_of_rank_eq hrank with hsame | ⟨hx, hy, hzero⟩ | ⟨hx, hzero, hy⟩
  · have hpoint : m.point.stored = n.point.stored :=
      (Point.mk.injEq ..).mpr ⟨hstep, htimestamp, hsame⟩
    exact .inl (by rw [hpoint])
  · exact .inr ⟨.inl ⟨Reading.toValue_stored_of_isNaN hx, Reading.toValue_stored_of_zero hy hzero⟩,
      ⟨m, hm, ⟨rfl, rfl, rfl⟩, hx⟩, n, hn, ⟨hspot.key, hspot.step, hspot.timestamp⟩, hzero⟩
  · exact .inr ⟨.inr ⟨Reading.toValue_stored_of_zero hx hzero, Reading.toValue_stored_of_isNaN hy⟩,
      ⟨n, hn, ⟨hspot.key, hspot.step, hspot.timestamp⟩, hy⟩, m, hm, ⟨rfl, rfl, rfl⟩, hzero⟩

/-- The answer that lists the latest points of a run. -/
theorem Operation.perform_latestMetrics {reader : Call} {db : Database} {runId : String}
    {r : RunRecord} (halive : reader.pulse .entry = none) (hvisible : reader.hidden .runs = false)
    (hr : db.runs.get? runId = some r) :
    (latestMetrics runId).run.perform reader db =
      (.ok (.metrics (r.latest.entries.map fun (key, p) => p.metric key)), db) := by
  have hanswer : (latestOf runId).run db =
      .ok (r.latest.entries.map fun (key, p) => p.metric key) := by
    change ((Runs.require runId).run db >>= fun r =>
      pure (r.latest.entries.map fun (key, p) => p.metric key)) = _
    rw [Runs.require_eq_ok_iff.mpr hr]
    rfl
  exact (yields_map _ _).mpr
    ⟨_, (yields_consult _ _ _).mpr ⟨halive, hvisible, hanswer, rfl⟩, rfl⟩

theorem optionRel_imp {α β : Type} {R S : α → β → Prop} (h : ∀ a b, R a b → S a b)
    {o : Option α} {o' : Option β} : Option.Rel R o o' → Option.Rel S o o'
  | .some hab => .some (h _ _ hab)
  | .none => .none

/-- Tables whose values at each key are related list related entries. -/
theorem Table.forall₂_entries {ρ : Type} {R : String → ρ → ρ → Prop} {s t : Table String ρ}
    (h : ∀ k, Option.Rel (R k) (s.get? k) (t.get? k)) :
    List.Forall₂ (fun a b => a.1 = b.1 ∧ R a.1 a.2 b.2) s.entries t.entries := by
  have hunit : s.map (fun _ _ => ()) = t.map fun _ _ => () := by
    refine ext_get? fun k => ?_
    have hk := h k
    rw [get?_map, get?_map]
    generalize s.get? k = v at hk ⊢
    generalize t.get? k = w at hk ⊢
    cases hk <;> rfl
  have hkeys : (s.entries.map fun e => e.1) = t.entries.map fun e => e.1 := by
    have hunit := congrArg (fun u => u.entries.map fun e => e.1) hunit
    simpa only [Table.map, List.map_map, Function.comp_def] using hunit
  rw [← List.forall₂_eq_eq_eq, List.forall₂_map_left_iff, List.forall₂_map_right_iff,
    List.forall₂_iff_zip] at hkeys
  refine List.forall₂_iff_zip.mpr ⟨hkeys.1, fun {a b} hab => ⟨hkeys.2 hab, ?_⟩⟩
  obtain ⟨ha, hb⟩ := List.of_mem_zip hab
  have hrel := h a.1
  rw [mem_entries_iff.mp ha, hkeys.2 hab, mem_entries_iff.mp hb] at hrel
  cases hrel with
  | some hR => rwa [hkeys.2 hab]

namespace Operation

/-- **Writers converge, up to NaN against zero.** Let two sequences of calls start from one
database, and let them commit the same batches for a run in any two orders, with any other calls in
between. Then the latest observations of the run are listed after both, and they are the same, key
for key, except where the two orders settle a tie of a NaN and a zero differently: both were logged
for the key at one step and time, one of them is listed after the one sequence and the other after
the other. That the database is reachable matters only if the latest points are rebuilt. -/
theorem writers_converge_up_to_nan_against_zero {db : Database} {runId : String} {r : RunRecord}
    (hr : db.runs.get? runId = some r) (steps steps' : List (Call × Operation))
    (hrebuild : (∃ call, (call, .rebuildLatest runId) ∈ steps ++ steps') → Reachable db)
    (hperm : (committed runId steps db).Perm (committed runId steps' db)) (reader : Call)
    (halive : reader.pulse .entry = none) (hvisible : reader.hidden .runs = false) :
    ∃ answer answer' : List Metric,
      (latestMetrics runId).run.perform reader (performAll steps db).2 =
        (.ok (.metrics answer), (performAll steps db).2) ∧
      (latestMetrics runId).run.perform reader (performAll steps' db).2 =
        (.ok (.metrics answer'), (performAll steps' db).2) ∧
      List.Forall₂ (Metric.AgreesUpToNaN (committed runId steps db).flatten) answer answer' := by
  obtain ⟨r₁, hr₁, hlatest⟩ := latest_performAll steps hr fun ⟨call, hcall⟩ =>
    (hrebuild ⟨call, List.mem_append_left _ hcall⟩).latestInStep
  obtain ⟨r₂, hr₂, hlatest'⟩ := latest_performAll steps' hr fun ⟨call, hcall⟩ =>
    (hrebuild ⟨call, List.mem_append_right _ hcall⟩).latestInStep
  refine ⟨_, _, perform_latestMetrics halive hvisible hr₁,
    perform_latestMetrics halive hvisible hr₂, ?_⟩
  have hrel (k : String) : Option.Rel (fun p q => Metric.AgreesUpToNaN
      (committed runId steps db).flatten (p.metric k) (q.metric k))
      (r₁.latest.get? k) (r₂.latest.get? k) := by
    have hpoints : (pointsAt k ((committed runId steps db).flatten.map
        (HistoryEntry.ofMetric runId))).Perm (pointsAt k ((committed runId steps' db).flatten.map
          (HistoryEntry.ofMetric runId))) :=
      ((hperm.flatten.map _).filter _).map _
    have hfirst := argmax_of_perm Point.precedence (r.latest.get? k) hpoints
    rw [hlatest, hlatest', get?_foldl_raise, get?_foldl_raise]
    refine optionRel_imp ?_ hfirst
    rintro p q ⟨hpar, rfl | ⟨hp, hq⟩⟩
    · exact ⟨⟨rfl, rfl, rfl⟩, .inl rfl⟩
    · obtain ⟨m, hm, rfl, rfl⟩ := exists_of_mem_pointsAt hp
      obtain ⟨n, hn, hkey, rfl⟩ := exists_of_mem_pointsAt hq
      rw [Point.precedence_stored, Point.precedence_stored] at hpar
      exact Metric.agreesUpToNaN_of_precedence hm hn hkey.symm hpar
  rw [List.forall₂_map_left_iff, List.forall₂_map_right_iff]
  refine (Table.forall₂_entries hrel).imp ?_
  rintro ⟨key, p⟩ ⟨_, q⟩ ⟨rfl, hagree⟩
  exact hagree

/-- Two orders of a batch with a NaN and one with a zero, the second with a failure and a rebuild in
between: the NaN is listed after the one, the zero after the other. -/
theorem writers_converge_up_to_nan_against_zero_oneRun :
    let nanFirst : List (Call × Operation) :=
      [(.plain, logMetrics zeroRun [lossOf .nan]), (.plain, logMetrics zeroRun [lossOf .zero])]
    let zeroFirst : List (Call × Operation) :=
      [(.plain, logMetrics zeroRun [lossOf .zero]), (.late, logMetrics zeroRun [lossOf .nan]),
        (.plain, rebuildLatest zeroRun), (.plain, logMetrics zeroRun [lossOf .nan])]
    committed zeroRun nanFirst .oneRun = [[lossOf .nan], [lossOf .zero]] ∧
    committed zeroRun zeroFirst .oneRun = [[lossOf .zero], [lossOf .nan]] ∧
    ∃ answer answer' : List Metric,
      (latestMetrics zeroRun).run.perform .plain (performAll nanFirst .oneRun).2 =
        (.ok (.metrics answer), (performAll nanFirst .oneRun).2) ∧
      (latestMetrics zeroRun).run.perform .plain (performAll zeroFirst .oneRun).2 =
        (.ok (.metrics answer'), (performAll zeroFirst .oneRun).2) ∧
      List.Forall₂ (Metric.AgreesUpToNaN [lossOf .nan, lossOf .zero]) answer answer' := by
  intro nanFirst zeroFirst
  have hnan : committed zeroRun nanFirst .oneRun = [[lossOf .nan], [lossOf .zero]] := by
    decide +kernel
  have hzero : committed zeroRun zeroFirst .oneRun = [[lossOf .zero], [lossOf .nan]] := by
    decide +kernel
  obtain ⟨r, hr, -⟩ := Database.exists_get?_oneRun
  have hperm : (committed zeroRun nanFirst .oneRun).Perm (committed zeroRun zeroFirst .oneRun) := by
    rw [hnan, hzero]
    exact .swap ..
  have hanswers := writers_converge_up_to_nan_against_zero hr nanFirst zeroFirst
    (fun _ => Database.reachable_oneRun) hperm .plain rfl rfl
  rw [hnan] at hanswers
  exact ⟨hnan, hzero, hanswers⟩

/-- **Writers need not converge**: not all orders of the same batches lead to the same answer. Of a
NaN and a zero at one step and time the one that is committed first is listed. -/
theorem not_writers_converge :
    ¬ ∀ (db : Database) (runId : String) (batches batches' : List (Call × List Metric))
      (reader : Call), Reachable db → (∃ r, db.runs.get? runId = some r ∧ r.stage = .active) →
      (∀ batch ∈ batches, batch.1.Undisturbed ∧ ∀ m ∈ batch.2, Text.isBlank m.key = false) →
      batches.Perm batches' → reader.Undisturbed →
      ((latestMetrics runId).run.perform reader
        (performAll (batches.map fun batch => (batch.1, logMetrics runId batch.2)) db).2).1 =
      ((latestMetrics runId).run.perform reader
        (performAll (batches'.map fun batch => (batch.1, logMetrics runId batch.2)) db).2).1 := by
  intro hsame
  have hnanFirst : ((latestMetrics zeroRun).run.perform .plain
      (performAll [(.plain, logMetrics zeroRun [lossOf .nan]),
        (.plain, logMetrics zeroRun [lossOf .zero])] .oneRun).2).1 =
      .ok (.metrics [lossOf .nan]) := by
    decide +kernel
  have hzeroFirst : ((latestMetrics zeroRun).run.perform .plain
      (performAll [(.plain, logMetrics zeroRun [lossOf .zero]),
        (.plain, logMetrics zeroRun [lossOf .nan])] .oneRun).2).1 =
      .ok (.metrics [lossOf .zero]) := by
    decide +kernel
  have hanswers := hsame .oneRun zeroRun [(.plain, [lossOf .nan]), (.plain, [lossOf .zero])]
    [(.plain, [lossOf .zero]), (.plain, [lossOf .nan])] .plain Database.reachable_oneRun
    Database.exists_get?_oneRun ?_ (.swap ..) Call.plain_undisturbed
  · rw [List.map_cons, List.map_cons, List.map_nil, hnanFirst, List.map_cons, List.map_cons,
      List.map_nil, hzeroFirst] at hanswers
    revert hanswers
    decide +kernel
  · simp only [List.mem_cons, List.not_mem_nil, or_false, forall_eq_or_imp, forall_eq]
    exact ⟨⟨Call.plain_undisturbed, by decide +kernel⟩, Call.plain_undisturbed, by decide +kernel⟩

end Operation

end RunLedger
