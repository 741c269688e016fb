import RunLedger.Proofs.Binary64.Order
import RunLedger.Proofs.Metric.Association

/-!
# The selection of the latest observations

An observation supersedes another one of a lower step, of those of one step another one of an
earlier timestamp, and of those of one moment another one of a smaller value. A NaN counts as zero
and an infinity as the largest finite number of its sign, as they are stored, so values are compared
as rational numbers and observations are in a strict weak order. It is the same order whether they
are looked at as a client logs them, as the history and the latest points keep them, or as they are
read back. What is selected of several observations is, for each key that occurs among them, the
first of those that no other one of the key supersedes.

## Main definitions

* `Binary64.sanitized`: the rational number that a value is compared by.
* `Metric.Supersedes`: one observation replaces another.
* `Metric.Shows`: the points by which an observation is looked at.

## Main results

* `Metric.supersedes_iff`: step, then timestamp, then the sanitized value.
* `Metric.Shows.supersedes_iff`: all points of an observation compare alike.
* `get?_winners_eq_find?`: what is selected.
* `winners_map`: selecting from other forms of the candidates.
* `selection_takes_first_not_superseded`: the order and the selection, for all values.
-/

namespace RunLedger

/-! ### Values -/

/-- The rational number that a value is compared by: zero for a NaN, and for an infinity the largest
finite number of its sign. -/
def Binary64.sanitized (x : Binary64) : ℚ :=
  if x.isNaN then 0
  else if x.isInfinite then (largestOf x.negative).number
  else x.number

theorem Reading.number_ofValue (x : Binary64) : (ofValue x).value.number = x.sanitized := by
  rw [ofValue, Binary64.sanitized]
  split_ifs
  · exact Binary64.value_zero
  · rfl
  · rfl

namespace Metric

/-! ### The order of observations -/

/-- One observation replaces another. -/
def Supersedes (m n : Metric) : Prop := m.point.supersedes n.point = true

instance : DecidableRel Supersedes := fun _ _ => inferInstanceAs (Decidable (_ = true))

variable {m n : Metric}

theorem supersedes_iff_precedence_lt :
    m.Supersedes n ↔ n.point.precedence < m.point.precedence :=
  Point.supersedes_iff

/-- A higher step, then a later timestamp, then a larger value. -/
theorem supersedes_iff : m.Supersedes n ↔ n.step < m.step ∨ n.step = m.step ∧
    (n.timestamp < m.timestamp ∨ n.timestamp = m.timestamp ∧
      n.value.sanitized < m.value.sanitized) := by
  simp only [supersedes_iff_precedence_lt, Point.precedence_lt_iff, ← Reading.number_ofValue,
    Binary64.number_lt_number_iff]
  rfl

/-- Observations are on a par if they agree in step, timestamp and sanitized value. -/
theorem precedence_eq_iff : m.point.precedence = n.point.precedence ↔
    m.step = n.step ∧ m.timestamp = n.timestamp ∧ m.value.sanitized = n.value.sanitized := by
  simp only [Point.precedence_eq_iff, ← Reading.number_ofValue, Binary64.number_inj]
  rfl

theorem not_supersedes_and_not_supersedes_iff :
    ¬ m.Supersedes n ∧ ¬ n.Supersedes m ↔ m.point.precedence = n.point.precedence := by
  rw [supersedes_iff_precedence_lt, supersedes_iff_precedence_lt, not_lt, not_lt]
  exact ⟨fun h => le_antisymm h.1 h.2, fun h => ⟨h.le, h.ge⟩⟩

instance : IsStrictWeakOrder Metric Supersedes where
  irrefl m := by
    rw [supersedes_iff_precedence_lt]
    exact lt_irrefl _
  trans m n o hmn hno := by
    rw [supersedes_iff_precedence_lt] at *
    exact hno.trans hmn
  incomp_trans m n o hmn hno := by
    rw [not_supersedes_and_not_supersedes_iff] at *
    exact hmn.trans hno

/-! ### The points of an observation -/

/-- A point by which an observation is looked at. -/
inductive Shows (m : Metric) : Point → Prop
  /-- As a client logs it. -/
  | logged : Shows m m.point
  /-- As the entry of a batch. -/
  | entry (runId : String) : Shows m (HistoryEntry.ofMetric runId m).point
  /-- As the history keeps it. -/
  | kept (runId : String) : Shows m (HistoryEntry.accept runId m).point
  /-- As it is read back from the history. -/
  | readBack (runId : String) : Shows m (HistoryEntry.accept runId m).metric.point
  /-- As it is kept as the latest point of a key. -/
  | latest : Shows m m.point.stored
  /-- As it is read back from the latest points. -/
  | latestReadBack (key : String) : Shows m (m.point.stored.metric key).point

theorem stored_point_readBack (m : Metric) : m.readBack.point.stored = m.point.stored := by
  simp only [point, Point.stored, Metric.readBack, Reading.stored_ofValue_readBack]

theorem point_metric_stored (m : Metric) (key : String) :
    (m.point.stored.metric key).point = m.readBack.point := by
  simp only [point, Point.stored, Point.metric, Metric.readBack, Reading.toValue_stored_ofValue]

/-- What an observation is compared by does not depend on where it is looked at. -/
theorem Shows.precedence_eq {p : Point} (h : Shows m p) : p.precedence = m.point.precedence := by
  have hreadBack : m.readBack.point.precedence = m.point.precedence := by
    rw [← Point.precedence_stored, stored_point_readBack, Point.precedence_stored]
  cases h with
  | logged => rfl
  | entry runId => rfl
  | kept runId => exact Point.precedence_stored m.point
  | readBack runId => rw [HistoryEntry.metric_accept, hreadBack]
  | latest => exact Point.precedence_stored m.point
  | latestReadBack key => rw [point_metric_stored, hreadBack]

/-- **All points of an observation compare alike.** -/
theorem Shows.supersedes_iff {p q : Point} (hp : Shows m p) (hq : Shows n q) :
    p.supersedes q = true ↔ m.Supersedes n := by
  rw [Point.supersedes_iff, hp.precedence_eq, hq.precedence_eq, supersedes_iff_precedence_lt]

end Metric

/-! ### Selection -/

section Winners

variable {α : Type} (key : α → String) (point : α → Point)

/-- **The winner of a key** is the first of its candidates that none of them supersedes. -/
theorem get?_winners_eq_find? (candidates : List α) (k : String) :
    (winners key point candidates).get? k = candidates.find? fun x =>
      key x = k ∧ ∀ y ∈ candidates, key y = k → ¬ (point y).supersedes (point x) = true := by
  rw [get?_winners, argmax_eq_find?, List.find?_filter]
  congr 1
  funext x
  simp [List.mem_filter, Point.supersedes_iff]

/-- What is selected among other forms of the candidates is that form of what is selected, if they
keep their keys and compare alike. -/
theorem winners_map {β : Type} (key' : β → String) (point' : β → Point) (f : α → β)
    (hkey : ∀ x, key' (f x) = key x)
    (hpoint : ∀ x, (point' (f x)).precedence = (point x).precedence) (candidates : List α) :
    winners key' point' (candidates.map f) =
      (winners key point candidates).map fun _ x => f x := by
  refine Table.ext_get? fun k => ?_
  rw [Table.get?_map, get?_winners, get?_winners, List.filter_map, argmax_map]
  simp only [Function.comp_def, hkey, hpoint]

end Winners

/-- **The order of observations and the selection of the latest.** Observations are in a strict weak
order, for all values, and those are on a par that agree in step, timestamp and sanitized value,
which is the finite number that is stored. All points of two observations compare alike. What is
selected of a list are its keys, each with the first observation of the key that no other one of the
key supersedes, and from the entries that the history keeps of the list the same ones are
selected. -/
theorem selection_takes_first_not_superseded :
    IsStrictWeakOrder Metric Metric.Supersedes ∧
    (∀ x : Binary64, (Reading.ofValue x).value.IsFinite ∧
      (Reading.ofValue x).value.number = x.sanitized) ∧
    (∀ m n : Metric, m.Supersedes n ↔ n.step < m.step ∨ n.step = m.step ∧
      (n.timestamp < m.timestamp ∨ n.timestamp = m.timestamp ∧
        n.value.sanitized < m.value.sanitized)) ∧
    (∀ m n : Metric, ¬ m.Supersedes n ∧ ¬ n.Supersedes m ↔
      m.step = n.step ∧ m.timestamp = n.timestamp ∧ m.value.sanitized = n.value.sanitized) ∧
    (∀ (m n : Metric) (p q : Point), m.Shows p → n.Shows q →
      (p.supersedes q = true ↔ m.Supersedes n)) ∧
    ∀ metrics : List Metric,
      let selected := winners Metric.key Metric.point metrics
      (∀ k, k ∈ selected.keys ↔ ∃ m ∈ metrics, m.key = k) ∧
      (∀ k, selected.get? k = metrics.find? fun m =>
        m.key = k ∧ ∀ n ∈ metrics, n.key = k → ¬ n.Supersedes m) ∧
      ∀ runId, winners HistoryEntry.key HistoryEntry.point
          (metrics.map (HistoryEntry.accept runId)) =
        selected.map fun _ m => HistoryEntry.accept runId m := by
  refine ⟨inferInstance, fun x => ⟨Reading.isFinite_ofValue x, Reading.number_ofValue x⟩,
    fun m n => Metric.supersedes_iff, fun m n => ?_,
    fun m n p q hp hq => hp.supersedes_iff hq, fun metrics => ⟨fun k => ?_, fun k => ?_, ?_⟩⟩
  · rw [Metric.not_supersedes_and_not_supersedes_iff, Metric.precedence_eq_iff]
  · exact mem_keys_winners Metric.key Metric.point
  · exact get?_winners_eq_find? Metric.key Metric.point metrics k
  · exact fun runId => winners_map Metric.key Metric.point HistoryEntry.key HistoryEntry.point
      (HistoryEntry.accept runId) (fun _ => rfl) (fun _ => (Metric.Shows.kept runId).precedence_eq)
      metrics

/-- A NaN is on a par with a negative zero, also where it was read back. Of an infinity and the
largest finite number the first is selected. -/
theorem selection_of_infinity :
    ¬ (HistoryEntry.accept "r" (lossOf .nan)).metric.point.supersedes
        (lossOf (.zeroOf true)).point = true ∧
      (winners Metric.key Metric.point [lossOf .nan, lossOf (.infinity false),
        lossOf (.largestOf false)]).get? "loss" = some (lossOf (.infinity false)) := by
  obtain ⟨-, -, -, -, hshows, hselected⟩ := selection_takes_first_not_superseded
  constructor
  · rw [hshows _ _ _ _ (.readBack "r") .logged]
    decide +kernel
  · rw [(hselected _).2.1]
    decide +kernel

end RunLedger
