import Mathlib.Data.List.MinMax
import Mathlib.Data.Prod.Lex
import RunLedger.MetricLog

/-!
# Precedence of observations

Observations of one key are compared by step, then timestamp, then stored value. This is a linear
order on these three, but not on observations: a NaN is stored as a marked zero, so it is on a par
with a zero. The latest of several observations is the first of those that no other one exceeds,
which is what `List.argmax` finds.

## Main definitions

* `Precedence`, `Point.precedence`: what two observations are compared by.
* `MetricLog.pointsAt`: the points that a list of observations has for a key, as they are stored.
* `MetricLog.raise`: the latest points after one more observation.

## Main results

* `Point.supersedes_iff`: a point supersedes those of lower precedence.
* `argmax_append_left`, `argmax_append_right`: the first maximum of two lists in a row.
* `exists_append_of_argmax_eq_some`: what comes before and after a first maximum.
* `argmax_eq_find?`: the first maximum is the first that nothing exceeds.
* `argmax_of_perm`: what another order can do to a first maximum.
* `get?_winners`: the winner of a key is the first maximum of its candidates.
* `MetricLog.get?_foldl_raise`: the latest point of a key after several observations.
-/

namespace RunLedger

/-- A step, a timestamp and a stored value, compared in this order. -/
def Precedence : Type := ℤ ×ₗ ℤ ×ₗ ℤ

instance : LinearOrder Precedence := inferInstanceAs (LinearOrder (ℤ ×ₗ ℤ ×ₗ ℤ))

namespace Point

/-- What decides between two points: step, timestamp and stored value. -/
def precedence (p : Point) : Precedence :=
  toLex (p.step, toLex (p.timestamp, p.reading.value.rank))

theorem precedence_lt_iff {p q : Point} :
    q.precedence < p.precedence ↔ q.step < p.step ∨ q.step = p.step ∧
      (q.timestamp < p.timestamp ∨ q.timestamp = p.timestamp ∧
        q.reading.value.rank < p.reading.value.rank) :=
  Prod.Lex.toLex_lt_toLex.trans <| or_congr_right <| and_congr_right fun _ =>
    Prod.Lex.toLex_lt_toLex

theorem precedence_eq_iff {p q : Point} :
    p.precedence = q.precedence ↔ p.step = q.step ∧ p.timestamp = q.timestamp ∧
      p.reading.value.rank = q.reading.value.rank := by
  change (toLex (p.step, toLex (p.timestamp, p.reading.value.rank)) : ℤ ×ₗ ℤ ×ₗ ℤ) =
    toLex (q.step, toLex (q.timestamp, q.reading.value.rank)) ↔ _
  simp only [EmbeddingLike.apply_eq_iff_eq, Prod.mk.injEq]

/-- A point supersedes exactly the points of lower precedence. -/
theorem supersedes_iff {p q : Point} : p.supersedes q = true ↔ q.precedence < p.precedence := by
  rw [precedence_lt_iff]
  simp only [supersedes, Bool.or_eq_true, Bool.and_eq_true, decide_eq_true_eq, beq_iff_eq]
  grind

@[simp] theorem precedence_stored (p : Point) : p.stored.precedence = p.precedence :=
  precedence_eq_iff.mpr ⟨rfl, rfl, Reading.rank_stored p.reading⟩

@[simp] theorem supersedes_stored (p q : Point) : p.stored.supersedes q = p.supersedes q := by
  rw [Bool.eq_iff_iff, supersedes_iff, supersedes_iff, precedence_stored]

end Point

/-! ### First maxima of lists -/

section FirstMaximum

variable {α β γ : Type*} [LinearOrder β]

theorem argmax_concat_some {f : α → β} {xs : List α} {m : α} (h : xs.argmax f = some m) (x : α) :
    (xs ++ [x]).argmax f = if f m < f x then some x else some m := by
  rw [List.argmax_concat, h]

theorem argmax_map (f : α → β) (g : γ → α) (xs : List γ) :
    (xs.map g).argmax f = (xs.argmax fun x => f (g x)).map g := by
  induction xs using List.reverseRecOn with
  | nil => rfl
  | append_singleton xs x ih =>
    rw [List.map_append, List.map_singleton]
    cases h : xs.argmax fun x => f (g x) with
    | none =>
      rw [List.argmax_eq_none] at h
      subst h
      rfl
    | some m =>
      rw [h] at ih
      rw [argmax_concat_some ih, argmax_concat_some h]
      split_ifs <;> rfl

/-- All that counts of the first of two lists is its own first maximum. -/
theorem argmax_append_left (f : α → β) (xs ys : List α) :
    (xs ++ ys).argmax f = ((xs.argmax f).toList ++ ys).argmax f := by
  induction ys using List.reverseRecOn with
  | nil => cases h : xs.argmax f <;> simp [h]
  | append_singleton ys y ih =>
    rw [← List.append_assoc, ← List.append_assoc, List.argmax_concat, List.argmax_concat, ih]

/-- All that counts of the second of two lists is its own first maximum. -/
theorem argmax_append_right (f : α → β) (xs ys : List α) :
    (xs ++ ys).argmax f = (xs ++ (ys.argmax f).toList).argmax f := by
  induction ys using List.reverseRecOn with
  | nil => rfl
  | append_singleton ys y ih =>
    cases hys : ys.argmax f with
    | none =>
      rw [List.argmax_eq_none] at hys
      subst hys
      rfl
    | some m =>
      rw [hys, Option.toList_some] at ih
      rw [argmax_concat_some hys, ← List.append_assoc]
      cases hxs : xs.argmax f with
      | none =>
        rw [List.argmax_eq_none] at hxs
        subst hxs
        rw [argmax_concat_some (ih.trans List.argmax_singleton)]
        split_ifs <;> rfl
      | some c =>
        -- the newcomer exceeds the maximum of all before it only if it exceeds both maxima
        rw [argmax_concat_some hxs] at ih
        split_ifs at ih ⊢ <;>
          rw [argmax_concat_some ih, Option.toList_some, argmax_concat_some hxs] <;> grind

theorem exists_argmax_of_mem (f : α → β) {xs : List α} {x : α} (h : x ∈ xs) :
    ∃ m, xs.argmax f = some m ∧ f x ≤ f m := by
  cases hm : xs.argmax f with
  | none => simp [List.argmax_eq_none.mp hm] at h
  | some m => exact ⟨m, rfl, List.le_of_mem_argmax h hm⟩

/-- The first maximum exceeds everything before it, and nothing after it exceeds it. -/
theorem exists_append_of_argmax_eq_some {f : α → β} {xs : List α} {m : α}
    (h : xs.argmax f = some m) : ∃ before after, xs = before ++ m :: after ∧
      (∀ x ∈ before, f x < f m) ∧ ∀ x ∈ after, f x ≤ f m := by
  induction xs using List.reverseRecOn generalizing m with
  | nil => cases h
  | append_singleton xs x ih =>
    cases hxs : xs.argmax f with
    | none =>
      rw [List.argmax_eq_none] at hxs
      subst hxs
      obtain rfl : x = m := by simpa using h
      exact ⟨[], [], rfl, by simp, by simp⟩
    | some c =>
      obtain ⟨before, after, hsplit, hbefore, hafter⟩ := ih hxs
      rw [argmax_concat_some hxs] at h
      split_ifs at h with hlt
      · obtain rfl : x = m := Option.some.inj h
        exact ⟨xs, [], rfl, fun y hy => (List.le_of_mem_argmax hy hxs).trans_lt hlt, by simp⟩
      · obtain rfl : c = m := Option.some.inj h
        refine ⟨before, after ++ [x], by simp [hsplit], hbefore, fun y hy => ?_⟩
        rcases List.mem_append.mp hy with hy | hy
        · exact hafter y hy
        · obtain rfl : y = x := by simpa using hy
          exact not_lt.mp hlt

/-- The first maximum is the first that nothing exceeds. -/
theorem argmax_eq_find? (f : α → β) (xs : List α) :
    xs.argmax f = xs.find? fun x => ∀ y ∈ xs, f y ≤ f x := by
  cases h : xs.argmax f with
  | none =>
    rw [List.argmax_eq_none.mp h]
    rfl
  | some m =>
    obtain ⟨before, after, hsplit, hbefore, -⟩ := exists_append_of_argmax_eq_some h
    symm
    rw [List.find?_eq_some_iff_append]
    refine ⟨decide_eq_true fun y hy => List.le_of_mem_argmax hy h, before, after, hsplit,
      fun x hx => ?_⟩
    have hexceeded : ¬ ∀ y ∈ xs, f y ≤ f x :=
      fun hall => (hbefore x hx).not_ge (hall m (List.argmax_mem h))
    rw [decide_eq_false hexceeded, Bool.not_false]

/-- What comes first is the first maximum if nothing exceeds it. -/
theorem eq_of_argmax_cons {f : α → β} {xs : List α} {x m : α} (h : (x :: xs).argmax f = some m)
    (hle : f m ≤ f x) : m = x := by
  obtain ⟨before, after, hsplit, hbefore, -⟩ := exists_append_of_argmax_eq_some h
  cases before with
  | nil => exact (List.cons.inj hsplit).1.symm
  | cons y before =>
    obtain rfl : x = y := (List.cons.inj hsplit).1
    exact absurd (hbefore x List.mem_cons_self) hle.not_gt

/-- **Another order of candidates** leads to a first maximum that is on a par, and to the same one
unless both are candidates: what was there before any of them stays where it is on a par. -/
theorem argmax_of_perm (f : α → β) (old : Option α) {xs ys : List α} (h : xs.Perm ys) :
    Option.Rel (fun x y => f x = f y ∧ (x = y ∨ x ∈ xs ∧ y ∈ xs))
      ((old.toList ++ xs).argmax f) ((old.toList ++ ys).argmax f) := by
  have hperm : (old.toList ++ xs).Perm (old.toList ++ ys) := h.append_left _
  cases hx : (old.toList ++ xs).argmax f with
  | none =>
    rw [List.argmax_eq_none] at hx
    rw [hx] at hperm
    rw [List.nil_perm.mp hperm]
    exact .none
  | some x =>
    obtain ⟨y, hy, hxy⟩ := exists_argmax_of_mem f (hperm.mem_iff.mp (List.argmax_mem hx))
    have hyx : f y ≤ f x := List.le_of_mem_argmax (hperm.mem_iff.mpr (List.argmax_mem hy)) hx
    rw [hy]
    refine .some ⟨le_antisymm hxy hyx, ?_⟩
    rcases List.mem_append.mp (List.argmax_mem hx) with hxold | hxs
    · rw [Option.mem_toList.mp hxold] at hy
      exact .inl (eq_of_argmax_cons hy hyx).symm
    rcases List.mem_append.mp (List.argmax_mem hy) with hyold | hys
    · rw [Option.mem_toList.mp hyold] at hx
      exact .inl (eq_of_argmax_cons hx hxy)
    · exact .inr ⟨hxs, h.mem_iff.mpr hys⟩

end FirstMaximum

/-! ### Winners -/

section Winners

variable {α : Type} (key : α → String) (point : α → Point)

theorem get?_contend (best : Table String α) (candidate : α) (k : String) :
    (contend key point best candidate).get? k =
      if key candidate = k then
        ((best.get? k).toList ++ [candidate]).argmax fun x => (point x).precedence
      else best.get? k := by
  by_cases hk : key candidate = k
  · subst hk
    rw [if_pos rfl, contend]
    cases h : best.get? (key candidate) with
    | none => exact best.get?_insert_self _ _
    | some current =>
      rw [Option.toList_some, argmax_concat_some List.argmax_singleton]
      simp only [Point.supersedes_iff]
      split_ifs
      · exact best.get?_insert_self _ _
      · exact h
  · rw [if_neg hk, contend]
    split
    · split
      · exact best.get?_insert_of_ne (Ne.symm hk) _
      · rfl
    · exact best.get?_insert_of_ne (Ne.symm hk) _

/-- The winner of a key is the first maximum of the candidates for it. -/
theorem get?_winners (candidates : List α) (k : String) :
    (winners key point candidates).get? k =
      (candidates.filter fun x => key x == k).argmax fun x => (point x).precedence := by
  induction candidates using List.reverseRecOn with
  | nil => rfl
  | append_singleton xs x ih =>
    rw [winners, List.foldl_append, List.foldl_cons, List.foldl_nil, ← winners, get?_contend, ih,
      List.filter_append]
    by_cases hk : key x = k
    · have hx : [x].filter (fun y => key y == k) = [x] := by simp [hk]
      rw [if_pos hk, hx, ← argmax_append_left]
    · have hx : [x].filter (fun y => key y == k) = [] := by simp [hk]
      rw [if_neg hk, hx, List.append_nil]

/-- The keys that have a winner are those of the candidates. -/
theorem mem_keys_winners {candidates : List α} {k : String} :
    k ∈ (winners key point candidates).keys ↔ ∃ x ∈ candidates, key x = k := by
  rw [Table.mem_keys_iff, ← Option.isSome_iff_exists, get?_winners, Option.isSome_iff_ne_none,
    ne_eq, List.argmax_eq_none]
  simp

end Winners

/-! ### Latest points -/

namespace MetricLog

/-- The points of the observations of a key, as they are stored. -/
def pointsAt (k : String) (es : List HistoryEntry) : List Point :=
  (es.filter fun e => e.key == k).map fun e => e.point.stored

@[simp] theorem pointsAt_append (k : String) (es fs : List HistoryEntry) :
    pointsAt k (es ++ fs) = pointsAt k es ++ pointsAt k fs := by
  rw [pointsAt, List.filter_append, List.map_append, pointsAt, pointsAt]

/-- The first maximum of the points of a key is the point of the first maximum. -/
theorem argmax_pointsAt (k : String) (es : List HistoryEntry) :
    (pointsAt k es).argmax Point.precedence =
      ((es.filter fun e => e.key == k).argmax fun e => e.point.precedence).map
        fun e => e.point.stored := by
  simp only [pointsAt, argmax_map, Point.precedence_stored]

/-- The latest points after one more observation, which moves the latest point of its key if it
supersedes that. -/
def raise (latest : Table String Point) (e : HistoryEntry) : Table String Point :=
  match latest.get? e.key with
  | some current =>
    if e.point.supersedes current then latest.insert e.key e.point.stored else latest
  | none => latest.insert e.key e.point.stored

theorem raise_stored (latest : Table String Point) (e : HistoryEntry) :
    raise latest e.stored = raise latest e := by
  simp only [raise, HistoryEntry.stored, Point.stored_stored, Point.supersedes_stored]

/-- An observation that does not exceed the latest point of its key moves nothing. -/
theorem raise_eq_self {latest : Table String Point} {e : HistoryEntry} {q : Point}
    (hq : latest.get? e.key = some q) (hle : e.point.precedence ≤ q.precedence) :
    raise latest e = latest := by
  have hnot : ¬ e.point.supersedes q = true := by
    rw [Point.supersedes_iff]
    exact hle.not_gt
  rw [raise, hq]
  simp only [if_neg hnot]

theorem get?_raise (latest : Table String Point) (e : HistoryEntry) (k : String) :
    (raise latest e).get? k =
      ((latest.get? k).toList ++ pointsAt k [e]).argmax Point.precedence := by
  by_cases hk : e.key = k
  · subst hk
    have hpoint : pointsAt e.key [e] = [e.point.stored] := by simp [pointsAt]
    rw [hpoint, raise]
    cases h : latest.get? e.key with
    | none => exact latest.get?_insert_self _ _
    | some current =>
      rw [Option.toList_some, argmax_concat_some List.argmax_singleton, Point.precedence_stored]
      simp only [Point.supersedes_iff]
      split_ifs
      · exact latest.get?_insert_self _ _
      · exact h
  · have hpoint : pointsAt k [e] = [] := by simp [pointsAt, hk]
    have hsame : (raise latest e).get? k = latest.get? k := by
      rw [raise]
      split
      · split
        · exact latest.get?_insert_of_ne (Ne.symm hk) _
        · rfl
      · exact latest.get?_insert_of_ne (Ne.symm hk) _
    rw [hsame, hpoint, List.append_nil]
    cases latest.get? k <;> rfl

/-- **The latest point of a key after several observations** is the first maximum of the point
before and theirs. -/
theorem get?_foldl_raise (es : List HistoryEntry) (latest : Table String Point) (k : String) :
    (es.foldl raise latest).get? k =
      ((latest.get? k).toList ++ pointsAt k es).argmax Point.precedence := by
  induction es generalizing latest with
  | nil => cases h : latest.get? k <;> simp [h, pointsAt]
  | cons e es ih =>
    rw [List.foldl_cons, ih, get?_raise, ← argmax_append_left, List.append_assoc,
      ← pointsAt_append, List.singleton_append]

/-- Repeats in a batch do not move a latest point. -/
theorem foldl_raise_distinct (es : List HistoryEntry) (latest : Table String Point) :
    (distinct (· == ·) es).foldl raise latest = es.foldl raise latest := by
  refine foldl_distinct (fun latest e =>
    ∃ q, latest.get? e.key = some q ∧ e.point.precedence ≤ q.precedence) ?_ ?_ ?_ es latest
  · intro latest e
    rw [get?_raise, ← e.point.precedence_stored]
    exact exists_argmax_of_mem _ (by simp [pointsAt])
  · rintro latest e f ⟨q, hq, hle⟩
    have hmem : q ∈ (latest.get? e.key).toList ++ pointsAt e.key [f] := by simp [hq]
    obtain ⟨m, hm, hqm⟩ := exists_argmax_of_mem Point.precedence hmem
    exact ⟨m, by rw [get?_raise, hm], hle.trans hqm⟩
  · rintro latest e ⟨q, hq, hle⟩
    exact raise_eq_self hq hle

/-- An observation on a par with an earlier one of its key moves nothing. -/
theorem raise_eq_self_of_mem {es : List HistoryEntry} {e f : HistoryEntry} (hf : f ∈ es)
    (hkey : f.key = e.key) (hpoint : f.point.precedence = e.point.precedence)
    (latest : Table String Point) : raise (es.foldl raise latest) e = es.foldl raise latest := by
  have hmem : f.point.stored ∈ (latest.get? e.key).toList ++ pointsAt e.key es :=
    List.mem_append_right _ <|
      List.mem_map.mpr ⟨f, List.mem_filter.mpr ⟨hf, beq_iff_eq.mpr hkey⟩, rfl⟩
  obtain ⟨q, hq, hle⟩ := exists_argmax_of_mem Point.precedence hmem
  rw [← get?_foldl_raise] at hq
  rw [Point.precedence_stored, hpoint] at hle
  exact raise_eq_self hq hle

end MetricLog

end RunLedger
