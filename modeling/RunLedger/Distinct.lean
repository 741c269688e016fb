/-!
# Lists that keep the first of equal members

A list of accepted things takes a newcomer at its end, unless it already has a member that counts as
the same.

## Main definitions

* `appendNew`: a list with one newcomer.
* `distinct`: the members of a list, of those that count as the same only the first.

## Main results

* `mem_distinct`: no member is lost.
* `foldl_distinct`: when repeats can be dropped before the members of a list are entered.
* `foldl_appendNew_distinct`: they can be where repeats are ignored again.
* `filter_foldl_appendNew`: members that pass a test take no notice of the others.
* `foldl_appendNew_eq_self`, `any_foldl_appendNew`: newcomers find their places taken once they have
  been entered.
* `filter_of_perm_distinct`: of the members of one kind the first is kept.
* `distinct_map`: what members stand for can be entered in their place.
-/

namespace RunLedger

/-- The list with `x` at its end, unless a member counts as the same. -/
def appendNew {α : Type} (same : α → α → Bool) (xs : List α) (x : α) : List α :=
  if xs.any fun y => same y x then xs else xs ++ [x]

/-- The members of a list, of those that count as the same only the first. -/
def distinct {α : Type} (same : α → α → Bool) (xs : List α) : List α :=
  xs.foldl (appendNew same) []

/-- What is in a list after newcomers was there before or is one of them. -/
theorem mem_foldl_appendNew {α : Type} {same : α → α → Bool} {xs ys : List α} {x : α}
    (h : x ∈ ys.foldl (appendNew same) xs) : x ∈ xs ∨ x ∈ ys := by
  induction ys generalizing xs with
  | nil => exact .inl h
  | cons y ys ih =>
    rcases ih h with h | h
    · rw [appendNew] at h
      split at h
      · exact .inl h
      · rcases List.mem_append.mp h with h | h
        · exact .inl h
        · exact .inr (by simp_all)
    · exact .inr (List.mem_cons_of_mem y h)

section Parts

variable {α β : Type} {same : α → α → Bool}

/-- The members that a list has keep their places in front of newcomers. -/
theorem isPrefix_foldl_appendNew (xs ys : List α) : xs <+: ys.foldl (appendNew same) xs := by
  induction ys generalizing xs with
  | nil => exact List.prefix_refl xs
  | cons y ys ih =>
    refine List.IsPrefix.trans ?_ (ih (appendNew same xs y))
    rw [appendNew]
    split
    · exact List.prefix_refl xs
    · exact List.prefix_append xs [y]

/-- Newcomers change nothing if all their places are taken. -/
theorem foldl_appendNew_eq_self {xs ys : List α} (h : ∀ y ∈ ys, xs.any (same · y) = true) :
    ys.foldl (appendNew same) xs = xs := by
  induction ys with
  | nil => rfl
  | cons y ys ih =>
    rw [List.foldl_cons, appendNew, if_pos (h y List.mem_cons_self)]
    exact ih fun z hz => h z (List.mem_cons_of_mem y hz)

/-- The place of a newcomer is taken from then on. -/
theorem any_foldl_appendNew {xs ys : List α} {y : α} (hrefl : same y y = true) (h : y ∈ ys) :
    (ys.foldl (appendNew same) xs).any (same · y) = true := by
  obtain ⟨before, after, rfl⟩ := List.append_of_mem h
  rw [List.foldl_append, List.foldl_cons]
  have htaken : (appendNew same (before.foldl (appendNew same) xs) y).any (same · y) = true := by
    rw [appendNew]
    split
    · assumption
    · simp [hrefl]
  obtain ⟨x, hx, hsame⟩ := List.any_eq_true.mp htaken
  exact List.any_eq_true.mpr ⟨x, (isPrefix_foldl_appendNew _ after).subset hx, hsame⟩

/-- If all that counts as the same passes a test alike, the members that pass it take no notice of
the others. -/
theorem filter_foldl_appendNew {p : α → Bool} (hp : ∀ x y, same y x = true → p y = p x)
    (xs ys : List α) :
    (ys.foldl (appendNew same) xs).filter p =
      (ys.filter p).foldl (appendNew same) (xs.filter p) := by
  induction ys generalizing xs with
  | nil => rfl
  | cons y ys ih =>
    have hstep : (appendNew same xs y).filter p =
        if p y then appendNew same (xs.filter p) y else xs.filter p := by
      have hany : p y = true → (xs.filter p).any (same · y) = xs.any (same · y) := by
        intro hy
        rw [Bool.eq_iff_iff, List.any_eq_true, List.any_eq_true]
        refine exists_congr fun x => ⟨fun h => ⟨(List.mem_filter.mp h.1).1, h.2⟩, fun h => ?_⟩
        exact ⟨List.mem_filter.mpr ⟨h.1, (hp y x h.2).trans hy⟩, h.2⟩
      rw [appendNew, appendNew]
      by_cases hy : p y
      · rw [if_pos hy, hany hy]
        split <;> simp [hy]
      · rw [if_neg hy]
        split <;> simp [hy]
    rw [List.foldl_cons, ih, hstep, List.filter_cons]
    split <;> rfl

/-- **Of the members of one kind the first is kept**, where members of one kind count as the same,
and the order of what is kept plays no part. -/
theorem filter_of_perm_distinct {κ : Type} [DecidableEq κ] {kind : α → κ} {xs ys : List α}
    (h : ys.Perm (distinct (fun x y => kind x = kind y) xs)) (k : κ) :
    ys.filter (fun y => kind y = k) = (xs.find? fun x => kind x = k).toList := by
  have hsame (x y : α) (h : decide (kind y = kind x) = true) :
      decide (kind y = k) = decide (kind x = k) := by
    rw [of_decide_eq_true h]
  have hkept := h.filter fun y => kind y = k
  rw [distinct, filter_foldl_appendNew hsame, List.filter_nil] at hkept
  rw [← List.head?_filter]
  cases hkind : xs.filter fun x => kind x = k with
  | nil =>
    rw [hkind] at hkept
    exact List.perm_nil.mp hkept
  | cons x rest =>
    have hmem : ∀ y ∈ x :: rest, kind y = k := by
      rw [← hkind]
      exact fun y hy => of_decide_eq_true (List.mem_filter.mp hy).2
    have htaken : ∀ y ∈ rest, [x].any (fun z => kind z = kind y) = true := fun y hy => by
      simp [hmem x List.mem_cons_self, hmem y (List.mem_cons_of_mem x hy)]
    have hfirst : (x :: rest).foldl (appendNew fun x y => kind x = kind y) [] = [x] :=
      foldl_appendNew_eq_self htaken
    rw [hkind, hfirst] at hkept
    exact List.perm_singleton.mp hkept

/-- What the members of a list stand for can be entered in their place. -/
theorem foldl_appendNew_map (f : β → α) (xs ys : List β) :
    (ys.map f).foldl (appendNew same) (xs.map f) =
      (ys.foldl (appendNew fun x y => same (f x) (f y)) xs).map f := by
  induction ys generalizing xs with
  | nil => rfl
  | cons y ys ih =>
    have hstep : appendNew same (xs.map f) (f y) =
        (appendNew (fun x y => same (f x) (f y)) xs y).map f := by
      rw [appendNew, appendNew, List.any_map]
      simp only [Function.comp_def]
      split
      · rfl
      · rw [List.map_append, List.map_singleton]
    rw [List.map_cons, List.foldl_cons, List.foldl_cons, hstep, ih]

theorem distinct_map (f : β → α) (xs : List β) :
    distinct same (xs.map f) = (distinct (fun x y => same (f x) (f y)) xs).map f :=
  foldl_appendNew_map f [] xs

end Parts

section Entering

variable {α β σ : Type} [BEq α] [LawfulBEq α]

/-- Repeats can be dropped before the members of a list are entered one after the other, if each of
them counts as taken once it is entered, stays so, and entering what is taken changes nothing. -/
theorem foldl_distinct (taken : σ → α → Prop) {step : σ → α → σ}
    (htake : ∀ s x, taken (step s x) x) (hkeep : ∀ s x y, taken s x → taken (step s y) x)
    (hidle : ∀ s x, taken s x → step s x = s) (xs : List α) (s : σ) :
    (distinct (· == ·) xs).foldl step s = xs.foldl step s := by
  have hstay (ys : List α) (s : σ) (x : α) (h : taken s x) : taken (ys.foldl step s) x := by
    induction ys generalizing s with
    | nil => exact h
    | cons y ys ih => exact ih _ (hkeep s x y h)
  have hmem (ys : List α) (s : σ) (x : α) (h : x ∈ ys) : taken (ys.foldl step s) x := by
    obtain ⟨before, after, rfl⟩ := List.append_of_mem h
    rw [List.foldl_append, List.foldl_cons]
    exact hstay after _ x (htake _ x)
  suffices ∀ seen : List α, (xs.foldl (appendNew (· == ·)) seen).foldl step s =
      xs.foldl step (seen.foldl step s) from this []
  induction xs with
  | nil => exact fun seen => rfl
  | cons x xs ih =>
    intro seen
    rw [List.foldl_cons, List.foldl_cons, ih, appendNew]
    split
    case isTrue h =>
      have hx : x ∈ seen := by simpa using h
      rw [hidle _ x (hmem seen s x hx)]
    case isFalse => rw [List.foldl_append, List.foldl_cons, List.foldl_nil]

/-- A member counts once, but it stays a member. -/
theorem mem_distinct {xs : List α} {x : α} : x ∈ distinct (· == ·) xs ↔ x ∈ xs := by
  constructor
  · intro h
    exact (mem_foldl_appendNew h).resolve_left List.not_mem_nil
  · intro h
    have hany : (distinct (· == ·) xs).any (· == x) = true :=
      any_foldl_appendNew (beq_self_eq_true x) h
    simpa using hany

/-- Repeats can be dropped before what the members of a list stand for is appended where its place
is not taken. -/
theorem foldl_appendNew_distinct {same : β → β → Bool} {f : α → Option β}
    (hrefl : ∀ x z, f x = some z → same z z = true) (xs : List α) (ys : List β) :
    ((distinct (· == ·) xs).filterMap f).foldl (appendNew same) ys =
      (xs.filterMap f).foldl (appendNew same) ys := by
  rw [List.foldl_filterMap, List.foldl_filterMap]
  refine foldl_distinct (fun ys x => ∀ z, f x = some z → ys.any fun y => same y z)
    ?_ ?_ ?_ xs ys
  · intro ys x z hz
    simp only [hz, appendNew]
    split
    · assumption
    · simp [hrefl x z hz]
  · intro ys x x' h z hz
    have hz := h z hz
    cases f x' with
    | none => exact hz
    | some z' =>
      simp only [appendNew]
      split
      · exact hz
      · simp [hz]
  · intro ys x h
    cases hz : f x with
    | none => rfl
    | some z => simp [appendNew, h z hz]

end Entering

end RunLedger
