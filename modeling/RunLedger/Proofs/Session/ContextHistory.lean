import Mathlib.Algebra.Order.Group.Int
import RunLedger.Session.Context

/-!
# What has happened to contexts

Whether a context has fired is told here from what has happened, without a record of it: from the
events that created, cloned and cancelled contexts and moved the clocks. The contexts of one family
are those that go back, from clone to source, to one creation, so a family is known by the number of
creations before its own. It has fired if, at some moment up to now, one of its contexts has been
cancelled, or the time that was given to it at its creation was over. That the record which the
ledger keeps says the same is the result of this module.

## Main definitions

* `ContextEvent`, `ContextHistory`: what can happen to clocks and contexts, and what has happened.
* `ContextHistory.clock`, `ContextHistory.family?`: the monotonic clock, and the family of a
  context.
* `ContextHistory.Cancels`, `ContextHistory.IsDue`: how a family fires.
* `ContextHistory.Ever`: something has been so at some moment.
* `Contexts.after`: the clocks and contexts after what has happened.

## Main results

* `Contexts.Follows.apply`: what an event makes of the record.
* `Contexts.interrupt?_after`: the record tells whether and how a context has fired.
-/

namespace RunLedger

/-- What can happen to the clocks and contexts. -/
inductive ContextEvent
  | setWall (wall : Int)
  | advance (ms : Int)
  | create (name : String) (timeout : Option Int)
  | clone (name source : String)
  | cancel (name : String)
  /-- A unit of work cancels its own context, which may have lost its name since. -/
  | cancelFamily (number : Nat)

/-- Carries an event out. Cloning or cancelling a context that is not there does nothing. -/
def ContextEvent.apply : ContextEvent → Contexts → Contexts
  | setWall wall, c => c.setWall wall
  | advance ms, c => c.advance ms
  | create name timeout, c => c.create name timeout
  | clone name source, c => (c.clone name source).getD c
  | cancel name, c => (c.cancel name).getD c
  | cancelFamily number, c => c.cancelFamily number

/-- What has happened, the latest event first. -/
abbrev ContextHistory := List ContextEvent

namespace ContextHistory

/-- The reading of the monotonic clock: all the time that has passed. -/
def clock : ContextHistory → Int
  | [] => 0
  | .advance ms :: past => clock past + ms
  | _ :: past => clock past

/-- How many contexts have been created otherwise than as clones. -/
def creations : ContextHistory → Nat
  | [] => 0
  | .create _ _ :: past => creations past + 1
  | _ :: past => creations past

/-- The family of the context with a name: the number of creations before that from which it stems.
A clone is of the family of its source. -/
def family? : ContextHistory → String → Option Nat
  | [], _ => none
  | .create name _ :: past, other =>
    if other = name then some (creations past) else family? past other
  | .clone name source :: past, other =>
    if other = name then (family? past source).or (family? past other) else family? past other
  | _ :: past, other => family? past other

/-- When the first context of a family was created, and for how long. -/
def creation? : ContextHistory → Nat → Option (Int × Option Int)
  | [], _ => none
  | .create _ timeout :: past, i =>
    if i = creations past then some (clock past, timeout) else creation? past i
  | _ :: past, i => creation? past i

/-- The latest event cancels a context of the family. -/
def Cancels : ContextHistory → Nat → Prop
  | .cancel name :: past, i => family? past name = some i
  | .cancelFamily number :: past, i => number = i ∧ i < creations past
  | _, _ => False

/-- The time given to the family is over. -/
def IsDue (past : ContextHistory) (i : Nat) : Prop :=
  ∃ start timeout, past.creation? i = some (start, some timeout) ∧ start + timeout ≤ past.clock

/-- At some moment up to now it has been so. -/
def Ever (P : ContextHistory → Prop) (past : ContextHistory) : Prop :=
  ∃ moment, moment <:+ past ∧ P moment

/-- The monotonic clock has never gone back. -/
def Timely (past : ContextHistory) : Prop := ∀ ms, .advance ms ∈ past → 0 ≤ ms

/-! ### From one moment to the next -/

section Moments

variable {past : ContextHistory} {event : ContextEvent} {i : Nat} {P : ContextHistory → Prop}

theorem ever_nil : Ever P [] ↔ P [] := by
  simp only [Ever, List.suffix_nil, exists_eq_left]

/-- Something has been so at some moment if it is so now, or had been before. -/
theorem ever_cons : Ever P (event :: past) ↔ P (event :: past) ∨ Ever P past := by
  constructor
  · rintro ⟨moment, hmoment, hP⟩
    rcases List.suffix_cons_iff.mp hmoment with rfl | hbefore
    · exact .inl hP
    · exact .inr ⟨moment, hbefore, hP⟩
  · rintro (hP | ⟨moment, hmoment, hP⟩)
    · exact ⟨_, List.suffix_refl _, hP⟩
    · exact ⟨moment, hmoment.trans (List.suffix_cons event past), hP⟩

/-- What has been so once has been so ever after. -/
theorem Ever.append (h : Ever P past) (later : ContextHistory) : Ever P (later ++ past) := by
  obtain ⟨moment, hmoment, hP⟩ := h
  exact ⟨moment, hmoment.trans (List.suffix_append later past), hP⟩

theorem Timely.of_cons (h : Timely (event :: past)) : past.Timely :=
  fun ms hms => h ms (List.mem_cons_of_mem event hms)

theorem Timely.append {later : ContextHistory} (hlater : later.Timely) (h : past.Timely) :
    Timely (later ++ past) :=
  fun ms hms => (List.mem_append.mp hms).elim (hlater ms) (h ms)

theorem creations_le_cons (event : ContextEvent) (past : ContextHistory) :
    creations past ≤ creations (event :: past) := by
  cases event <;> simp [creations]

theorem family?_lt {name : String} (h : past.family? name = some i) : i < past.creations := by
  induction past generalizing name with
  | nil => cases h
  | cons event past ih =>
    cases event with
    | create new timeout =>
      rw [family?] at h
      split at h
      · obtain rfl := Option.some.inj h
        exact Nat.lt_succ_self _
      · exact (ih h).trans (Nat.lt_succ_self _)
    | clone new source =>
      rw [family?] at h
      split at h
      · rcases Option.or_eq_some_iff.mp h with hsource | ⟨-, hbefore⟩
        · exact ih hsource
        · exact ih hbefore
      · exact ih h
    | _ => exact ih h

theorem creation?_lt {x : Int × Option Int} (h : past.creation? i = some x) :
    i < past.creations := by
  induction past with
  | nil => cases h
  | cons event past ih =>
    cases event with
    | create name timeout =>
      rw [creation?] at h
      split at h
      · next hi => exact hi ▸ Nat.lt_succ_self _
      · exact (ih h).trans (Nat.lt_succ_self _)
    | _ => exact ih h

theorem creation?_cons {x : Int × Option Int} (h : past.creation? i = some x) :
    creation? (event :: past) i = some x := by
  cases event with
  | create name timeout => rw [creation?, if_neg (creation?_lt h).ne, h]
  | _ => exact h

theorem Cancels.lt (h : Cancels (event :: past) i) : i < past.creations := by
  cases event with
  | cancel name => exact family?_lt h
  | cancelFamily number => exact h.2
  | setWall | advance | create | clone => exact h.elim

/-- No context of a family is cancelled before there is one. -/
theorem ever_cancels_lt (h : Ever (Cancels · i) past) : i < past.creations := by
  induction past with
  | nil => exact (ever_nil.mp h).elim
  | cons event past ih =>
    refine lt_of_lt_of_le ?_ (creations_le_cons event past)
    rcases ever_cons.mp h with hnow | hbefore
    · exact hnow.lt
    · exact ih hbefore

/-- Time that is over stays over. -/
theorem IsDue.cons (h : past.IsDue i) (htimely : Timely (event :: past)) :
    IsDue (event :: past) i := by
  obtain ⟨start, timeout, hcreation, hdue⟩ := h
  refine ⟨start, timeout, creation?_cons hcreation, hdue.trans ?_⟩
  cases event with
  | advance ms =>
    have hms : 0 ≤ ms := htimely ms List.mem_cons_self
    exact le_add_of_nonneg_right hms
  | _ => exact le_rfl

/-- The time of a family has been over once if it is over now. -/
theorem ever_isDue_iff (htimely : past.Timely) : Ever (IsDue · i) past ↔ past.IsDue i := by
  refine ⟨fun h => ?_, fun h => ⟨past, List.suffix_refl past, h⟩⟩
  induction past with
  | nil => exact ever_nil.mp h
  | cons event past ih =>
    rcases ever_cons.mp h with hnow | hbefore
    · exact hnow
    · exact (ih htimely.of_cons hbefore).cons htimely

end Moments

end ContextHistory

/-! ### The record of what has happened -/

open ContextHistory

namespace Contexts

/-- The clocks and contexts after what has happened, from a reading of the wall clock on. -/
def after (wall : Int) (past : ContextHistory) : Contexts :=
  past.foldr ContextEvent.apply (start wall)

/-- The record of clocks and contexts tells what has happened to them, as far as it matters. -/
structure Follows (c : Contexts) (past : ContextHistory) : Prop where
  monotonic : c.monotonic = past.clock
  numbers : c.families.keys = List.range past.creations
  names : ∀ name, c.number? name = past.family? name
  families : ∀ i f, c.families.get? i = some f → ∃ start timeout,
    past.creation? i = some (start, timeout) ∧ f.deadline = timeout.map (start + ·) ∧
      (f.cancelled = true ↔ Ever (Cancels · i) past)

namespace Follows

variable {c : Contexts} {past : ContextHistory}

theorem start (wall : Int) : (Contexts.start wall).Follows [] where
  monotonic := rfl
  numbers := rfl
  names _ := rfl
  families _ _ h := nomatch h

variable (h : c.Follows past)

include h

/-- The families of an event that cancels none. -/
theorem families_of_not_cancels {event : ContextEvent} (hcancels : ∀ i, ¬ Cancels (event :: past) i)
    {i : Nat} {f : Family} (hf : c.families.get? i = some f) : ∃ start timeout,
      creation? (event :: past) i = some (start, timeout) ∧ f.deadline = timeout.map (start + ·) ∧
        (f.cancelled = true ↔ Ever (Cancels · i) (event :: past)) := by
  obtain ⟨start, timeout, hcreation, hdeadline, hcancelled⟩ := h.families i f hf
  refine ⟨start, timeout, creation?_cons hcreation, hdeadline, ?_⟩
  rw [hcancelled, ever_cons, or_iff_right (hcancels i)]

/-- The families of an event that cancels one. -/
theorem families_of_cancels {event : ContextEvent} {number : Nat}
    (hcancels : ∀ i, Cancels (event :: past) i ↔ number = i ∧ i < past.creations)
    {i : Nat} {f : Family} (hf : (c.cancelFamily number).families.get? i = some f) :
    ∃ start timeout,
      creation? (event :: past) i = some (start, timeout) ∧ f.deadline = timeout.map (start + ·) ∧
        (f.cancelled = true ↔ Ever (Cancels · i) (event :: past)) := by
  by_cases hi : number = i
  · subst hi
    rw [cancelFamily, Table.get?_update_self] at hf
    obtain ⟨g, hg, rfl⟩ := Option.map_eq_some_iff.mp hf
    obtain ⟨start, timeout, hcreation, hdeadline, -⟩ := h.families number g hg
    exact ⟨start, timeout, creation?_cons hcreation, hdeadline,
      iff_of_true rfl (ever_cons.mpr (.inl ((hcancels number).mpr ⟨rfl, creation?_lt hcreation⟩)))⟩
  · have hne : ¬ compare i number = .eq := fun h => hi (Std.compare_eq_iff_eq.mp h).symm
    rw [cancelFamily, Table.get?_update, if_neg hne] at hf
    obtain ⟨start, timeout, hcreation, hdeadline, hcancelled⟩ := h.families i f hf
    refine ⟨start, timeout, creation?_cons hcreation, hdeadline, ?_⟩
    rw [hcancelled, ever_cons, or_iff_right fun hnow => hi ((hcancels i).mp hnow).1]

theorem length_families : c.families.entries.length = past.creations := by
  have hlength := congrArg List.length h.numbers
  rwa [Table.keys, List.length_map, List.length_range] at hlength

/-- A context that is created starts a family of its own, which has not been cancelled. -/
theorem create (name : String) (timeout : Option Int) :
    (c.create name timeout).Follows (.create name timeout :: past) where
  monotonic := h.monotonic
  numbers := by
    have hlast : ∀ l ∈ c.families.keys, compare l past.creations = .lt := by
      intro l hl
      rw [h.numbers, List.mem_range] at hl
      exact Nat.compare_eq_lt.mpr hl
    rw [Contexts.create, h.length_families]
    exact (Table.keys_insert_of_forall_lt hlast _).trans (by rw [h.numbers, creations,
      List.range_succ])
  names other := by
    rw [Contexts.create, h.length_families, number?, Table.get?_insert, ContextHistory.family?]
    simp only [Std.compare_eq_iff_eq, ← h.names, number?]
  families i f hf := by
    rw [Contexts.create, h.length_families, Table.get?_insert] at hf
    split at hf
    · next hi =>
      obtain rfl : i = past.creations := Std.compare_eq_iff_eq.mp hi
      obtain rfl := Option.some.inj hf
      refine ⟨past.clock, timeout, by rw [creation?, if_pos rfl], by rw [h.monotonic], ?_⟩
      refine iff_of_false Bool.false_ne_true fun hever => ?_
      rcases ever_cons.mp hever with hnow | hbefore
      · exact hnow
      · exact (ever_cancels_lt hbefore).ne rfl
    · exact h.families_of_not_cancels (fun _ => id) hf

/-- A clone is of the family of its source. -/
theorem clone (name source : String) :
    ((c.clone name source).getD c).Follows (.clone name source :: past) := by
  have hcancels (i : Nat) : ¬ Cancels (.clone name source :: past) i := id
  have hfamilies : ∀ (i : Nat) (f : Family), c.families.get? i = some f → _ := fun _ _ =>
    h.families_of_not_cancels hcancels
  cases hsource : c.number? source with
  | none =>
    rw [Contexts.clone, hsource]
    refine ⟨h.monotonic, h.numbers, fun other => ?_, hfamilies⟩
    rw [ContextHistory.family?, ← h.names source, hsource, Option.none_or, ite_self]
    exact h.names other
  | some number =>
    rw [Contexts.clone, hsource]
    refine ⟨h.monotonic, h.numbers, fun other => ?_, hfamilies⟩
    rw [ContextHistory.family?, ← h.names source, hsource, Option.some_or]
    change (c.names.insert name number).get? other = _
    simp only [Table.get?_insert, Std.compare_eq_iff_eq, ← h.names, number?]

/-- What an event makes of the record, if it cancels a family. -/
theorem cancelFamily {event : ContextEvent} {number : Nat}
    (hclock : clock (event :: past) = past.clock)
    (hcreations : creations (event :: past) = past.creations)
    (hnames : ∀ name, ContextHistory.family? (event :: past) name = past.family? name)
    (hcancels : ∀ i, Cancels (event :: past) i ↔ number = i ∧ i < past.creations) :
    (c.cancelFamily number).Follows (event :: past) where
  monotonic := h.monotonic.trans hclock.symm
  numbers := (Table.keys_update _ _ _).trans (by rw [h.numbers, hcreations])
  names name := (h.names name).trans (hnames name).symm
  families _ _ := h.families_of_cancels hcancels

/-- **The record goes on telling what has happened.** -/
theorem apply (event : ContextEvent) : (event.apply c).Follows (event :: past) := by
  cases event with
  | setWall wall =>
    exact ⟨h.monotonic, h.numbers, h.names, fun _ _ => h.families_of_not_cancels fun _ => id⟩
  | advance ms =>
    exact ⟨congrArg (· + ms) h.monotonic, h.numbers, h.names,
      fun _ _ => h.families_of_not_cancels fun _ => id⟩
  | create name timeout => exact h.create name timeout
  | clone name source => exact h.clone name source
  | cancel name =>
    have hnames : past.family? name = c.number? name := (h.names name).symm
    cases hnumber : c.number? name with
    | none =>
      rw [ContextEvent.apply, Contexts.cancel, hnumber]
      refine ⟨h.monotonic, h.numbers, h.names, fun _ _ => h.families_of_not_cancels fun i hi => ?_⟩
      rw [Cancels, hnames, hnumber] at hi
      cases hi
    | some number =>
      rw [ContextEvent.apply, Contexts.cancel, hnumber]
      refine h.cancelFamily rfl rfl (fun _ => rfl) fun i => ?_
      rw [Cancels, hnames, hnumber, Option.some_inj]
      exact ⟨fun hi => ⟨hi, hi ▸ family?_lt (hnames.trans hnumber)⟩, And.left⟩
  | cancelFamily number => exact h.cancelFamily rfl rfl (fun _ => rfl) fun _ => Iff.rfl

end Follows

theorem follows_after (wall : Int) (past : ContextHistory) : (after wall past).Follows past := by
  induction past with
  | nil => exact .start wall
  | cons event past ih => exact ih.apply event

/-- **The record tells whether and how a context has fired.** -/
theorem Follows.interrupt? {c : Contexts} {past : ContextHistory} (h : c.Follows past)
    (htimely : past.Timely) {i : Nat} {f : Family} (hf : c.families.get? i = some f) :
    (c.interrupt? f = some .cancelled ↔ Ever (Cancels · i) past) ∧
      (c.interrupt? f = some .pastDeadline ↔
        ¬ Ever (Cancels · i) past ∧ Ever (IsDue · i) past) := by
  obtain ⟨start, timeout, hcreation, hdeadline, hcancelled⟩ := h.families i f hf
  have hdue : f.isPastDeadline c.monotonic = true ↔ past.IsDue i := by
    rw [Family.isPastDeadline, hdeadline, h.monotonic, IsDue, hcreation]
    cases timeout <;> simp [and_assoc]
  rw [Contexts.interrupt?, Family.interrupt?, ← hcancelled, ever_isDue_iff htimely, ← hdue]
  cases f.cancelled <;> cases f.isPastDeadline c.monotonic <;> simp

end Contexts

end RunLedger
