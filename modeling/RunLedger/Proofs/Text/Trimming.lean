import Mathlib.Data.List.TakeWhile
import RunLedger.Text.Blank

/-!
# What trimming leaves

A text is some white space, a core that neither begins nor ends with white space, and some white
space again. There is only one such core, and trimming finds it.

## Main definitions

* `Text.IsCore`: the text without the white space around it.

## Main results

* `Text.isCore_iff`: trimming finds the core and nothing else.
* `Text.isCore_of_forall`: a text without white space is a core.
-/

namespace RunLedger.Text

/-- `core` is the text `cs` without the white space around it. -/
structure IsCore (core cs : List Char) : Prop where
  /-- There is nothing but white space around the core. -/
  exists_around : ∃ before after, cs = before ++ core ++ after ∧
    (∀ c ∈ before, isSpace c) ∧ ∀ c ∈ after, isSpace c
  /-- The core does not begin with white space. -/
  head? : core.head?.any isSpace = false
  /-- The core does not end with white space. -/
  getLast? : core.getLast?.any isSpace = false

variable {core cs before after : List Char}

theorem dropWhile_isSpace_eq_self (h : core.head?.any isSpace = false) :
    core.dropWhile isSpace = core := by
  cases core with
  | nil => rfl
  | cons c core => rw [List.dropWhile_cons_of_neg (by simpa using h)]

theorem head?_dropWhile_isSpace (cs : List Char) :
    (cs.dropWhile isSpace).head?.any isSpace = false := by
  have h := List.head?_dropWhile_not isSpace cs
  cases hhead : (cs.dropWhile isSpace).head? with
  | none => rfl
  | some c => simpa [hhead] using h

/-- Trimming takes away white space around what neither begins nor ends with it. -/
theorem trim_append_append (hbefore : ∀ c ∈ before, isSpace c) (hafter : ∀ c ∈ after, isSpace c)
    (hhead : core.head?.any isSpace = false) (hlast : core.getLast?.any isSpace = false) :
    trim (before ++ core ++ after) = core := by
  have hend : ((core ++ after).reverse.dropWhile isSpace).reverse = core := by
    rw [List.reverse_append, List.dropWhile_append_of_pos (by simpa using hafter),
      dropWhile_isSpace_eq_self (by rwa [List.head?_reverse]), List.reverse_reverse]
  rw [trim, List.append_assoc, List.dropWhile_append_of_pos hbefore]
  cases core with
  | nil =>
    have hblank : after.dropWhile isSpace = [] :=
      (dropWhile_eq_nil_iff isSpace after).mpr (List.all_eq_true.mpr hafter)
    rw [List.nil_append, hblank]
    rfl
  | cons c core =>
    rw [List.cons_append, List.dropWhile_cons_of_neg (by simpa using hhead)]
    exact hend

theorem isCore_trim (cs : List Char) : IsCore (trim cs) cs where
  exists_around := by
    let rest := cs.dropWhile isSpace
    refine ⟨cs.takeWhile isSpace, (rest.reverse.takeWhile isSpace).reverse, ?_,
      fun c hc => List.mem_takeWhile_imp hc, fun c hc => ?_⟩
    · have hrest : trim cs ++ (rest.reverse.takeWhile isSpace).reverse = rest := by
        rw [trim, ← List.reverse_append, List.takeWhile_append_dropWhile, List.reverse_reverse]
      rw [List.append_assoc, hrest, List.takeWhile_append_dropWhile]
    · exact List.mem_takeWhile_imp (List.mem_reverse.mp hc)
  head? := by
    -- what is left begins as the text does without its leading white space, if anything is left
    have hprefix : trim cs <+: cs.dropWhile isSpace := by
      rw [trim, ← List.reverse_suffix, List.reverse_reverse]
      exact List.dropWhile_suffix isSpace
    have hhead := head?_dropWhile_isSpace cs
    cases hcore : trim cs with
    | nil => rfl
    | cons c core =>
      rw [hcore] at hprefix
      obtain ⟨more, hmore⟩ := hprefix
      rw [← hmore] at hhead
      exact hhead
  getLast? := by
    rw [trim, List.getLast?_reverse]
    exact head?_dropWhile_isSpace _

/-- **Trimming finds the core of a text**, and a text has no other core. -/
theorem isCore_iff : IsCore core cs ↔ trim cs = core := by
  constructor
  · rintro ⟨⟨before, after, rfl, hbefore, hafter⟩, hhead, hlast⟩
    exact trim_append_append hbefore hafter hhead hlast
  · rintro rfl
    exact isCore_trim cs

/-- What has no white space in it is a core, whatever white space stands around it. -/
theorem isCore_of_forall (hbefore : ∀ c ∈ before, isSpace c) (hafter : ∀ c ∈ after, isSpace c)
    (hcore : ∀ c ∈ core, isSpace c = false) : IsCore core (before ++ core ++ after) where
  exists_around := ⟨before, after, rfl, hbefore, hafter⟩
  head? := by
    cases h : core.head? with
    | none => rfl
    | some c => exact hcore c (List.mem_of_head? h)
  getLast? := by
    cases h : core.getLast? with
    | none => rfl
    | some c => exact hcore c (List.mem_of_getLast? h)

end RunLedger.Text
