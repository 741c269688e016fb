import Mathlib.Data.List.Nodup
import RunLedger.Proofs.Json.Printing

/-!
# Records read back

A record is written with each of its fields once, so an object gives for every field what was
written for it. A field that is read has come out of the decoder of its type, or it is absent or
has its default.

## Main results

* `Json.record?_ofFields`: the fields of an object with the expected names.
* `Json.given_ofFields`: the fields of an object that may lack some of them.
* `RecordFields.of_required?`, `RecordFields.of_optional?`, `RecordFields.of_defaulted?`: what holds
  of all that a decoder finds holds of the field.
-/

namespace RunLedger

namespace Json

theorem wellWritten_ofFields {fields : List (String × Json)}
    (h : ∀ f ∈ fields, f.2.WellWritten) : (ofFields fields).WellWritten := by
  refine .object ?_ ?_
  · simp only [List.mem_map]
    rintro m ⟨f, -, rfl⟩
    exact isWritten_escape f.1.toList
  · simp only [List.mem_map]
    rintro m ⟨f, hf, rfl⟩
    exact h f hf

theorem wellWritten_ofOption {α : Type} {encode : α → Json} (h : ∀ a, (encode a).WellWritten)
    (o : Option α) : (ofOption encode o).WellWritten := by
  cases o with
  | none => exact .null
  | some a => exact h a

/-- The names of the members are decoded as they were escaped. -/
theorem named?_ofFields (fields : List (String × Json)) :
    named? (fields.map fun (name, v) => (escape name.toList, v)) = some fields := by
  induction fields with
  | nil => rfl
  | cons f fs ih =>
    simp only [named?, List.map_cons, List.mapM_cons] at ih ⊢
    simp [ih, unescape?_escape]

/-- What an object gives for a name, when no name occurs twice in it. -/
theorem field?_eq_lookup {fields : List (String × Json)} (h : (fields.map (·.1)).Nodup)
    (name : String) : field? fields name = some (fields.lookup name) := by
  induction fields with
  | nil => rfl
  | cons f fs ih =>
    obtain ⟨hnotMem, hnodup⟩ := List.nodup_cons.1 h
    by_cases hname : f.1 = name
    · subst hname
      have hnone : fs.filter (·.1 == f.1) = [] := by
        refine List.filter_eq_nil_iff.2 fun g hg heq => hnotMem ?_
        exact List.mem_map.2 ⟨g, hg, eq_of_beq heq⟩
      have hlookup : (f :: fs).lookup f.1 = some f.2 := List.lookup_cons_self
      simp [field?, hnone, hlookup]
    · have hskip : field? (f :: fs) name = field? fs name := by
        simp [field?, hname]
      rw [hskip, ih hnodup, List.lookup_cons, beq_false_of_ne (Ne.symm hname)]

theorem lookup_of_mem {fields : List (String × Json)} (h : (fields.map (·.1)).Nodup)
    {f : String × Json} (hf : f ∈ fields) : fields.lookup f.1 = some f.2 := by
  induction fields with
  | nil => cases hf
  | cons g gs ih =>
    obtain ⟨hnotMem, hnodup⟩ := List.nodup_cons.1 h
    obtain rfl | hmem := List.mem_cons.1 hf
    · exact List.lookup_cons_self
    · have hne : f.1 ≠ g.1 := fun heq => hnotMem (List.mem_map.2 ⟨f, hmem, heq⟩)
      rw [List.lookup_cons, beq_false_of_ne hne]
      exact ih hnodup hmem

/-- What an object gives for each of the names, when no name occurs twice in it. -/
theorem given_ofFields {fields : List (String × Json)} (h : (fields.map (·.1)).Nodup)
    (names : List String) :
    record? names (ofFields fields)
      = some { byName := true, given := names.map fun name => fields.lookup name } := by
  have hfields : names.mapM (field? fields) = some (names.map fun name => fields.lookup name) := by
    induction names with
    | nil => rfl
    | cons name names ih => simp [List.mapM_cons, field?_eq_lookup h, ih]
  simp [record?, ofFields, named?_ofFields, hfields]

/-- An object with the expected names gives what was written for each. -/
theorem record?_ofFields {fields : List (String × Json)} {names : List String}
    (hnames : fields.map (·.1) = names) (h : names.Nodup) :
    record? names (ofFields fields)
      = some { byName := true, given := fields.map fun f => some f.2 } := by
  subst hnames
  rw [given_ofFields h, List.map_map]
  have hlookup : fields.map ((fun name => fields.lookup name) ∘ (·.1))
      = fields.map fun f => some f.2 :=
    List.map_congr_left fun f hf => lookup_of_mem h hf
  rw [hlookup]

/-- The name of an enumerated value is read from its written form. -/
theorem enum?_ofString {α : Type} (ofName? : String → Option α) (s : String) :
    enum? ofName? (ofString s) = ofName? s := by
  have htext := text?_ofString s
  unfold ofString at htext
  simp only [enum?, ofString, htext, Option.bind_some]

/-- An optional value is read from its written form, if what is not `null` is written for it. -/
theorem nullable?_ofOption {α : Type} {encode : α → Json} {decode? : Json → Option α}
    {o : Option α} (hnull : ∀ a, encode a ≠ .null) (h : ∀ a ∈ o, decode? (encode a) = some a) :
    nullable? decode? (ofOption encode o) = some o := by
  cases o with
  | none => rfl
  | some a =>
    have ha := h a rfl
    simp only [ofOption]
    unfold nullable?
    split
    · rename_i heq
      exact absurd heq (hnull a)
    · rw [ha]; rfl

-- For `>>=` itself: turning it into `Option.bind` first takes too many steps in a long record.
/-- What reads one thing after the other succeeds if each of the two is read. -/
theorem read_then_eq_some_iff {α β : Type} {x : Option α} {f : α → Option β} {b : β} :
    (x >>= f) = some b ↔ ∃ a, x = some a ∧ f a = some b :=
  Option.bind_eq_some_iff

end Json

namespace RecordFields

variable {α : Type} {fields : RecordFields} {position : Nat} {decode? : Json → Option α}
  {P : α → Prop}

theorem of_required? (hP : ∀ j a, decode? j = some a → P a) {a : α}
    (h : fields.required? position decode? = some a) : P a := by
  obtain ⟨j, -, hj⟩ := Option.bind_eq_some_iff.1 h
  exact hP j a hj

theorem of_optional? (hP : ∀ j a, decode? j = some a → P a) {o : Option α}
    (h : fields.optional? position decode? = some o) : ∀ a ∈ o, P a := by
  rintro a rfl
  unfold optional? at h
  split at h
  · rename_i v _
    unfold Json.nullable? at h
    split at h
    · cases h
    · obtain ⟨b, hb, hba⟩ := Option.map_eq_some_iff.1 h
      obtain rfl := Option.some.inj hba
      exact hP v b hb
  · split at h <;> cases h

theorem of_defaulted? (hP : ∀ j a, decode? j = some a → P a) {default : α} (hdefault : P default)
    {a : α} (h : fields.defaulted? position default decode? = some a) : P a := by
  unfold defaulted? at h
  split at h
  · exact hP _ a h
  · cases h; exact hdefault

end RecordFields

end RunLedger
