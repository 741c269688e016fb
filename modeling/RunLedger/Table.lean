/-!
# Tables

A table holds one value for each of its keys. It is kept as the list of its entries in increasing
order of key, so two tables with the same values are equal, and listing a table needs no sorting.
Text keys are ordered by their characters, which is also the order of their UTF-8 bytes.

## Main definitions

* `Table κ ρ`: values of type `ρ` at keys of type `κ`.
* `Table.get?`, `Table.insert`, `Table.erase`, `Table.update`: one key.
* `Table.map`, `Table.filter`: all entries.

## Main results

* `Table.ext_get?`: a table is determined by its values.
* `Table.get?_insert`, `Table.get?_erase`, `Table.get?_update`, `Table.get?_map`,
  `Table.get?_filter`: what each operation does to the value at a key.
* `Table.update_update`: two changes at one key are one.
* `Table.entries_perm`: the entry at a key set apart from the others.
* `Table.keys_map`, `Table.keys_update`, `Table.keys_insert_of_forall_lt`: what becomes of the keys.
* `Table.get?_foldl_entries`: changing one key after the other, for every entry of a table.
-/

namespace RunLedger

/-- A value for each of finitely many keys, in increasing order of key. -/
structure Table (κ : Type) (ρ : Type) [Ord κ] where
  /-- The keys with their values. -/
  entries : List (κ × ρ)
  increasing : entries.Pairwise fun a b => compare a.1 b.1 = .lt

namespace Table

variable {κ ρ σ : Type} [Ord κ]

/-- The table without entries. -/
def empty : Table κ ρ := ⟨[], .nil⟩

instance : Inhabited (Table κ ρ) := ⟨empty⟩

instance [DecidableEq κ] [DecidableEq ρ] : DecidableEq (Table κ ρ) := fun s t =>
  decidable_of_iff (s.entries = t.entries) ⟨fun h => by cases s; cases t; cases h; rfl, by grind⟩

/-- The value at a key in a list of entries. -/
def find? (k : κ) : List (κ × ρ) → Option ρ
  | [] => none
  | (l, v) :: es => if compare k l = .eq then some v else find? k es

/-- The value at a key. -/
def get? (t : Table κ ρ) (k : κ) : Option ρ := find? k t.entries

/-- Whether the table has the key. -/
def contains (t : Table κ ρ) (k : κ) : Bool := (t.get? k).isSome

/-- The keys in increasing order. -/
def keys (t : Table κ ρ) : List κ := t.entries.map (·.1)

/-- The values in the order of their keys. -/
def values (t : Table κ ρ) : List ρ := t.entries.map (·.2)

/-- Puts a value at a key into a list of entries, in place of the one there. -/
def place (k : κ) (v : ρ) : List (κ × ρ) → List (κ × ρ)
  | [] => [(k, v)]
  | (l, w) :: es =>
    match compare k l with
    | .lt => (k, v) :: (l, w) :: es
    | .eq => (k, v) :: es
    | .gt => (l, w) :: place k v es

/-- The entries after putting a value are the value put and the entries at other keys. -/
theorem mem_place {k : κ} {v : ρ} {es : List (κ × ρ)} {e : κ × ρ} (h : e ∈ place k v es) :
    e = (k, v) ∨ e ∈ es := by
  induction es with
  | nil => simp_all [place]
  | cons f es ih =>
    obtain ⟨l, w⟩ := f
    simp only [place] at h
    split at h <;> grind

theorem find?_eq_none {k : κ} {es : List (κ × ρ)} (h : ∀ e ∈ es, compare k e.1 = .lt) :
    find? k es = none := by
  induction es with
  | nil => rfl
  | cons e es ih =>
    have he := h e (by simp)
    rw [find?, if_neg (by simp [he]), ih fun e' he' => h e' (by simp [he'])]

@[simp] theorem get?_empty (k : κ) : (empty : Table κ ρ).get? k = none := rfl

theorem contains_of_get? {t : Table κ ρ} {k : κ} {v : ρ} (h : t.get? k = some v) :
    t.contains k = true := by
  rw [contains, h]
  rfl

variable [Std.TransOrd κ] [Std.LawfulEqOrd κ]

theorem pairwise_place (k : κ) (v : ρ) {es : List (κ × ρ)}
    (h : es.Pairwise fun a b => compare a.1 b.1 = .lt) :
    (place k v es).Pairwise fun a b => compare a.1 b.1 = .lt := by
  induction es with
  | nil => simp [place]
  | cons f es ih =>
    obtain ⟨l, w⟩ := f
    obtain ⟨hl, hes⟩ := List.pairwise_cons.mp h
    simp only [place]
    split
    case h_1 hk =>
      refine List.pairwise_cons.mpr ⟨fun e he => ?_, h⟩
      rcases List.mem_cons.mp he with rfl | he
      · exact hk
      · exact Std.TransCmp.lt_trans hk (hl e he)
    case h_2 hk =>
      obtain rfl := Std.LawfulEqCmp.eq_of_compare hk
      exact List.pairwise_cons.mpr ⟨hl, hes⟩
    case h_3 hk =>
      refine List.pairwise_cons.mpr ⟨fun e he => ?_, ih hes⟩
      rcases mem_place he with rfl | he
      · exact Std.OrientedCmp.gt_iff_lt.mp hk
      · exact hl e he

/-- The table with the value `v` at the key `k`. -/
def insert (t : Table κ ρ) (k : κ) (v : ρ) : Table κ ρ :=
  ⟨place k v t.entries, pairwise_place k v t.increasing⟩

/-- The table without the key `k`. -/
def erase (t : Table κ ρ) (k : κ) : Table κ ρ :=
  ⟨t.entries.filter fun e => compare k e.1 != .eq, t.increasing.filter _⟩

/-- The table with every value changed by `f`. -/
def map (t : Table κ ρ) (f : κ → ρ → σ) : Table κ σ :=
  ⟨t.entries.map fun e => (e.1, f e.1 e.2), List.pairwise_map.mpr t.increasing⟩

/-- The entries with a property. -/
def filter (t : Table κ ρ) (p : κ → ρ → Bool) : Table κ ρ :=
  ⟨t.entries.filter fun e => p e.1 e.2, t.increasing.filter _⟩

/-- The table with the value at `k`, if there is one, changed by `f`. -/
def update (t : Table κ ρ) (k : κ) (f : ρ → ρ) : Table κ ρ :=
  match t.get? k with
  | some v => t.insert k (f v)
  | none => t

/-! ### Values at a key -/

theorem find?_place (k : κ) (v : ρ) (es : List (κ × ρ)) (l : κ) :
    find? l (place k v es) = if compare l k = .eq then some v else find? l es := by
  induction es with
  | nil => simp [place, find?]
  | cons e es ih =>
    obtain ⟨m, w⟩ := e
    simp only [place]
    split
    case h_1 => simp only [find?]
    case h_2 hk =>
      obtain rfl := Std.LawfulEqCmp.eq_of_compare hk
      simp only [find?]
      split <;> simp_all
    case h_3 hk =>
      simp only [find?, ih]
      by_cases hm : compare l m = .eq
      · obtain rfl := Std.LawfulEqCmp.eq_of_compare hm
        have : compare l k ≠ .eq := by
          rw [Std.OrientedCmp.gt_iff_lt.mp hk]
          decide
        simp [this]
      · simp [hm]

theorem get?_insert (t : Table κ ρ) (k l : κ) (v : ρ) :
    (t.insert k v).get? l = if compare l k = .eq then some v else t.get? l :=
  find?_place k v t.entries l

@[simp] theorem get?_insert_self (t : Table κ ρ) (k : κ) (v : ρ) :
    (t.insert k v).get? k = some v := by
  simp [get?_insert]

theorem get?_insert_of_ne (t : Table κ ρ) {k l : κ} (h : l ≠ k) (v : ρ) :
    (t.insert k v).get? l = t.get? l := by
  rw [get?_insert, if_neg (by simpa [Std.compare_eq_iff_eq] using h)]

omit [Std.TransOrd κ] in
theorem get?_filter (t : Table κ ρ) (p : κ → ρ → Bool) (k : κ) :
    (t.filter p).get? k = (t.get? k).filter (p k) := by
  obtain ⟨es, hes⟩ := t
  simp only [get?, filter]
  induction es with
  | nil => rfl
  | cons e es ih =>
    obtain ⟨m, w⟩ := e
    obtain ⟨hm, hes⟩ := List.pairwise_cons.mp hes
    have ih := ih hes
    by_cases hk : compare k m = .eq
    · obtain rfl := Std.LawfulEqCmp.eq_of_compare hk
      have hnone : find? k (es.filter fun e => p e.1 e.2) = none :=
        find?_eq_none fun e he => hm e ((List.mem_filter.mp he).1)
      by_cases hp : p k w <;> simp [find?, hp, hnone, Option.filter]
    · by_cases hp : p m w <;> simp [find?, hk, hp, ih]

omit [Std.TransOrd κ] in
theorem get?_erase (t : Table κ ρ) (k l : κ) :
    (t.erase k).get? l = if compare l k = .eq then none else t.get? l := by
  have h : t.erase k = t.filter fun m _ => compare k m != .eq := rfl
  rw [h, get?_filter]
  by_cases hl : compare l k = .eq
  · obtain rfl := Std.LawfulEqCmp.eq_of_compare hl
    cases t.get? l <;> simp
  · have : ¬ compare k l = .eq := fun hk => hl (by rw [Std.LawfulEqCmp.eq_of_compare hk]; simp)
    cases t.get? l <;> simp [hl, this]

omit [Std.TransOrd κ] in
@[simp] theorem get?_erase_self (t : Table κ ρ) (k : κ) : (t.erase k).get? k = none := by
  simp [get?_erase]

omit [Std.TransOrd κ] in
theorem get?_erase_of_ne (t : Table κ ρ) {k l : κ} (h : l ≠ k) :
    (t.erase k).get? l = t.get? l := by
  rw [get?_erase, if_neg (by simpa [Std.compare_eq_iff_eq] using h)]

omit [Std.TransOrd κ] in
@[simp] theorem get?_map (t : Table κ ρ) (f : κ → ρ → σ) (k : κ) :
    (t.map f).get? k = (t.get? k).map (f k) := by
  obtain ⟨es, hes⟩ := t
  simp only [get?, map]
  induction es with
  | nil => rfl
  | cons e es ih =>
    obtain ⟨m, w⟩ := e
    obtain ⟨-, hes⟩ := List.pairwise_cons.mp hes
    simp only [List.map_cons, find?, ih hes]
    split
    · next hk => simp [Std.LawfulEqCmp.eq_of_compare hk]
    · rfl

omit [Std.TransOrd κ] [Std.LawfulEqOrd κ] in
@[simp] theorem keys_map (t : Table κ ρ) (f : κ → ρ → σ) : (t.map f).keys = t.keys := by
  simp [keys, map]

omit [Std.TransOrd κ] [Std.LawfulEqOrd κ] in
theorem map_map {τ : Type} (t : Table κ ρ) (f : κ → ρ → σ) (g : κ → σ → τ) :
    (t.map f).map g = t.map fun k v => g k (f k v) := by
  simp [map, Function.comp_def]

theorem get?_update (t : Table κ ρ) (k l : κ) (f : ρ → ρ) :
    (t.update k f).get? l = if compare l k = .eq then (t.get? l).map f else t.get? l := by
  unfold update
  split
  · next v hv =>
    rw [get?_insert]
    split
    · next hl => rw [Std.LawfulEqCmp.eq_of_compare hl, hv]; rfl
    · rfl
  · next hv =>
    split
    · next hl => rw [Std.LawfulEqCmp.eq_of_compare hl, hv]; rfl
    · rfl

@[simp] theorem get?_update_self (t : Table κ ρ) (k : κ) (f : ρ → ρ) :
    (t.update k f).get? k = (t.get? k).map f := by
  simp [get?_update]

theorem update_of_get? {t : Table κ ρ} {k : κ} {v : ρ} (h : t.get? k = some v) (f : ρ → ρ) :
    t.update k f = t.insert k (f v) := by
  simp [update, h]

omit [Std.TransOrd κ] in
/-- The entries of a table are the keys with their values. -/
theorem mem_entries_iff {t : Table κ ρ} {k : κ} {v : ρ} :
    (k, v) ∈ t.entries ↔ t.get? k = some v := by
  obtain ⟨es, hes⟩ := t
  simp only [get?]
  induction es with
  | nil => simp [find?]
  | cons e es ih =>
    obtain ⟨m, w⟩ := e
    obtain ⟨hm, hes⟩ := List.pairwise_cons.mp hes
    have ih := ih hes
    simp only [List.mem_cons, Prod.mk.injEq, find?]
    split
    · next hk =>
      obtain rfl := Std.LawfulEqCmp.eq_of_compare hk
      have hnot : (k, v) ∉ es := fun h => by simpa using hm _ h
      simp [hnot, eq_comm]
    · next hk =>
      have : k ≠ m := fun h => hk (by simp [h])
      simp [this, ih]

omit [Std.TransOrd κ] in
theorem mem_keys_iff {t : Table κ ρ} {k : κ} : k ∈ t.keys ↔ ∃ v, t.get? k = some v := by
  simp [keys, ← mem_entries_iff]

omit [Std.TransOrd κ] in
theorem nodup_keys (t : Table κ ρ) : t.keys.Nodup := by
  rw [keys, List.Nodup, List.pairwise_map]
  refine t.increasing.imp fun {a b} hab heq => ?_
  rw [heq, Std.compare_self] at hab
  cases hab

/-- A table is determined by its values. -/
theorem ext_get? {s t : Table κ ρ} (h : ∀ k, s.get? k = t.get? k) : s = t := by
  have hmem (e : κ × ρ) : e ∈ s.entries ↔ e ∈ t.entries := by
    obtain ⟨k, v⟩ := e
    rw [mem_entries_iff, mem_entries_iff, h]
  obtain ⟨es, hes⟩ := s
  obtain ⟨fs, hfs⟩ := t
  simp only at hmem
  congr
  clear h
  induction es generalizing fs with
  | nil =>
    cases fs with
    | nil => rfl
    | cons f fs => simpa using hmem f
  | cons e es ih =>
    cases fs with
    | nil => simpa using hmem e
    | cons f fs =>
      obtain ⟨he, hes'⟩ := List.pairwise_cons.mp hes
      obtain ⟨hf, hfs'⟩ := List.pairwise_cons.mp hfs
      have hef : e = f := by
        rcases List.mem_cons.mp ((hmem e).mp (by simp)) with h | h
        · exact h
        · rcases List.mem_cons.mp ((hmem f).mpr (by simp)) with h' | h'
          · exact h'.symm
          · have := Std.TransCmp.lt_trans (hf e h) (he f h')
            simp at this
      subst hef
      have hrest : es = fs := by
        refine ih hes' fs hfs' fun x => ⟨fun hx => ?_, fun hx => ?_⟩
        · rcases List.mem_cons.mp ((hmem x).mp (by simp [hx])) with rfl | h
          · exact absurd (he x hx) (by simp)
          · exact h
        · rcases List.mem_cons.mp ((hmem x).mpr (by simp [hx])) with rfl | h
          · exact absurd (hf x hx) (by simp)
          · exact h
      rw [hrest]

/-- Leaving the value at a key as it is changes nothing. -/
theorem update_eq_self {t : Table κ ρ} {k : κ} {f : ρ → ρ} (h : ∀ v, f v = v) :
    t.update k f = t := by
  refine ext_get? fun l => ?_
  rw [get?_update]
  split
  · rw [funext h]
    exact Option.map_id'
  · rfl

/-- Two changes at one key are one. -/
theorem update_update (t : Table κ ρ) (k : κ) (f g : ρ → ρ) :
    (t.update k f).update k g = t.update k fun v => g (f v) := by
  refine ext_get? fun l => ?_
  simp only [get?_update]
  split
  · rw [Option.map_map]
    rfl
  · rfl

/-- Putting the value at a key that is there already. -/
theorem insert_eq_self {t : Table κ ρ} {k : κ} {v : ρ} (h : t.get? k = some v) :
    t.insert k v = t := by
  refine ext_get? fun l => ?_
  rw [get?_insert]
  split
  · next hl => rw [Std.LawfulEqCmp.eq_of_compare hl, h]
  · rfl

/-- Putting a value at a key twice. -/
theorem insert_insert (t : Table κ ρ) (k : κ) (v w : ρ) :
    (t.insert k v).insert k w = t.insert k w := by
  refine ext_get? fun l => ?_
  simp only [get?_insert]
  split <;> rfl

/-- Taking away a value that was put. -/
theorem erase_insert (t : Table κ ρ) (k : κ) (v : ρ) : (t.insert k v).erase k = t.erase k := by
  refine ext_get? fun l => ?_
  rw [get?_erase, get?_erase, get?_insert]
  split <;> rfl

/-- Putting a value in the place of one that was taken away. -/
theorem insert_erase (t : Table κ ρ) (k : κ) (v : ρ) : (t.erase k).insert k v = t.insert k v := by
  refine ext_get? fun l => ?_
  rw [get?_insert, get?_insert, get?_erase]
  split <;> rfl

/-- Taking away a key that is not there. -/
theorem erase_eq_self {t : Table κ ρ} {k : κ} (h : t.get? k = none) : t.erase k = t := by
  refine ext_get? fun l => ?_
  rw [get?_erase]
  split
  · next hl => rw [Std.LawfulEqCmp.eq_of_compare hl, h]
  · rfl

/-- Changing the value at a key changes every value, where the key is that one. -/
theorem update_eq_map (t : Table κ ρ) (k : κ) (f : ρ → ρ) :
    t.update k f = t.map fun l v => if compare l k = .eq then f v else v := by
  refine ext_get? fun l => ?_
  rw [get?_update, get?_map]
  split
  · rfl
  · rw [Option.map_id']

@[simp] theorem keys_update (t : Table κ ρ) (k : κ) (f : ρ → ρ) : (t.update k f).keys = t.keys := by
  rw [update_eq_map, keys_map]

omit [Std.LawfulEqOrd κ] in
/-- A value at a key above all others is put at the end. -/
theorem place_of_forall_lt {k : κ} {es : List (κ × ρ)}
    (h : ∀ e ∈ es, compare e.1 k = .lt) (v : ρ) : place k v es = es ++ [(k, v)] := by
  induction es with
  | nil => rfl
  | cons e es ih =>
    obtain ⟨l, w⟩ := e
    have hl : compare k l = .gt := Std.OrientedCmp.gt_iff_lt.mpr (h (l, w) (by simp))
    have hes := ih fun e' he' => h e' (by simp [he'])
    simp only [place, hl, hes, List.cons_append]

theorem keys_insert_of_forall_lt {t : Table κ ρ} {k : κ} (h : ∀ l ∈ t.keys, compare l k = .lt)
    (v : ρ) : (t.insert k v).keys = t.keys ++ [k] := by
  have hentries : ∀ e ∈ t.entries, compare e.1 k = .lt := fun e he =>
    h e.1 (List.mem_map.mpr ⟨e, he, rfl⟩)
  simp only [keys, insert, place_of_forall_lt hentries, List.map_append, List.map_cons,
    List.map_nil]

omit [Std.TransOrd κ] in
/-- The entries of a table are the one at a key and those without it, up to their order. -/
theorem entries_perm {t : Table κ ρ} {k : κ} {v : ρ} (h : t.get? k = some v) :
    t.entries.Perm ((k, v) :: (t.erase k).entries) := by
  obtain ⟨es, hes⟩ := t
  simp only [get?, erase] at h ⊢
  induction es with
  | nil => cases h
  | cons e es ih =>
    obtain ⟨m, w⟩ := e
    obtain ⟨hm, hes⟩ := List.pairwise_cons.mp hes
    rw [find?] at h
    by_cases hk : compare k m = .eq
    · obtain rfl := Std.LawfulEqCmp.eq_of_compare hk
      rw [if_pos hk, Option.some.injEq] at h
      have hrest : es.filter (fun e => compare k e.1 != .eq) = es :=
        List.filter_eq_self.mpr fun e he => by simp [hm e he]
      rw [List.filter_cons_of_neg (by simp), hrest, h]
    · rw [if_neg hk] at h
      rw [List.filter_cons_of_pos (by simpa using hk)]
      exact ((ih hes h).cons (m, w)).trans (.swap ..)

omit [Std.TransOrd κ] in
/-- Listing something for one key only. -/
theorem flatMap_entries {α : Type} {f : κ × ρ → List α} {k : κ}
    (hf : ∀ l v, l ≠ k → f (l, v) = []) (t : Table κ ρ) :
    t.entries.flatMap f = (t.get? k).toList.flatMap fun v => f (k, v) := by
  obtain ⟨es, hes⟩ := t
  simp only [get?]
  induction es with
  | nil => rfl
  | cons e es ih =>
    obtain ⟨m, w⟩ := e
    obtain ⟨hm, hes⟩ := List.pairwise_cons.mp hes
    rw [List.flatMap_cons, ih hes, find?]
    split
    · next hk =>
      obtain rfl := Std.LawfulEqCmp.eq_of_compare hk
      rw [find?_eq_none hm]
      simp
    · next hk =>
      rw [hf m w fun h => hk (by simp [h]), List.nil_append]

omit [Std.TransOrd κ] in
/-- Changing one key after the other, for every entry of a table, changes the value at a key by its
entry. -/
theorem get?_foldl_entries (change : κ → σ → Option ρ → Option ρ)
    {step : Table κ ρ → κ × σ → Table κ ρ}
    (hstep : ∀ t k v l, (step t (k, v)).get? l =
      if compare l k = .eq then change l v (t.get? l) else t.get? l)
    (s : Table κ σ) (t : Table κ ρ) (l : κ) :
    (s.entries.foldl step t).get? l = match s.get? l with
      | some v => change l v (t.get? l)
      | none => t.get? l := by
  obtain ⟨es, hes⟩ := s
  simp only [get?] at hstep ⊢
  induction es generalizing t with
  | nil => rfl
  | cons e es ih =>
    obtain ⟨k, v⟩ := e
    obtain ⟨hk, hes⟩ := List.pairwise_cons.mp hes
    rw [List.foldl_cons, ih _ hes, hstep, find?]
    by_cases hl : compare l k = .eq
    · obtain rfl := Std.LawfulEqCmp.eq_of_compare hl
      rw [find?_eq_none hk]
      simp
    · simp [hl]

end Table

end RunLedger
