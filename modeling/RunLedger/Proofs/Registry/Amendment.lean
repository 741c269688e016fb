import RunLedger.Proofs.Registry.VersionChange

/-!
# What every change of a model keeps

Calls change the record of a model in many ways, but some things they all keep. The numbers of the
versions stay, and a new one is above all others. A version keeps its status, it is deleted by no
call but the one that deletes it, and once deleted it never changes again but for the time of its
last change. An alias is bound only to a version that is there, and goes with it.

## Main definitions

* `VersionRecord.Evolves`: what every call keeps of a stored version.

## Main results

* `Versions.lt_nextNumber`: the next number is above all others.
* `Operation.keys_amend`, `Operation.keys_amend_createVersion`: the numbers of the versions.
* `Operation.exists_evolves_amend`: what becomes of a stored version.
* `Operation.isLive_amend`: what becomes of a version that is not deleted.
* `Operation.get?_aliases_amend`: where aliases come from.
-/

namespace RunLedger

/-! ### Numbers -/

namespace Versions

variable {m : ModelRecord}

/-- The numbers of versions increase. -/
theorem pairwise_keys (m : ModelRecord) : m.versions.keys.Pairwise (· < ·) := by
  have h := m.versions.increasing
  rw [Table.keys, List.pairwise_map]
  exact h.imp fun hab => Std.compare_eq_lt.mp hab

/-- The next number is above all others. -/
theorem lt_nextNumber {k : Int} (hk : k ∈ m.versions.keys) : k < nextNumber m := by
  rw [nextNumber]
  cases hlast : m.versions.keys.getLast? with
  | none =>
    rw [List.getLast?_eq_none_iff] at hlast
    simp [hlast] at hk
  | some n =>
    obtain ⟨before, hsplit⟩ := List.getLast?_eq_some_iff.mp hlast
    have hpairwise := pairwise_keys m
    rw [hsplit] at hk hpairwise
    have hbefore := (List.pairwise_append.mp hpairwise).2.2
    have hle : k ≤ n := by
      rcases List.mem_append.mp hk with hk | hk
      · exact Int.le_of_lt (hbefore k hk n (by simp))
      · exact Int.le_of_eq (List.mem_singleton.mp hk)
    change k < n + 1
    omega

end Versions

/-! ### Stored versions -/

/-- What every call keeps of a stored version: its status, and all of it but the time of its last
change if it is deleted. -/
structure VersionRecord.Evolves (v v' : VersionRecord) : Prop where
  status : v'.status = v.status
  deleted : v.stage.isDeleted = true → v' = { v with lastUpdatedTime := v'.lastUpdatedTime }

namespace VersionRecord.Evolves

variable {v v' : VersionRecord}

theorem refl (v : VersionRecord) : v.Evolves v where
  status := rfl
  deleted _ := rfl

theorem of_not_isDeleted (hlive : v.stage.isDeleted = false) (hstatus : v'.status = v.status) :
    v.Evolves v' where
  status := hstatus
  deleted h := by simp [hlive] at h

theorem isReadable (h : v.Evolves v') (hread : v.IsReadable) : v'.IsReadable := by
  obtain ⟨status, hstatus⟩ := hread
  exact ⟨status, by rw [h.status, hstatus]⟩

end VersionRecord.Evolves

namespace ModelRecord

variable {m : ModelRecord} {k version : Int} {v : VersionRecord}

theorem IsLive.not_isDeleted (h : m.IsLive k) (hv : m.versions.get? k = some v) :
    v.stage.isDeleted = false := by
  obtain ⟨u, hu, hlive⟩ := h
  obtain rfl := Option.some.inj (hv.symm.trans hu)
  exact hlive

/-- Changing one version that is not deleted. -/
theorem exists_evolves_update (hlive : m.IsLive version) {f : VersionRecord → VersionRecord}
    (hf : ∀ u, (f u).status = u.status) {stays : Prop}
    (hstays : stays → k = version → ∀ u, u.stage.isDeleted = false → (f u).stage.isDeleted = false)
    (hv : m.versions.get? k = some v) :
    ∃ v', (m.versions.update version f).get? k = some v' ∧ v.Evolves v' ∧
      (stays → v.stage.isDeleted = false → v'.stage.isDeleted = false) := by
  by_cases hk : k = version
  · subst hk
    exact ⟨f v, by simp [hv], .of_not_isDeleted (hlive.not_isDeleted hv) (hf v),
      fun h => hstays h rfl v⟩
  · have hne : ¬ compare k version = .eq := fun h => hk (Std.compare_eq_iff_eq.mp h)
    exact ⟨v, by rw [Table.get?_update, if_neg hne, hv], .refl v, fun _ h => h⟩

/-- Moving a version to a stage that is not that of deleted ones. -/
theorem evolves_moved (hlive : m.IsLive version) {stage : VersionStage}
    (hstage : stage.isDeleted = false) (now : Int) (archiveExisting : Bool)
    (hv : m.versions.get? k = some v) :
    v.Evolves (VersionRecord.moved now version stage archiveExisting k v) := by
  rw [VersionRecord.moved]
  split_ifs with hk hothers
  · obtain rfl : k = version := by simpa using hk
    exact .of_not_isDeleted (hlive.not_isDeleted hv) rfl
  · obtain rfl : v.stage = stage := by simp_all
    exact .of_not_isDeleted hstage rfl
  · exact .refl v

end ModelRecord

theorem VersionRecord.not_isDeleted_moved {v : VersionRecord} {stage : VersionStage}
    (hstage : stage.isDeleted = false) (hv : v.stage.isDeleted = false) (now version : Int)
    (archiveExisting : Bool) (k : Int) :
    (moved now version stage archiveExisting k v).stage.isDeleted = false := by
  rw [moved]
  split_ifs
  · exact hstage
  · rfl
  · exact hv

namespace Operation

variable {operation : Operation} {m : ModelRecord} {now k : Int} {v : VersionRecord}

theorem keys_amend_createVersion (now : Int) (name : String) (new : NewVersion)
    (m : ModelRecord) :
    ((createVersion name new).amend now m).versions.keys =
      m.versions.keys ++ [Versions.nextNumber m] :=
  Table.keys_insert_of_forall_lt
    (fun _ hk => Std.compare_eq_lt.mpr (Versions.lt_nextNumber hk)) _

/-- Only creating a version changes which numbers there are. -/
theorem keys_amend (h : ∀ name new, operation ≠ createVersion name new) (now : Int)
    (m : ModelRecord) : (operation.amend now m).versions.keys = m.versions.keys := by
  cases operation with
  | createVersion name new => exact absurd rfl (h name new)
  | renameModel | transition => exact Table.keys_map _ _
  | updateVersion | deleteVersion | setVersionTag | deleteVersionTag => exact Table.keys_update _ _ _
  | _ => rfl

/-- **What becomes of a stored version**: it keeps its number, its status and, if it is deleted, all
but the time of its last change. Only the call that deletes it makes it a deleted one. -/
theorem exists_evolves_amend (haccepts : operation.Accepts m) (now : Int)
    (hv : m.versions.get? k = some v) :
    ∃ v', (operation.amend now m).versions.get? k = some v' ∧ v.Evolves v' ∧
      ((∀ name, operation ≠ deleteVersion name k) → v.stage.isDeleted = false →
        v'.stage.isDeleted = false) := by
  cases operation with
  | renameModel name newName =>
    exact ⟨{ v with lastUpdatedTime := now }, by simp [amend, hv], ⟨rfl, fun _ => rfl⟩,
      fun _ h => h⟩
  | createVersion name new =>
    have hk : k ≠ Versions.nextNumber m :=
      Int.ne_of_lt (Versions.lt_nextNumber (Table.mem_keys_iff.mpr ⟨v, hv⟩))
    exact ⟨v, (Table.get?_insert_of_ne _ hk _).trans hv, .refl v, fun _ h => h⟩
  | transition name version stage archiveExisting =>
    obtain ⟨hcheck, hlive⟩ := haccepts
    have hstage := Versions.not_isDeleted_of_checkTransition hcheck
    exact ⟨_, by rw [amend, Table.get?_map]; exact congrArg (Option.map _) hv,
      ModelRecord.evolves_moved hlive hstage now archiveExisting hv,
      fun _ h => VersionRecord.not_isDeleted_moved hstage h now version archiveExisting k⟩
  | deleteVersion name version =>
    refine ModelRecord.exists_evolves_update haccepts ?_ ?_ hv
    · exact fun _ => rfl
    · intro hop hk
      exact absurd (by rw [hk]) (hop name)
  | updateVersion | setVersionTag | deleteVersionTag =>
    refine ModelRecord.exists_evolves_update haccepts ?_ ?_ hv
    · exact fun _ => rfl
    · exact fun _ _ _ h => h
  | _ => exact ⟨v, hv, .refl v, fun _ h => h⟩

/-- **A version that is not deleted stays so**, unless a call deletes it. -/
theorem isLive_amend (haccepts : operation.Accepts m) (hlive : m.IsLive k)
    (hop : ∀ name, operation ≠ deleteVersion name k) : (operation.amend now m).IsLive k := by
  obtain ⟨v, hv, hstage⟩ := hlive
  obtain ⟨v', hv', -, hstays⟩ := exists_evolves_amend haccepts now hv
  exact ⟨v', hv', hstays hop hstage⟩

/-- A stored version was stored before, or is the one that the call creates. -/
theorem of_get?_versions_amend (haccepts : operation.Accepts m)
    (hv : (operation.amend now m).versions.get? k = some v) :
    (∃ u, m.versions.get? k = some u ∧ u.Evolves v) ∨
      ∃ name new, operation = createVersion name new ∧ v = .ofNew now new := by
  cases hu : m.versions.get? k with
  | some u =>
    obtain ⟨v', hv', hevolves, -⟩ := exists_evolves_amend haccepts now hu
    obtain rfl := Option.some.inj (hv.symm.trans hv')
    exact .inl ⟨u, rfl, hevolves⟩
  | none =>
    by_cases hop : ∃ name new, operation = createVersion name new
    · obtain ⟨name, new, rfl⟩ := hop
      have hkeys : k ∈ m.versions.keys ++ [Versions.nextNumber m] := by
        rw [← keys_amend_createVersion now name new]
        exact Table.mem_keys_iff.mpr ⟨v, hv⟩
      rcases List.mem_append.mp hkeys with hk | hk
      · obtain ⟨u, hu'⟩ := Table.mem_keys_iff.mp hk
        simp [hu] at hu'
      · obtain rfl := List.mem_singleton.mp hk
        have hself : ((createVersion name new).amend now m).versions.get? (Versions.nextNumber m) =
            some (.ofNew now new) := Table.get?_insert_self _ _ _
        exact .inr ⟨name, new, rfl, Option.some.inj (hv.symm.trans hself)⟩
    · push Not at hop
      have hk : k ∈ m.versions.keys := by
        rw [← keys_amend hop now]
        exact Table.mem_keys_iff.mpr ⟨v, hv⟩
      obtain ⟨u, hu'⟩ := Table.mem_keys_iff.mp hk
      simp [hu] at hu'

/-! ### Aliases -/

/-- **Where aliases come from**: an alias was bound to the version before and the call does not
delete that version, or it is bound to it by the call. -/
theorem of_get?_aliases_amend {aliasName : String}
    (h : (operation.amend now m).aliases.get? aliasName = some k) :
    (m.aliases.get? aliasName = some k ∧ ∀ name, operation ≠ deleteVersion name k) ∨
      ∃ name, operation = setAlias name aliasName k := by
  cases operation with
  | setAlias name bound version =>
    rw [amend, Table.get?_insert] at h
    split at h
    · next heq =>
      obtain rfl := Std.compare_eq_iff_eq.mp heq
      obtain rfl := Option.some.inj h
      exact .inr ⟨name, rfl⟩
    · exact .inl ⟨h, by simp⟩
  | deleteAlias name bound =>
    rw [amend, Table.get?_erase] at h
    split at h
    · cases h
    · exact .inl ⟨h, by simp⟩
  | deleteVersion name version =>
    rw [amend, Table.get?_filter, Option.filter_eq_some_iff] at h
    obtain ⟨hbound, hne⟩ := h
    refine .inl ⟨hbound, ?_⟩
    rintro other ⟨⟩
    simp at hne
  | _ => exact .inl ⟨h, by simp⟩

end Operation

end RunLedger
