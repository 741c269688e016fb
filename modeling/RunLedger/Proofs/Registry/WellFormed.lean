import RunLedger.Proofs.Registry.Lineage

/-!
# Well-formed models

The numbers of the versions of a model are those from one up to some number, soft-deleted versions
included, since no call removes one and each new one is the next. Every version that is not deleted
can be read. Aliases are bound to versions that are there, and their names keep the rules. All this
holds of every model in every database that calls lead to.

## Main definitions

* `ModelRecord.WellFormed`: the numbers, statuses and aliases of a model are as described.

## Main results

* `Versions.nextNumber_eq`: the next number is one past the highest.
* `ModelRecord.WellFormed.amend`: calls on a model keep it well-formed.
* `Reachable.wellFormed`: every model in a reachable database is well-formed.
* `ModelRecord.WellFormed.exists_yields_getModel`, `ModelRecord.WellFormed.exists_loadVersion`:
  well-formed models and their versions can be read.
-/

namespace RunLedger

open Registry

/-- The numbers of the versions are those from one up, every version can be read, and every alias
keeps the rules and is bound to a version that is not deleted. -/
structure ModelRecord.WellFormed (m : ModelRecord) : Prop where
  numbered : ∃ n : ℕ, ∀ k, k ∈ m.versions.keys ↔ 1 ≤ k ∧ k ≤ n
  readable : ∀ k v, m.versions.get? k = some v → v.IsReadable
  aliases : ∀ aliasName k, m.aliases.get? aliasName = some k →
    Rules.aliasName aliasName = .ok () ∧ m.IsLive k

/-- The next number is one past the highest. -/
theorem Versions.nextNumber_eq {m : ModelRecord} {n : ℕ}
    (h : ∀ k, k ∈ m.versions.keys ↔ 1 ≤ k ∧ k ≤ n) : nextNumber m = n + 1 := by
  have habove (hn : 1 ≤ n) : (n : Int) < nextNumber m :=
    lt_nextNumber ((h n).mpr ⟨by omega, le_rfl⟩)
  rw [nextNumber] at habove ⊢
  cases hlast : m.versions.keys.getLast? with
  | none =>
    have hempty : (1 : Int) ∉ m.versions.keys := by
      rw [List.getLast?_eq_none_iff.mp hlast]
      exact List.not_mem_nil
    have : ¬ (1 ≤ (1 : Int) ∧ (1 : Int) ≤ n) := fun h' => hempty ((h 1).mpr h')
    change (1 : Int) = n + 1
    omega
  | some l =>
    obtain ⟨hl, hle⟩ := (h l).mp (List.mem_of_getLast? hlast)
    simp only [hlast] at habove
    have := habove (by omega)
    change l + 1 = (n : Int) + 1
    omega

namespace ModelRecord.WellFormed

variable {m : ModelRecord}

theorem ofNew (now : Int) (description : Option String) (tags : List Tag) :
    (ModelRecord.ofNew now description tags).WellFormed where
  numbered := ⟨0, fun k => iff_of_false List.not_mem_nil (by omega)⟩
  readable _ _ h := nomatch h
  aliases _ _ h := nomatch h

/-- **Calls on a model keep it well-formed.** -/
theorem amend (h : m.WellFormed) {operation : Operation} (haccepts : operation.Accepts m)
    (now : Int) : (operation.amend now m).WellFormed where
  numbered := by
    obtain ⟨n, hn⟩ := h.numbered
    by_cases hop : ∃ name new, operation = .createVersion name new
    · obtain ⟨name, new, rfl⟩ := hop
      refine ⟨n + 1, fun k => ?_⟩
      rw [Operation.keys_amend_createVersion, List.mem_append, List.mem_singleton, hn,
        Versions.nextNumber_eq hn]
      push_cast
      omega
    · push Not at hop
      exact ⟨n, fun k => by rw [Operation.keys_amend hop, hn]⟩
  readable k v hv := by
    rcases Operation.of_get?_versions_amend haccepts hv with ⟨u, hu, hevolves⟩ | ⟨_, new, -, rfl⟩
    · exact hevolves.isReadable (h.readable k u hu)
    · exact ⟨.ready, rfl⟩
  aliases aliasName k hbound := by
    rcases Operation.of_get?_aliases_amend hbound with ⟨hbefore, hop⟩ | ⟨name, rfl⟩
    · obtain ⟨hrule, hlive⟩ := h.aliases aliasName k hbefore
      exact ⟨hrule, Operation.isLive_amend haccepts hlive hop⟩
    · exact ⟨haccepts.1, Operation.isLive_amend haccepts haccepts.2 nofun⟩

end ModelRecord.WellFormed

/-- Every registered model is well-formed. -/
def Database.ModelsWellFormed (db : Database) : Prop :=
  ∀ name m, db.models.get? name = some m → m.WellFormed

/-- **Every model in a reachable database is well-formed.** -/
theorem Reachable.wellFormed {db : Database} (h : Reachable db) {name : String} {m : ModelRecord}
    (hm : db.models.get? name = some m) : m.WellFormed :=
  h.models_invariant .ofNew (fun _ now _ haccepts hwell => hwell.amend haccepts now) name m hm

/-! ### Reading well-formed models -/

namespace ModelRecord.WellFormed

variable {call : Call} {db : Database} {name : String} {k : Int} {m : ModelRecord}

/-- A well-formed model can be read, with the aliases that it stores. -/
theorem exists_yields_getModel (h : m.WellFormed) (hm : db.models.get? name = some m)
    (hcall : call.Unhindered) :
    ∃ model, (Operation.getModel name).run.Yields call db (.model model) db ∧
      (loadLatest name m).run db = .ok model.latestVersions ∧ model.aliases = m.aliasBindings := by
  obtain ⟨model, hmodel⟩ := exists_loadModel hm h.readable
  have hyields := Operation.yields_getModel.mpr ⟨hcall.entry, hcall.hidden .models, hmodel, rfl⟩
  obtain ⟨u, versions, hu, hversions, rfl⟩ := loadModel_eq_ok_iff.mp hmodel
  obtain rfl := Option.some.inj (hm.symm.trans hu)
  exact ⟨_, hyields, hversions, rfl⟩

/-- A version of a well-formed model that is not deleted can be read. -/
theorem exists_loadVersion (h : m.WellFormed) (hm : db.models.get? name = some m)
    (hlive : m.IsLive k) :
    ∃ v, (loadVersion name k).run db = .ok v ∧ v.aliases = m.aliasesOf k := by
  obtain ⟨record, hrecord, hstage⟩ := hlive
  exact Registry.exists_loadVersion hm hrecord hstage (h.readable k record hrecord)

end ModelRecord.WellFormed

end RunLedger
