import Mathlib.Data.Set.Basic
import RunLedger.Proofs.Registry.Lineage
import RunLedger.Proofs.Registry.WellFormed

/-!
# Numbers of versions

The next number of a model is one past the highest stored one. It is computed anew for each version,
so it rests on the stored versions alone: no call drops one, gives one another number, or merges the
versions of two models. A deleted version stays stored under its number, a rename carries the
numbers along, and only the deletion of the model discards them. So the numbers of a model are those
from one up to how many versions it ever had, and none of them is given out twice.

## Main definitions

* `numbersTo`: the numbers from one up to some number.
* `Database.versionNumbers`: the numbers of the stored versions of each registered model.
* `Operation.Renumbers`: what a successful call makes of them.

## Main results

* `Operation.renumbers`: every successful call does so.
* `version_numbers_run_from_one_and_are_not_reused`: the numbers of a model, over its life.
-/

namespace RunLedger

open Work

/-- The numbers from one up to `n`. -/
def numbersTo (n : ℕ) : Set Int := {k | 1 ≤ k ∧ k ≤ n}

/-- The numbers of the stored versions of each registered model, soft-deleted ones included. -/
def Database.versionNumbers (db : Database) (name : String) : Option (Set Int) :=
  (db.models.get? name).map fun m => {k | k ∈ m.versions.keys}

/-- What a successful call makes of the numbers of the versions of each model: a new model has none,
a new version gets the next number, which has at most 64 bits, and is answered with it, a rename
carries the numbers along, and the deletion of a model discards them. -/
def Operation.Renumbers (answer : Answer) (before after : String → Option (Set Int)) :
    Operation → Prop
  | createModel name _ _ => before name = none ∧ after = Function.update before name (some ∅)
  | createVersion name _ =>
    ∃ (n : ℕ) (v : ModelVersion), answer = .version v ∧ v.version = n + 1 ∧
      n < 9223372036854775807 ∧ before name = some (numbersTo n) ∧
      after = Function.update before name (some (numbersTo (n + 1)))
  | renameModel name newName =>
    ∃ numbers, before name = some numbers ∧ (newName = name ∨ before newName = none) ∧
      after = Function.update (Function.update before name none) newName (some numbers)
  | deleteModel name =>
    before name ≠ none ∧ after = Function.update before name none
  | _ => after = before

namespace Database

variable {db : Database} {name : String} {m : ModelRecord}

theorem versionNumbers_of_get? (hm : db.models.get? name = some m) :
    db.versionNumbers name = some {k | k ∈ m.versions.keys} := by
  rw [versionNumbers, hm, Option.map_some]

theorem versionNumbers_eq_none_iff : db.versionNumbers name = none ↔ db.models.get? name = none :=
  Option.map_eq_none_iff

theorem versionNumbers_withModel (db : Database) (name : String) (m : ModelRecord) :
    (db.withModel name m).versionNumbers =
      Function.update db.versionNumbers name (some {k | k ∈ m.versions.keys}) :=
  map_get?_withModel _ db name m

theorem versionNumbers_withoutModel (db : Database) (name : String) :
    (db.withoutModel name).versionNumbers = Function.update db.versionNumbers name none :=
  map_get?_withoutModel _ db name

end Database

theorem ModelRecord.WellFormed.exists_numbers_eq {m : ModelRecord} (h : m.WellFormed) :
    ∃ n : ℕ, Versions.nextNumber m = n + 1 ∧ {k | k ∈ m.versions.keys} = numbersTo n := by
  obtain ⟨n, hn⟩ := h.numbered
  exact ⟨n, Versions.nextNumber_eq hn, Set.ext hn⟩

namespace Operation

variable {operation : Operation} {call : Call} {db db' : Database} {answer : Answer}

/-- A new version takes the number after the last. -/
theorem renumbers_createVersion (hdb : db.ModelsWellFormed) {name : String} {new : NewVersion}
    (h : (createVersion name new).run.Yields call db answer db') :
    (createVersion name new).Renumbers answer db.versionNumbers db'.versionNumbers := by
  obtain ⟨v, hcall, hanswer⟩ := (yields_map _ _).mp h
  obtain ⟨m, hm, haccepts, hversion, rfl⟩ := Versions.create_inversion hcall
  obtain ⟨n, hnext, hnumbers⟩ := (hdb name m hm).exists_numbers_eq
  have hbound : n < 9223372036854775807 := by
    rw [Accepts, hnext, inInt64] at haccepts
    simp at haccepts
    omega
  refine ⟨n, v, hanswer, hversion.trans hnext, hbound, ?_, ?_⟩
  · rw [Database.versionNumbers_of_get? hm, hnumbers]
  · rw [Database.versionNumbers_withModel, keys_amend_createVersion, hnext]
    congr 2
    ext k
    have hk : k ∈ m.versions.keys ↔ 1 ≤ k ∧ k ≤ n := Set.ext_iff.mp hnumbers k
    simp only [numbersTo, Set.mem_ofPred_eq, List.mem_append, List.mem_singleton, hk]
    omega

/-- **What a successful call makes of the numbers of versions.** -/
theorem renumbers (hdb : db.ModelsWellFormed) (h : operation.run.Yields call db answer db') :
    operation.Renumbers answer db.versionNumbers db'.versionNumbers := by
  cases registryEffect h with
  | created hnew =>
    refine ⟨Database.versionNumbers_eq_none_iff.mpr hnew, ?_⟩
    rw [Database.versionNumbers_withModel]
    congr 2
    exact Set.eq_empty_of_forall_notMem fun _ => List.not_mem_nil
  | @amended _ name _ m htarget hm haccepts =>
    by_cases hop : ∃ name new, operation = createVersion name new
    · obtain ⟨name, new, rfl⟩ := hop
      exact renumbers_createVersion hdb h
    · push Not at hop
      have hsame : (db.withModel name (operation.amend call.now m)).versionNumbers =
          db.versionNumbers := by
        rw [Database.versionNumbers_withModel, keys_amend hop,
          ← Database.versionNumbers_of_get? hm, Function.update_eq_self]
      cases operation with
      | createVersion name new => exact absurd rfl (hop name new)
      | createModel | renameModel | deleteModel => cases htarget
      | _ => exact hsame
  | @renamed name newName _ m hm hfree =>
    have hkeys : ((renameModel name newName).amend call.now m).versions.keys = m.versions.keys :=
      keys_amend (by simp) call.now m
    refine ⟨_, Database.versionNumbers_of_get? hm,
      hfree.imp_right Database.versionNumbers_eq_none_iff.mpr, ?_⟩
    rw [Database.versionNumbers_withModel, Database.versionNumbers_withoutModel, hkeys]
  | deleted hm =>
    refine ⟨?_, Database.versionNumbers_withoutModel _ _⟩
    rw [Database.versionNumbers_of_get? hm]
    exact Option.some_ne_none _
  | none hop hmodels =>
    have hsame : db'.versionNumbers = db.versionNumbers := by
      funext name
      rw [Database.versionNumbers, Database.versionNumbers, hmodels]
    cases operation with
    | createModel | createVersion | renameModel | deleteModel => simp [area, isRead] at hop
    | _ => exact hsame

/-- A number that is taken stays taken for the life of the model, so the next number of the model is
higher. -/
theorem lt_version_of_follow? {steps : List (Call × Operation)} {name name' : String}
    {m : ModelRecord} (hm : db.models.get? name = some m) {k : Int} (hk : k ∈ m.versions.keys)
    (hname : follow? steps db name = some name') {new : NewVersion} {v : ModelVersion}
    (h : (createVersion name' new).run.Yields call (performAll steps db).2 (.version v) db') :
    k < v.version := by
  have hkeeps (operation : Operation) (now : Int) (m : ModelRecord) (haccepts : operation.Accepts m)
      (hk : k ∈ m.versions.keys) : k ∈ (operation.amend now m).versions.keys := by
    obtain ⟨u, hu⟩ := Table.mem_keys_iff.mp hk
    obtain ⟨u', hu', -⟩ := exists_evolves_amend haccepts now hu
    exact Table.mem_keys_iff.mpr ⟨u', hu'⟩
  obtain ⟨m', hm', hk'⟩ := follow?_invariant hkeeps steps hm hk hname
  obtain ⟨w, hcall, hanswer⟩ := (yields_map _ _).mp h
  obtain rfl : v = w := Answer.version.inj hanswer
  obtain ⟨m'', hm'', -, hversion, -⟩ := Versions.create_inversion hcall
  obtain rfl := Option.some.inj (hm'.symm.trans hm'')
  rw [hversion]
  exact Versions.lt_nextNumber hk'

end Operation

/-- **The numbers of the versions of a model run from one up, and none is given out twice.** In
every database that calls lead to, the numbers of the stored versions of a model are those from one
up to some `n`. A call that fails changes no numbers; one that succeeds creates a version under the
number `n + 1` and answers with it, carries the numbers to another name, discards those of a model
that it deletes, or leaves them as they are. Creating a version succeeds while there are numbers, if
nothing disturbs the call. As long as a model is not deleted, whatever calls are made and whatever
names it is given, a later version has a higher number. -/
theorem version_numbers_run_from_one_and_are_not_reused {db : Database} (hdb : Reachable db) :
    (∀ name numbers, db.versionNumbers name = some numbers →
      ∃ n : ℕ, numbers = numbersTo n) ∧
    (∀ (operation : Operation) call e db', operation.run.perform call db = (.error e, db') →
      db'.versionNumbers = db.versionNumbers) ∧
    (∀ (operation : Operation) call answer db', operation.run.Yields call db answer db' →
      operation.Renumbers answer db.versionNumbers db'.versionNumbers) ∧
    (∀ name (n : ℕ) (new : NewVersion) (call : Call),
      db.versionNumbers name = some (numbersTo n) → n < 9223372036854775807 →
      Models.checkTagKeys new.tags = .ok () → call.Undisturbed →
      ∃ v db', (Operation.createVersion name new).run.Yields call db (.version v) db') ∧
    ∀ name new call v db₁, (Operation.createVersion name new).run.Yields call db (.version v) db₁ →
      ∀ steps name', Operation.follow? steps db₁ name = some name' →
      ∀ new' call' v' db₂, (Operation.createVersion name' new').run.Yields call'
        (Operation.performAll steps db₁).2 (.version v') db₂ → v.version < v'.version := by
  have hwell : db.ModelsWellFormed := fun name m hm => hdb.wellFormed hm
  refine ⟨?_, ?_, fun operation call answer db' => Operation.renumbers hwell, ?_, ?_⟩
  · intro name numbers hnumbers
    obtain ⟨m, hm, rfl⟩ := Option.map_eq_some_iff.mp hnumbers
    obtain ⟨n, -, hn⟩ := (hwell name m hm).exists_numbers_eq
    exact ⟨n, hn⟩
  · intro operation call e db' h
    rw [Operation.eq_of_perform_error h]
  · intro name n new call hnumbers hn htags hcall
    obtain ⟨m, hm, hkeys⟩ := Option.map_eq_some_iff.mp hnumbers
    have hnext : Versions.nextNumber m = n + 1 := Versions.nextNumber_eq (Set.ext_iff.mp hkeys)
    have hfits : inInt64 (Versions.nextNumber m) = true := by
      rw [hnext, inInt64]
      simp
      omega
    obtain ⟨v, -, hleads⟩ := Versions.leads_create call hm htags hfits
    exact ⟨v, _, (yields_map _ _).mpr ⟨v, hleads.2 hcall, rfl⟩⟩
  · intro name new call v db₁ h steps name' hname new' call' v' db₂ h'
    obtain ⟨w, hcall, hanswer⟩ := (yields_map _ _).mp h
    obtain rfl : v = w := Answer.version.inj hanswer
    obtain ⟨m, hm, -, hversion, rfl⟩ := Versions.create_inversion hcall
    refine Operation.lt_version_of_follow? (Database.get?_withModel_self _ _ _) ?_ hname h'
    rw [Operation.keys_amend_createVersion, hversion]
    exact List.mem_append_right _ List.mem_cons_self

/-- The second version of a model is deleted and the model renamed. -/
private def deletedAndRenamed : List (Call × Operation) :=
  [(.plain, .deleteVersion "m" 2), (.plain, .renameModel "m" "n")]

/-- The number of a deleted version is not given out again under another name of the model. -/
theorem number_of_deleted_version_is_not_reused :
    Reachable .oneVersion ∧ ∃ v db₁ v' db₂,
      (Operation.createVersion "m" (.ofTags [])).run.Yields .plain .oneVersion (.version v) db₁ ∧
      v.version = 2 ∧ Operation.follow? deletedAndRenamed db₁ "m" = some "n" ∧
      (Operation.createVersion "n" (.ofTags [])).run.Yields .plain
        (Operation.performAll deletedAndRenamed db₁).2 (.version v') db₂ ∧
      v.version < v'.version := by
  let created := (Operation.createVersion "m" (.ofTags [])).run.perform .plain .oneVersion
  have hcreated : created.1 = .ok (.version (.ofTags "m" 2 [])) := by decide +kernel
  have hname : Operation.follow? deletedAndRenamed created.2 "m" = some "n" := by decide +kernel
  have hnext : ((Operation.createVersion "n" (.ofTags [])).run.perform .plain
      (Operation.performAll deletedAndRenamed created.2).2).1 =
      .ok (.version (.ofTags "n" 3 [])) := by decide +kernel
  obtain ⟨-, -, -, -, hlater⟩ :=
    version_numbers_run_from_one_and_are_not_reused Database.reachable_oneVersion
  exact ⟨Database.reachable_oneVersion, _, _, _, _, Prod.ext hcreated rfl, rfl, hname,
    Prod.ext hnext rfl, hlater "m" _ _ _ _ (Prod.ext hcreated rfl) deletedAndRenamed "n" hname _ _ _ _
      (Prod.ext hnext rfl)⟩

end RunLedger
