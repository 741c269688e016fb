import Mathlib.Data.Set.Finite.Lattice
import RunLedger.Proofs.Registry.Lineage

/-!
# Times of versions

A version notes the clock when it is created, when it is updated, moved or deleted, when it is
archived to make room for another one, and when its model is renamed. Unlike a model it notes the
reading as it is. So the times of versions are in order as long as the clock is not set back between
calls, and if it is, the time of a last change goes back with it, even to before the creation of the
version.

## Main definitions

* `Database.storedVersion?`: the record of a stored version.
* `Operation.dates`: the calls that note the time in a version.
* `InClockOrder`: calls between which the clock is not set back.
* `ModelRecord.DatedBy`: the times of all versions are in order, and not after some time.

## Main results

* `Operation.exists_dated_amend`, `Operation.of_get?_versions_amend_dated`: the times of a version,
  in the record of a model that a call changes.
* `Operation.exists_storedVersion?`: the times of a version after a call.
* `Operation.datedBy_performAll`: the times of all versions after calls in the order of the clock.
* `version_times_follow_the_clock`: the times of versions, in one call and over many.
* `not_version_times_move_forward`: they go back with the clock.
-/

namespace RunLedger

open Work

/-- The record of a version that is stored, deleted or not. -/
def Database.storedVersion? (db : Database) (name : String) (k : Int) : Option VersionRecord :=
  (db.models.get? name).bind fun m => m.versions.get? k

theorem Database.storedVersion?_eq_some_iff {db : Database} {name : String} {k : Int}
    {v : VersionRecord} :
    db.storedVersion? name k = some v ↔
      ∃ m, db.models.get? name = some m ∧ m.versions.get? k = some v :=
  Option.bind_eq_some_iff

/-- Whether a successful call notes the time in the version `k`, with the record `v`, of the model
that it is made on. -/
def Operation.dates (k : Int) (v : VersionRecord) : Operation → Bool
  | updateVersion _ version _ | deleteVersion _ version => k == version
  | transition _ version stage archiveExisting =>
    k == version || archiveExisting && v.stage == stage
  | renameModel _ _ => true
  | _ => false

/-- Between the calls the clock is not set back. -/
def InClockOrder (steps : List (Call × Operation)) : Prop :=
  steps.Pairwise fun step later => step.1.now ≤ later.1.now

/-! ### The record of a model -/

namespace ModelRecord

variable {m : ModelRecord} {k : Int} {v : VersionRecord}

/-- Changing one version. -/
theorem exists_dated_update (hv : m.versions.get? k = some v) (version : Int)
    {f : VersionRecord → VersionRecord} (hf : (f v).creationTime = v.creationTime) :
    ∃ v', (m.versions.update version f).get? k = some v' ∧ v'.creationTime = v.creationTime ∧
      v'.lastUpdatedTime =
        if k == version then (f v).lastUpdatedTime else v.lastUpdatedTime := by
  rw [Table.get?_update, hv]
  by_cases hk : k = version
  · subst hk
    exact ⟨f v, by simp, hf, by simp⟩
  · exact ⟨v, by simp [hk], rfl, by simp [hk]⟩

end ModelRecord

namespace Operation

variable {operation : Operation} {m : ModelRecord} {now k : Int} {v : VersionRecord}

/-- **The times of a version that stays**: the time of its last change is that of the call, if the
call notes it in the version. -/
theorem exists_dated_amend (haccepts : operation.Accepts m) (now : Int)
    (hv : m.versions.get? k = some v) :
    ∃ v', (operation.amend now m).versions.get? k = some v' ∧ v'.creationTime = v.creationTime ∧
      v'.lastUpdatedTime = if operation.dates k v then now else v.lastUpdatedTime := by
  cases operation with
  | renameModel name newName =>
    exact ⟨{ v with lastUpdatedTime := now }, by simp [amend, hv], rfl, rfl⟩
  | createVersion name new =>
    have hk : k ≠ Versions.nextNumber m :=
      Int.ne_of_lt (Versions.lt_nextNumber (Table.mem_keys_iff.mpr ⟨v, hv⟩))
    exact ⟨v, (Table.get?_insert_of_ne _ hk _).trans hv, rfl, rfl⟩
  | transition name version stage archiveExisting =>
    refine ⟨VersionRecord.moved now version stage archiveExisting k v, ?_, ?_, ?_⟩
    · rw [amend, Table.get?_map, hv, Option.map_some]
    · rw [VersionRecord.moved]
      split_ifs <;> rfl
    · simp only [VersionRecord.moved, dates, Bool.or_eq_true]
      split_ifs <;> simp_all
  | updateVersion name version description => exact ModelRecord.exists_dated_update hv version rfl
  | deleteVersion name version => exact ModelRecord.exists_dated_update hv version rfl
  | setVersionTag name version key value =>
    simpa [amend, dates] using ModelRecord.exists_dated_update hv version
      (f := fun v => { v with tags := v.tags.insert key (some value) }) rfl
  | deleteVersionTag name version key =>
    simpa [amend, dates] using ModelRecord.exists_dated_update hv version
      (f := fun v => { v with tags := v.tags.erase key }) rfl
  | _ => exact ⟨v, hv, rfl, rfl⟩

/-- **Where the times of a version come from**: it was stored before, or it is new and both its
times are that of the call. -/
theorem of_get?_versions_amend_dated (haccepts : operation.Accepts m)
    (hv : (operation.amend now m).versions.get? k = some v) :
    (∃ u, m.versions.get? k = some u ∧ v.creationTime = u.creationTime ∧
      v.lastUpdatedTime = if operation.dates k u then now else u.lastUpdatedTime) ∨
      v.creationTime = now ∧ v.lastUpdatedTime = now := by
  rcases of_get?_versions_amend haccepts hv with ⟨u, hu, -⟩ | ⟨name, new, -, rfl⟩
  · obtain ⟨v', hv', htimes⟩ := exists_dated_amend haccepts now hu
    obtain rfl := Option.some.inj (hv.symm.trans hv')
    exact .inl ⟨u, hu, htimes⟩
  · exact .inr ⟨rfl, rfl⟩

end Operation

/-! ### One call -/

namespace Operation

variable {operation : Operation} {call : Call} {db db' : Database} {answer : Answer}

/-- **The times of a version after a successful call.** -/
theorem exists_storedVersion? (h : operation.run.Yields call db answer db') {name name' : String}
    {k : Int} {v : VersionRecord} (hv : db.storedVersion? name k = some v)
    (hname : operation.nameAfter? name = some name') :
    ∃ v', db'.storedVersion? name' k = some v' ∧ v'.creationTime = v.creationTime ∧
      v'.lastUpdatedTime =
        if operation.amended? = some name ∧ operation.dates k v then call.now
        else v.lastUpdatedTime := by
  obtain ⟨m, hm, hk⟩ := Database.storedVersion?_eq_some_iff.mp hv
  obtain ⟨m', hm', hrecord⟩ := (registryEffect h).exists_record hm hname
  rcases hrecord with ⟨hother, rfl⟩ | ⟨hop, haccepts, rfl⟩
  · refine ⟨v, Database.storedVersion?_eq_some_iff.mpr ⟨m', hm', hk⟩, rfl, ?_⟩
    rw [if_neg fun h => hother h.1]
  · obtain ⟨v', hv', htimes⟩ := exists_dated_amend haccepts call.now hk
    refine ⟨v', Database.storedVersion?_eq_some_iff.mpr ⟨_, hm', hv'⟩, ?_⟩
    simpa only [hop, true_and] using htimes

/-- A new version notes the time of the call twice. -/
theorem times_of_createVersion {name : String} {new : NewVersion} {v : ModelVersion}
    (h : (createVersion name new).run.Yields call db (.version v) db') :
    ∃ u, db'.storedVersion? name v.version = some u ∧ u.creationTime = call.now ∧
      u.lastUpdatedTime = call.now := by
  obtain ⟨w, hcall, hanswer⟩ := (yields_map _ _).mp h
  obtain rfl : v = w := Answer.version.inj hanswer
  obtain ⟨m, hm, -, hversion, rfl⟩ := Versions.create_inversion hcall
  have hself : ((createVersion name new).amend call.now m).versions.get? v.version =
      some (.ofNew call.now new) := by
    rw [hversion]
    exact Table.get?_insert_self _ _ _
  exact ⟨_, Database.storedVersion?_eq_some_iff.mpr ⟨_, Database.get?_withModel_self _ _ _, hself⟩,
    rfl, rfl⟩

end Operation


/-! ### Calls in the order of the clock -/

/-- No version was last changed before its creation, and none after `t`. -/
def ModelRecord.DatedBy (t : Int) (m : ModelRecord) : Prop :=
  ∀ k v, m.versions.get? k = some v →
    v.creationTime ≤ v.lastUpdatedTime ∧ v.lastUpdatedTime ≤ t

namespace ModelRecord.DatedBy

variable {t now : Int} {m : ModelRecord}

theorem ofNew (t now : Int) (description : Option String) (tags : List Tag) :
    (ModelRecord.ofNew now description tags).DatedBy t :=
  fun _ _ h => nomatch h

theorem mono (h : m.DatedBy t) {u : Int} (hu : t ≤ u) : m.DatedBy u :=
  fun k v hv => ⟨(h k v hv).1, (h k v hv).2.trans hu⟩

/-- A call on a model whose versions were not changed after it. -/
theorem amend (h : m.DatedBy now) {operation : Operation} (haccepts : operation.Accepts m) :
    (operation.amend now m).DatedBy now := by
  intro k v hv
  rcases Operation.of_get?_versions_amend_dated haccepts hv with
    ⟨u, hu, hcreated, hchanged⟩ | ⟨hcreated, hchanged⟩
  · obtain ⟨hordered, hby⟩ := h k u hu
    rw [hcreated, hchanged]
    split
    · exact ⟨hordered.trans hby, le_rfl⟩
    · exact ⟨hordered, hby⟩
  · rw [hcreated, hchanged]
    exact ⟨le_rfl, le_rfl⟩

end ModelRecord.DatedBy

namespace Operation

/-- **Calls in the order of the clock leave the times of all versions in order**, and none of them
after the last reading. -/
theorem datedBy_performAll {steps : List (Call × Operation)} (hclock : InClockOrder steps) {t : Int}
    (ht : ∀ step ∈ steps, step.1.now ≤ t) :
    ∀ name m, (performAll steps .empty).2.models.get? name = some m → m.DatedBy t := by
  -- The last call is taken off first: all readings before it are bounded by its own.
  induction steps using List.reverseRecOn generalizing t with
  | nil => exact fun _ _ h => nomatch h
  | append_singleton steps step ih =>
    obtain ⟨call, operation⟩ := step
    obtain ⟨hbefore, -, hlast⟩ := List.pairwise_append.mp hclock
    have hnow : call.now ≤ t := ht (call, operation) (by simp)
    have hdated := ih hbefore fun step hstep => hlast step hstep _ List.mem_cons_self
    intro name m hm
    refine ModelRecord.DatedBy.mono ?_ hnow
    rw [performAll_append, performAll_cons, performAll] at hm
    rcases hresult : operation.run.perform call (performAll steps .empty).2 with ⟨e | a, db'⟩
    · rw [hresult, eq_of_perform_error hresult] at hm
      exact hdated name m hm
    · rw [hresult] at hm
      exact (registryEffect hresult).models_invariant (.ofNew call.now call.now)
        (fun u haccepts hu => hu.amend haccepts) hdated name m hm

/-- **In the order of the clock the time of a version does not go back**, whatever names its model
is given. -/
theorem le_lastUpdatedTime_performAll {steps : List (Call × Operation)} {db : Database}
    {name name' : String} {k : Int} {v : VersionRecord} (hv : db.storedVersion? name k = some v)
    (hclock : ∀ step ∈ steps, v.lastUpdatedTime ≤ step.1.now)
    (hname : follow? steps db name = some name') :
    ∃ v', (performAll steps db).2.storedVersion? name' k = some v' ∧
      v'.creationTime = v.creationTime ∧ v.lastUpdatedTime ≤ v'.lastUpdatedTime := by
  obtain ⟨m, hm, hk⟩ := Database.storedVersion?_eq_some_iff.mp hv
  have hkeeps : ∀ step ∈ steps, ∀ m, step.2.Accepts m →
      (∃ u, m.versions.get? k = some u ∧ u.creationTime = v.creationTime ∧
        v.lastUpdatedTime ≤ u.lastUpdatedTime) →
      ∃ u, (step.2.amend step.1.now m).versions.get? k = some u ∧
        u.creationTime = v.creationTime ∧ v.lastUpdatedTime ≤ u.lastUpdatedTime := by
    rintro step hstep m haccepts ⟨u, hu, hcreated, hle⟩
    obtain ⟨u', hu', hcreated', hchanged⟩ := exists_dated_amend haccepts step.1.now hu
    refine ⟨u', hu', hcreated'.trans hcreated, ?_⟩
    rw [hchanged]
    split
    · exact hclock step hstep
    · exact hle
  obtain ⟨m', hm', v', hv', htimes⟩ :=
    follow?_invariant_of_steps steps hkeeps hm ⟨v, hk, rfl, le_rfl⟩ hname
  exact ⟨v', Database.storedVersion?_eq_some_iff.mpr ⟨m', hm', hv'⟩, htimes⟩

end Operation

/-- **The times of versions follow the clock.** In every database that calls lead to, a call that
fails changes nothing. After one that succeeds a version that stays is stored with the time of its
creation; its last change is the time of the call, if the call notes it in the version, and what it
was otherwise. A new version has the time of the call in both places. So if the clock is not set
back between calls, then no version is stored with a last change before its creation, and whatever
calls follow do not move the time of a last change back, whatever names they give the model. -/
theorem version_times_follow_the_clock (before after : List (Call × Operation)) :
    let db := (Operation.performAll before .empty).2
    (∀ (operation : Operation) call e db', operation.run.perform call db = (.error e, db') →
      db' = db) ∧
    (∀ (operation : Operation) call answer db', operation.run.Yields call db answer db' →
      ∀ name k v name', db.storedVersion? name k = some v →
        operation.nameAfter? name = some name' →
        ∃ v', db'.storedVersion? name' k = some v' ∧ v'.creationTime = v.creationTime ∧
          v'.lastUpdatedTime =
            if operation.amended? = some name ∧ operation.dates k v then call.now
            else v.lastUpdatedTime) ∧
    (∀ name new call v db',
      (Operation.createVersion name new).run.Yields call db (.version v) db' →
      ∃ u, db'.storedVersion? name v.version = some u ∧ u.creationTime = call.now ∧
        u.lastUpdatedTime = call.now) ∧
    (InClockOrder (before ++ after) →
      ∀ name k v, db.storedVersion? name k = some v → v.creationTime ≤ v.lastUpdatedTime ∧
        ∀ name', Operation.follow? after db name = some name' →
          ∃ v', (Operation.performAll after db).2.storedVersion? name' k = some v' ∧
            v'.creationTime = v.creationTime ∧ v.lastUpdatedTime ≤ v'.lastUpdatedTime) := by
  intro db
  refine ⟨fun _ _ _ _ => Operation.eq_of_perform_error,
    fun _ _ _ _ h _ _ _ _ => Operation.exists_storedVersion? h,
    fun _ _ _ _ _ => Operation.times_of_createVersion, ?_⟩
  intro hclock name k v hv
  obtain ⟨hbefore, -, hacross⟩ := List.pairwise_append.mp hclock
  obtain ⟨m, hm, hk⟩ := Database.storedVersion?_eq_some_iff.mp hv
  have hdated {t : Int} (ht : ∀ step ∈ before, step.1.now ≤ t) :
      v.creationTime ≤ v.lastUpdatedTime ∧ v.lastUpdatedTime ≤ t :=
    Operation.datedBy_performAll hbefore ht name m hm k v hk
  refine ⟨?_, fun name' hname => Operation.le_lastUpdatedTime_performAll hv ?_ hname⟩
  · obtain ⟨t, ht⟩ := (List.finite_toSet (before.map fun step => step.1.now)).bddAbove
    exact (hdated fun step hstep => ht <| Set.mem_ofPred.mpr <| List.mem_map_of_mem hstep).1
  · exact fun step hstep => (hdated fun earlier hearlier => hacross earlier hearlier step hstep).2

/-- A model gets a version. -/
private def versionCreated : List (Call × Operation) :=
  [(.plainAt 5, .createModel "m" none []), (.plainAt 5, .createVersion "m" (.ofTags []))]

/-- The version is moved, and then the model renamed. -/
private def movedAndRenamed : List (Call × Operation) :=
  [(.plainAt 6, .transition "m" 1 .staging false), (.plainAt 8, .renameModel "m" "n")]

/-- The time of a version follows the clock under the names of its model. -/
theorem version_time_follows_clock_under_new_name :
    let db := (Operation.performAll versionCreated .empty).2
    InClockOrder (versionCreated ++ movedAndRenamed) ∧
      Operation.follow? movedAndRenamed db "m" = some "n" ∧
      ∃ v v', db.storedVersion? "m" 1 = some v ∧
        (Operation.performAll movedAndRenamed db).2.storedVersion? "n" 1 = some v' ∧
        v.creationTime ≤ v.lastUpdatedTime ∧ v.lastUpdatedTime ≤ v'.lastUpdatedTime ∧
        v.lastUpdatedTime = 5 ∧ v'.lastUpdatedTime = 8 := by
  intro db
  have hclock : InClockOrder (versionCreated ++ movedAndRenamed) := by
    unfold InClockOrder
    decide +kernel
  have hname : Operation.follow? movedAndRenamed db "m" = some "n" := by decide +kernel
  have hbefore : (db.storedVersion? "m" 1).map VersionRecord.lastUpdatedTime = some 5 := by
    decide +kernel
  have hafter : ((Operation.performAll movedAndRenamed db).2.storedVersion? "n" 1).map
      VersionRecord.lastUpdatedTime = some 8 := by decide +kernel
  obtain ⟨v, hv, hfive⟩ := Option.map_eq_some_iff.mp hbefore
  obtain ⟨-, -, -, htimes⟩ := version_times_follow_the_clock versionCreated movedAndRenamed
  obtain ⟨hordered, hlater⟩ := htimes hclock "m" 1 v hv
  obtain ⟨v', hv', -, hle⟩ := hlater "n" hname
  rw [hv', Option.map_some] at hafter
  exact ⟨hclock, hname, v, v', hv, hv', hordered, hle, hfive, Option.some.inj hafter⟩

/-- **The times of versions go back with the clock.** When the clock is set back, a call that
updates a version moves the time of its last change back, and leaves it before the time of its
creation. -/
theorem not_version_times_move_forward :
    (¬ ∀ db, Reachable db → ∀ (operation : Operation) call answer db',
      operation.run.Yields call db answer db' → ∀ name k v v',
        db.storedVersion? name k = some v → db'.storedVersion? name k = some v' →
        v.lastUpdatedTime ≤ v'.lastUpdatedTime) ∧
    ¬ ∀ db, Reachable db → ∀ name k v, db.storedVersion? name k = some v →
      v.creationTime ≤ v.lastUpdatedTime := by
  let update : Call × Operation := (.plainAt 3, .updateVersion "m" 1 none)
  let db := (Operation.performAll versionCreated .empty).2
  let updated := update.2.run.perform update.1 db
  have hanswer : updated.1 = .ok (.version
      { ModelVersion.ofTags "m" 1 [] with creationTime := 5, lastUpdatedTime := 3 }) := by
    decide +kernel
  have hbefore : (db.storedVersion? "m" 1).map VersionRecord.lastUpdatedTime = some 5 := by
    decide +kernel
  have hafter : (updated.2.storedVersion? "m" 1).map
      (fun v => (v.creationTime, v.lastUpdatedTime)) = some (5, 3) := by decide +kernel
  obtain ⟨v, hv, htime⟩ := Option.map_eq_some_iff.mp hbefore
  obtain ⟨v', hv', htimes⟩ := Option.map_eq_some_iff.mp hafter
  obtain ⟨hcreated, hchanged⟩ := Prod.mk.inj htimes
  constructor
  · intro h
    have hle := h db ⟨versionCreated, rfl⟩ update.2 update.1 _ updated.2 (Prod.ext hanswer rfl)
      "m" 1 v v' hv hv'
    omega
  · intro h
    have hreachable : Reachable updated.2 := by
      refine ⟨versionCreated ++ [update], ?_⟩
      rw [Operation.performAll_append, Operation.performAll_cons]
      rfl
    have hle := h updated.2 hreachable "m" 1 v' hv'
    omega

end RunLedger
