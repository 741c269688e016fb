import RunLedger.Proofs.Registry.Lineage

/-!
# Times of models

A model notes when it was last changed. Five calls move that time forward: they set it to the
reading of the clock, but past the time noted before, so it moves on also when the clock stands
still or has been set back. All other calls leave it alone, those that fail and those for tags,
aliases and the descriptions of versions included. So the time of the last change of a model is
never before that of its creation, and never goes back in the life of the model.

Times are whole numbers without bounds here.

## Main definitions

* `Database.lastChange`: when each registered model was last changed.
* `Operation.Restamps`: what a successful call makes of these times.

## Main results

* `Operation.lastUpdatedTime_amend`: the time of a model that a call changes.
* `Operation.restamps`: every successful call does as `Operation.Restamps` says.
* `model_times_move_forward`: the times of models, in one call and over the life of a model.
-/

namespace RunLedger

open Work Registry

/-- When each registered model was last changed. -/
def Database.lastChange (db : Database) (name : String) : Option Int :=
  (db.models.get? name).map ModelRecord.lastUpdatedTime

/-- What a successful call at the time `now` makes of the times at which the models were last
changed: a new model has the time `now`, five calls move the time of their model forward, a rename
under the new name, the deletion of a model discards its time, and no other call changes any. -/
def Operation.Restamps (now : Int) (before after : String → Option Int) : Operation → Prop
  | createModel name _ _ => before name = none ∧ after = Function.update before name (some now)
  | updateModel name _ | createVersion name _ | transition name _ _ _ | deleteVersion name _ =>
    ∃ old new, before name = some old ∧ new = max now (old + 1) ∧ old < new ∧
      after = Function.update before name (some new)
  | renameModel name newName =>
    ∃ old new, before name = some old ∧ new = max now (old + 1) ∧ old < new ∧
      (newName = name ∨ before newName = none) ∧
      after = Function.update (Function.update before name none) newName (some new)
  | deleteModel name => before name ≠ none ∧ after = Function.update before name none
  | _ => after = before

namespace Database

variable {db : Database} {name : String} {m : ModelRecord}

theorem lastChange_of_get? (hm : db.models.get? name = some m) :
    db.lastChange name = some m.lastUpdatedTime := by
  rw [lastChange, hm, Option.map_some]

theorem lastChange_eq_none_iff : db.lastChange name = none ↔ db.models.get? name = none :=
  Option.map_eq_none_iff

theorem lastChange_withModel (db : Database) (name : String) (m : ModelRecord) :
    (db.withModel name m).lastChange =
      Function.update db.lastChange name (some m.lastUpdatedTime) :=
  map_get?_withModel _ db name m

theorem lastChange_withoutModel (db : Database) (name : String) :
    (db.withoutModel name).lastChange = Function.update db.lastChange name none :=
  map_get?_withoutModel _ db name

end Database

theorem Registry.lt_bumped (now last : Int) : last < bumped now last :=
  lt_of_lt_of_le (Int.lt_succ last) (le_max_right now (last + 1))

namespace Operation

/-- The calls that move the time of the last change of their model forward. -/
def isNoted : Operation → Bool
  | updateModel _ _ | renameModel _ _ | createVersion _ _ | transition _ _ _ _
  | deleteVersion _ _ => true
  | _ => false

/-- **The time of a model that a call changes.** -/
theorem lastUpdatedTime_amend (operation : Operation) (now : Int) (m : ModelRecord) :
    (operation.amend now m).lastUpdatedTime =
      if operation.isNoted then bumped now m.lastUpdatedTime else m.lastUpdatedTime := by
  cases operation <;> rfl

/-- No call moves the time of a model back. -/
theorem le_lastUpdatedTime_amend (operation : Operation) (now : Int) (m : ModelRecord) :
    m.lastUpdatedTime ≤ (operation.amend now m).lastUpdatedTime := by
  rw [lastUpdatedTime_amend]
  split
  · exact (lt_bumped now m.lastUpdatedTime).le
  · exact le_rfl

theorem creationTime_amend (operation : Operation) (now : Int) (m : ModelRecord) :
    (operation.amend now m).creationTime = m.creationTime := by
  cases operation <;> rfl

variable {operation : Operation} {call : Call} {db db' : Database} {answer : Answer}

/-- **What a successful call makes of the times of models.** -/
theorem restamps (h : operation.run.Yields call db answer db') :
    operation.Restamps call.now db.lastChange db'.lastChange := by
  cases registryEffect h with
  | created hnew =>
    exact ⟨Database.lastChange_eq_none_iff.mpr hnew, Database.lastChange_withModel _ _ _⟩
  | @amended _ name _ m htarget hm haccepts =>
    have hold := Database.lastChange_of_get? hm
    have hnew := Database.lastChange_withModel db name (operation.amend call.now m)
    rw [lastUpdatedTime_amend] at hnew
    by_cases hop : operation.isNoted = true
    · rw [if_pos hop] at hnew
      have hmoved := lt_bumped call.now m.lastUpdatedTime
      cases operation with
      | updateModel | createVersion | transition | deleteVersion =>
        obtain rfl := Option.some.inj htarget
        exact ⟨_, _, hold, rfl, hmoved, hnew⟩
      | renameModel => cases htarget
      | _ => cases hop
    · rw [if_neg hop, ← hold, Function.update_eq_self] at hnew
      cases operation with
      | updateModel | createVersion | transition | deleteVersion => exact absurd rfl hop
      | createModel | renameModel | deleteModel => cases htarget
      | _ => exact hnew
  | @renamed name newName _ m hm hfree =>
    refine ⟨_, _, Database.lastChange_of_get? hm, rfl, lt_bumped call.now m.lastUpdatedTime,
      hfree.imp_right Database.lastChange_eq_none_iff.mpr, ?_⟩
    rw [Database.lastChange_withModel, Database.lastChange_withoutModel]
    rfl
  | deleted hm =>
    refine ⟨?_, Database.lastChange_withoutModel _ _⟩
    rw [Database.lastChange_of_get? hm]
    exact Option.some_ne_none _
  | none hop hmodels =>
    have hsame : db'.lastChange = db.lastChange := by
      funext name
      rw [Database.lastChange, Database.lastChange, hmodels]
    cases operation with
    | createModel | updateModel | createVersion | transition | deleteVersion | renameModel
    | deleteModel => simp [area, isRead] at hop
    | _ => exact hsame

end Operation

/-- **The time of the last change of a model moves forward whatever the clock does.** In every
database that calls lead to: a call that fails changes no time. One that succeeds does as
`Operation.Restamps` says: updating or renaming a model, and creating, moving or deleting a version
of it, set its time to the reading of the clock or to one past the time before, whichever is later;
and no other call changes any time, but for those that create and delete models. A model is never
stored, or answered, with a last change before its creation. As long as a model is not deleted,
whatever calls are made and whatever names it is given, its time does not go back. -/
theorem model_times_move_forward {db : Database} (hdb : Reachable db) :
    (∀ (operation : Operation) call e db', operation.run.perform call db = (.error e, db') →
      db'.lastChange = db.lastChange) ∧
    (∀ (operation : Operation) call answer db', operation.run.Yields call db answer db' →
      operation.Restamps call.now db.lastChange db'.lastChange) ∧
    (∀ name m, db.models.get? name = some m → m.creationTime ≤ m.lastUpdatedTime) ∧
    (∀ name call model db', (Operation.getModel name).run.Yields call db (.model model) db' →
      db.lastChange name = some model.lastUpdatedTime ∧
        model.creationTime ≤ model.lastUpdatedTime) ∧
    ∀ steps name name' time, Operation.follow? steps db name = some name' →
      db.lastChange name = some time →
      ∃ time', (Operation.performAll steps db).2.lastChange name' = some time' ∧ time ≤ time' := by
  have hordered : ∀ name m, db.models.get? name = some m → m.creationTime ≤ m.lastUpdatedTime := by
    refine hdb.models_invariant (fun _ _ _ => le_rfl) ?_
    intro operation now m _ hm
    rw [Operation.creationTime_amend]
    exact hm.trans (operation.le_lastUpdatedTime_amend now m)
  refine ⟨?_, fun _ _ _ _ => Operation.restamps, hordered, ?_, ?_⟩
  · intro operation call e db' h
    rw [Operation.eq_of_perform_error h]
  · intro name call model db' h
    obtain ⟨-, -, hload, -⟩ := Operation.yields_getModel.mp h
    obtain ⟨m, versions, hm, -, rfl⟩ := loadModel_eq_ok_iff.mp hload
    exact ⟨Database.lastChange_of_get? hm, hordered name m hm⟩
  · intro steps name name' time hname htime
    obtain ⟨m, hm, rfl⟩ := Option.map_eq_some_iff.mp htime
    obtain ⟨m', hm', hle⟩ := Operation.follow?_invariant
      (P := fun u => m.lastUpdatedTime ≤ u.lastUpdatedTime)
      (fun operation now u _ hu => hu.trans (operation.le_lastUpdatedTime_amend now u)) steps hm
      le_rfl hname
    exact ⟨_, Database.lastChange_of_get? hm', hle⟩

/-- A model gets a version while the clock stands still. -/
private def clockStandsStill : List (Call × Operation) :=
  [(.plainAt 5, .createModel "m" none []), (.plainAt 5, .createVersion "m" (.ofTags []))]

/-- The time of a model moves on when the clock stands still, and when it is set back. -/
theorem model_time_moves_past_clock_set_back :
    let db := (Operation.performAll clockStandsStill .empty).2
    Reachable db ∧ db.lastChange "m" = some 6 ∧ ∃ db',
      (Operation.deleteVersion "m" 1).run.Yields (.plainAt 3) db .nothing db' ∧
      db'.lastChange "m" = some 7 := by
  intro db
  have hdb : Reachable db := ⟨clockStandsStill, rfl⟩
  have hbefore : db.lastChange "m" = some 6 := by decide +kernel
  let deleted := (Operation.deleteVersion "m" 1).run.perform (.plainAt 3) db
  have hdeleted : deleted.1 = .ok .nothing := by decide +kernel
  obtain ⟨-, hrestamps, -⟩ := model_times_move_forward hdb
  obtain ⟨old, new, hold, hnew, -, hafter⟩ := hrestamps _ _ _ _ (Prod.ext hdeleted rfl)
  obtain rfl := Option.some.inj (hold.symm.trans hbefore)
  refine ⟨hdb, hbefore, deleted.2, Prod.ext hdeleted rfl, ?_⟩
  calc deleted.2.lastChange "m"
      = Function.update db.lastChange "m" (some new) "m" := congrFun hafter "m"
    _ = some new := Function.update_self ..
    _ = some 7 := congrArg some hnew

end RunLedger
