import RunLedger.Proofs.Registry.Amendment
import RunLedger.Proofs.Registry.Effect
import RunLedger.Proofs.Trace

/-!
# The life of a model

A registered model keeps its identity under its renames. Calls made one after the other take it from
name to name, until one of them deletes it; what they make of its record are changes that the record
accepted, one after the other. So what each such change keeps, the model has for the rest of its
life.

## Main definitions

* `Operation.amended?`: the model whose record a call amends.
* `Operation.nameAfter?`: the name of a model after a successful call.
* `Operation.follow?`: the name of a model after calls made one after the other.

## Main results

* `RegistryEffect.exists_record`: a call amends the record of its model and leaves the others alone.
* `RegistryEffect.origin`: where the record of a model comes from.
* `Operation.follow?_invariant`: what amendments keep, a model has for the rest of its life.
* `Reachable.models_invariant`: what new models have and amendments keep, all models have.
-/

namespace RunLedger

namespace Operation

/-- The model whose record a call amends, by the name that it has before the call. -/
def amended? : Operation → Option String
  | renameModel name _ => some name
  | operation => operation.target?

/-- The name of the model called `model` after a successful call, unless the call deletes it. -/
def nameAfter? (model : String) : Operation → Option String
  | renameModel name newName => some (if model = name then newName else model)
  | deleteModel name => if model = name then none else some model
  | _ => some model

/-- The name of the model called `model` after calls made one after the other, unless one of them
deletes it. A call that fails changes no name. -/
def follow? : List (Call × Operation) → Database → String → Option String
  | [], _, model => some model
  | (call, operation) :: steps, db, model =>
    match operation.run.perform call db with
    | (.ok _, db') => (operation.nameAfter? model).bind (follow? steps db')
    | (.error _, db') => follow? steps db' model

theorem amended?_of_target? {operation : Operation} {name : String}
    (h : operation.target? = some name) : operation.amended? = some name := by
  cases operation with
  | renameModel => cases h
  | _ => exact h

theorem amended?_of_not_registry {operation : Operation}
    (h : operation.area ≠ .registry ∨ operation.isRead = true) : operation.amended? = none := by
  cases operation with
  | createModel | getModel | deleteModel | getByAlias | getVersion | latestVersions
  | createExperiment | getExperiment | createRun | getRun | deleteRun | restoreRun | logMetrics
  | metricHistory | latestMetrics | rebuildLatest | modelMetrics => rfl
  | _ => simp [area, isRead] at h

theorem nameAfter?_of_target? {operation : Operation} {name : String}
    (h : operation.target? = some name) (model : String) :
    operation.nameAfter? model = some model := by
  cases operation with
  | renameModel | deleteModel => cases h
  | _ => rfl

theorem nameAfter?_of_not_registry {operation : Operation}
    (h : operation.area ≠ .registry ∨ operation.isRead = true) (model : String) :
    operation.nameAfter? model = some model := by
  cases operation with
  | renameModel | deleteModel => simp [area, isRead] at h
  | _ => rfl

end Operation

/-- **A successful call amends the record of its model and leaves all others alone**, and a record
stays with the model if the model gets another name. -/
theorem RegistryEffect.exists_record {now : Int} {operation : Operation} {db db' : Database}
    {name name' : String} {m : ModelRecord} (h : RegistryEffect now operation db db')
    (hm : db.models.get? name = some m) (hname : operation.nameAfter? name = some name') :
    ∃ m', db'.models.get? name' = some m' ∧
      (operation.amended? ≠ some name ∧ m' = m ∨
        operation.amended? = some name ∧ operation.Accepts m ∧ m' = operation.amend now m) := by
  cases h with
  | @created new _ _ _ hnew =>
    obtain rfl := Option.some.inj hname
    have hne : name ≠ new := by
      rintro rfl
      simp [hm] at hnew
    exact ⟨m, (Database.get?_withModel_of_ne hne).trans hm, .inl ⟨nofun, rfl⟩⟩
  | @amended _ target _ u htarget hu haccepts =>
    obtain rfl : name = name' :=
      Option.some.inj ((Operation.nameAfter?_of_target? htarget name).symm.trans hname)
    have hamended := Operation.amended?_of_target? htarget
    by_cases hne : name = target
    · subst hne
      obtain rfl := Option.some.inj (hm.symm.trans hu)
      exact ⟨_, Database.get?_withModel_self _ _ _, .inr ⟨hamended, haccepts, rfl⟩⟩
    · have hother : operation.amended? ≠ some name := by
        rw [hamended]
        exact fun h => hne (Option.some.inj h).symm
      exact ⟨m, (Database.get?_withModel_of_ne hne).trans hm, .inl ⟨hother, rfl⟩⟩
  | @renamed old new _ u hu hfree =>
    by_cases hold : name = old
    · subst hold
      obtain rfl : new = name' := by simpa [Operation.nameAfter?] using hname
      obtain rfl := Option.some.inj (hm.symm.trans hu)
      exact ⟨_, Database.get?_withModel_self _ _ _, .inr ⟨rfl, trivial, rfl⟩⟩
    · obtain rfl : name = name' := by simpa [Operation.nameAfter?, hold] using hname
      have hnew : name ≠ new := by
        rintro rfl
        rcases hfree with rfl | hfree
        · exact hold rfl
        · simp [hm] at hfree
      have hother : (Operation.renameModel old new).amended? ≠ some name :=
        fun h => hold (Option.some.inj h).symm
      exact ⟨m, (Database.get?_withModel_of_ne hnew).trans
        ((db.models.get?_erase_of_ne hold).trans hm), .inl ⟨hother, rfl⟩⟩
  | @deleted target _ u hu =>
    have hne : name ≠ target := by
      rintro rfl
      simp [Operation.nameAfter?] at hname
    obtain rfl : name = name' := by simpa [Operation.nameAfter?, hne] using hname
    exact ⟨m, (db.models.get?_erase_of_ne hne).trans hm, .inl ⟨nofun, rfl⟩⟩
  | none hop hmodels =>
    obtain rfl : name = name' :=
      Option.some.inj ((Operation.nameAfter?_of_not_registry hop name).symm.trans hname)
    have hother : operation.amended? ≠ some name := by simp [Operation.amended?_of_not_registry hop]
    exact ⟨m, by rw [hmodels, hm], .inl ⟨hother, rfl⟩⟩

/-- **Where the record of a model comes from**: it is that of a new model, or one that was stored
before, as it was or amended. -/
theorem RegistryEffect.origin {now : Int} {operation : Operation} {db db' : Database}
    {name' : String} {m' : ModelRecord} (h : RegistryEffect now operation db db')
    (hm' : db'.models.get? name' = some m') :
    (∃ description tags, m' = .ofNew now description tags) ∨
      ∃ name m, db.models.get? name = some m ∧
        (m' = m ∨ operation.Accepts m ∧ m' = operation.amend now m) := by
  cases h with
  | @created new description tags _ hnew =>
    by_cases hne : name' = new
    · subst hne
      exact .inl ⟨description, tags,
        Option.some.inj (hm'.symm.trans (Database.get?_withModel_self _ _ _))⟩
    · exact .inr ⟨name', m', (Database.get?_withModel_of_ne hne).symm.trans hm', .inl rfl⟩
  | @amended _ target _ m htarget hm haccepts =>
    by_cases hne : name' = target
    · subst hne
      have hsame := Option.some.inj (hm'.symm.trans (Database.get?_withModel_self _ _ _))
      exact .inr ⟨name', m, hm, .inr ⟨haccepts, hsame⟩⟩
    · exact .inr ⟨name', m', (Database.get?_withModel_of_ne hne).symm.trans hm', .inl rfl⟩
  | @renamed old new _ m hm hfree =>
    by_cases hnew : name' = new
    · subst hnew
      have hsame := Option.some.inj (hm'.symm.trans (Database.get?_withModel_self _ _ _))
      exact .inr ⟨old, m, hm, .inr ⟨trivial, hsame⟩⟩
    · rw [Database.get?_withModel_of_ne hnew, Database.withoutModel, Table.get?_erase] at hm'
      split at hm'
      · cases hm'
      · exact .inr ⟨name', m', hm', .inl rfl⟩
  | @deleted target _ m hm =>
    rw [Database.withoutModel, Table.get?_erase] at hm'
    split at hm'
    · cases hm'
    · exact .inr ⟨name', m', hm', .inl rfl⟩
  | none hop hmodels => exact .inr ⟨name', m', hmodels ▸ hm', .inl rfl⟩

/-- What a model has, and every amendment that one of the calls makes keeps, it has after the calls,
whatever names it is given. -/
theorem Operation.follow?_invariant_of_steps {P : ModelRecord → Prop}
    (steps : List (Call × Operation))
    (hamend : ∀ step ∈ steps, ∀ m, step.2.Accepts m → P m → P (step.2.amend step.1.now m))
    {db : Database} {name name' : String} {m : ModelRecord} (hm : db.models.get? name = some m)
    (hP : P m) (hname : follow? steps db name = some name') :
    ∃ m', (performAll steps db).2.models.get? name' = some m' ∧ P m' := by
  induction steps generalizing db name m with
  | nil =>
    obtain rfl := Option.some.inj hname
    exact ⟨m, hm, hP⟩
  | cons step steps ih =>
    obtain ⟨call, operation⟩ := step
    have hrest : ∀ step ∈ steps, ∀ m, step.2.Accepts m → P m → P (step.2.amend step.1.now m) :=
      fun step hstep => hamend step (List.mem_cons_of_mem _ hstep)
    rw [follow?] at hname
    rw [performAll_cons]
    rcases hresult : operation.run.perform call db with ⟨e | a, db'⟩
    · obtain rfl := eq_of_perform_error hresult
      rw [hresult] at hname
      exact ih hrest hm hP hname
    · rw [hresult] at hname
      obtain ⟨next, hnext, hname⟩ := Option.bind_eq_some_iff.mp hname
      obtain ⟨m₁, hm₁, hrecord⟩ := (registryEffect hresult).exists_record hm hnext
      refine ih hrest hm₁ ?_ hname
      rcases hrecord with ⟨-, rfl⟩ | ⟨-, haccepts, rfl⟩
      · exact hP
      · exact hamend (call, operation) List.mem_cons_self m haccepts hP

/-- **What amendments keep, a model has for the rest of its life**, whatever calls are made and
whatever names it is given. -/
theorem Operation.follow?_invariant {P : ModelRecord → Prop}
    (hamend : ∀ (operation : Operation) (now : Int) (m : ModelRecord), operation.Accepts m → P m →
      P (operation.amend now m))
    (steps : List (Call × Operation)) {db : Database} {name name' : String} {m : ModelRecord}
    (hm : db.models.get? name = some m) (hP : P m) (hname : follow? steps db name = some name') :
    ∃ m', (performAll steps db).2.models.get? name' = some m' ∧ P m' :=
  follow?_invariant_of_steps steps (fun step _ m => hamend step.2 step.1.now m) hm hP hname

/-- What new models have and a call's amendment keeps, every model has after the call. -/
theorem RegistryEffect.models_invariant {P : ModelRecord → Prop} {now : Int}
    {operation : Operation} {db db' : Database} (heffect : RegistryEffect now operation db db')
    (hnew : ∀ description tags, P (.ofNew now description tags))
    (hamend : ∀ m, operation.Accepts m → P m → P (operation.amend now m))
    (h : ∀ name m, db.models.get? name = some m → P m) :
    ∀ name m, db'.models.get? name = some m → P m := by
  intro name' m' hm'
  rcases heffect.origin hm' with ⟨description, tags, rfl⟩ | ⟨name, m, hm, rfl | ⟨haccepts, rfl⟩⟩
  · exact hnew description tags
  · exact h name m' hm
  · exact hamend m haccepts (h name m hm)

/-- **What new models have and amendments keep, every model has** in every database that calls lead
to. -/
theorem Reachable.models_invariant {P : ModelRecord → Prop}
    (hnew : ∀ now description tags, P (.ofNew now description tags))
    (hamend : ∀ (operation : Operation) (now : Int) (m : ModelRecord), operation.Accepts m → P m →
      P (operation.amend now m))
    {db : Database} (h : Reachable db) : ∀ name m, db.models.get? name = some m → P m := by
  obtain ⟨steps, rfl⟩ := h
  refine Operation.performAll_invariant
    (I := fun db => ∀ name m, db.models.get? name = some m → P m) ?_ steps fun _ _ h => nomatch h
  intro operation call db a db' hdb hresult
  exact (Operation.registryEffect hresult).models_invariant (hnew call.now)
    (hamend operation call.now) hdb

end RunLedger
