import RunLedger.Proofs.Layout
import RunLedger.Proofs.Session.OnFile

/-!
# All operations through one handle

The operations of a session on a file, whichever handles they are made through, come to the same if
they are all made through one handle that stays open, and if the layout of the tables is never
looked after in between. For a handle keeps nothing but the database it is open on, and nothing but
the version of the layout changes when a handle is opened or the layout is looked after.

## Main definitions

* `Step.isUpkeep`: the steps that open handles and look after the layout.
* `Step.through`: a step, taken through another handle.
* `Session.answers`: what the other steps come to.
* `Session.servesAll`: handles are open when operations are made through them.
* `Session.Mirrors`: one handle and the newest layout, and the same otherwise.

## Main results

* `Session.OnFile.upkeeps_take`: what opening handles and looking after the layout changes.
* `Session.Mirrors.take`, `Session.Mirrors.takeAll`: operations through one handle come to the same.
-/

namespace RunLedger

open Database

/-! ### Steps and handles -/

namespace Step

/-- Whether a step only opens a handle, looks after the layout of the tables, or sets its version
from outside. -/
def isUpkeep : Step → Bool
  | openHandle _ | migrate _ | adjust _ (.schemaVersion _) => true
  | _ => false

/-- Whether a step is about clocks and contexts alone. -/
def isOutside : Step → Bool
  | setClock _ | advance _ | readClock | newContext _ _ | cloneContext _ _ | cancelContext _
  | inspectContext _ | checkContext _ _ => true
  | _ => false

/-- Whether a step is upkeep or one operation of its own: a unit of work holds no calls through
other handles. -/
def isSequential : Step → Bool
  | adjust _ (.schemaVersion _) => true
  | adjust _ _ => false
  | transaction _ _ _ _ inner _ _ => inner.all isOutside
  | _ => true

/-- The handle that an operation is made through. -/
def handle? : Step → Option String
  | readSchema handle | readConfig handle | call handle _ _ _ | setFault handle _
  | clearFault handle _ _ | listRows handle _ | transaction handle _ _ _ _ _ _ => some handle
  | _ => none

/-- The same operation, through another handle. -/
def through (handle : String) : Step → Step
  | readSchema _ => readSchema handle
  | readConfig _ => readConfig handle
  | call _ context entropy operation => call handle context entropy operation
  | setFault _ fault => setFault handle fault
  | clearFault _ kind table => clearFault handle kind table
  | listRows _ table => listRows handle table
  | transaction _ context operation models inner cancel failure =>
    transaction handle context operation models inner cancel failure
  | step => step

theorem through_of_isOutside {step : Step} (h : step.isOutside = true) (handle : String) :
    step.through handle = step := by
  cases step <;> first | rfl | cases h

/-- The operations among steps, all through one handle. -/
def operations (steps : List Step) : List Step :=
  (steps.filter fun step => !step.isUpkeep).map (through Session.firstHandle)

end Step

/-- The database with another version of the layout. -/
def Volume.withLayout (version : Int) (v : Volume) : Volume :=
  { v with database := v.database.withLayout version }

namespace Session

variable {s t : Session} {v : Volume}

/-- What the operations among steps come to. -/
def answers (s : Session) : List Step → List Outcome
  | [] => []
  | step :: steps =>
    if step.isUpkeep then answers (s.take step).2 steps
    else (s.take step).1 :: answers (s.take step).2 steps

/-- Whether the handle of an operation is open. When the version of the layout is read, it must be
the newest as well. -/
def serves (s : Session) : Step → Bool
  | .readSchema handle =>
    s.handles.contains handle &&
      (s.volumes.get? 0).all fun v => v.database.schemaVersion = newestSchema
  | step => step.handle?.all s.handles.contains

/-- Whether all operations among steps can be made as they come. -/
def servesAll (s : Session) : List Step → Bool
  | [] => true
  | step :: steps => (step.isUpkeep || s.serves step) && servesAll (s.take step).2 steps

/-- `t` is what `s` is, with its first handle open, and with the newest layout. -/
structure Mirrors (t s : Session) : Prop where
  config : t.config = s.config
  contexts : t.contexts = s.contexts
  handle : t.handles.get? firstHandle = some 0
  volume : ∃ v, s.volumes.get? 0 = some v ∧
    t.volumes.get? 0 = some (v.withLayout newestSchema)

/-! ### Upkeep -/

/-- Nothing has happened but to handles and to the version of the layout. -/
structure Upkeeps (s s' : Session) : Prop where
  config : s'.config = s.config
  contexts : s'.contexts = s.contexts
  volume : ∀ v, s.volumes.get? 0 = some v →
    ∃ version, s'.volumes.get? 0 = some (v.withLayout version)

theorem upkeeps_self (s : Session) : s.Upkeeps s :=
  ⟨rfl, rfl, fun v hv => ⟨v.database.schemaVersion, hv⟩⟩

theorem Upkeeps.mirrors {s' : Session} (h : s.Upkeeps s') (ht : t.Mirrors s) : t.Mirrors s' := by
  obtain ⟨v, hs, ht'⟩ := ht.volume
  obtain ⟨version, hs'⟩ := h.volume v hs
  exact ⟨ht.config.trans h.config.symm, ht.contexts.trans h.contexts.symm, ht.handle,
    v.withLayout version, hs', ht'⟩

/-- Setting the version sets the version, or nothing. -/
theorem perform_schemaVersion (version : Int) (call : Call) (db : Database) :
    ∃ version', ((Adjustment.schemaVersion version).run.perform call db).2 =
      db.withLayout version' := by
  rw [Adjustment.run, Work.perform_transact]
  cases call.pulse .entry with
  | some cause => exact ⟨db.schemaVersion, rfl⟩
  | none =>
    cases call.hindrance? Adjustment.name with
    | some e => exact ⟨db.schemaVersion, rfl⟩
    | none =>
      cases call.pulse .commit with
      | some cause => exact ⟨db.schemaVersion, rfl⟩
      | none => exact ⟨_, rfl⟩

/-- A database that is brought up to date keeps all but the version of its layout. -/
theorem eq_withLayout_of_migrate {v' : Volume} {writing : Writing}
    (h : v.migrate writing = .ok v') : v' = v.withLayout newestSchema :=
  (Volume.migrate_eq_ok_iff.mp h).2.2

namespace OnFile

variable (h : s.OnFile)

include h

theorem upkeeps_open (handle : String) : s.Upkeeps (s.open handle).2 := by
  rcases h.open_cases handle with ⟨e, -, hopen⟩ | ⟨writing, v', hmigrate, hopen⟩ <;> rw [hopen]
  · exact ⟨rfl, rfl, fun v hv => ⟨v.database.schemaVersion, hv⟩⟩
  · refine ⟨rfl, rfl, fun v hv => ⟨newestSchema, ?_⟩⟩
    rw [h.kept_of_get? hv] at hmigrate
    rw [← eq_withLayout_of_migrate hmigrate]
    exact Table.get?_insert_self ..

theorem upkeeps_onVolume {handle : String} {f : Nat → Volume → Outcome × Session}
    (hf : ∀ v, s.volumes.get? 0 = some v → s.Upkeeps (f 0 v).2) :
    s.Upkeeps (s.onVolume handle f).2 := by
  rw [onVolume]
  cases hhandle : s.volume? handle with
  | none => exact s.upkeeps_self
  | some nv =>
    obtain ⟨n, v⟩ := nv
    obtain ⟨rfl, hv⟩ := h.of_volume? hhandle
    exact hf v hv

/-- **Upkeep changes nothing but handles and the version of the layout.** -/
theorem upkeeps_take {step : Step} (hstep : step.isUpkeep = true) :
    s.Upkeeps (s.take step).2 := by
  cases step with
  | openHandle handle =>
    rw [take_openHandle_snd]
    exact h.upkeeps_open handle
  | migrate handle =>
    refine h.upkeeps_onVolume fun v hv => ?_
    rw [Session.migrate]
    cases hmigrate : s.schemaVersion v *> v.migrate .free with
    | error e => exact s.upkeeps_self
    | ok v' =>
      obtain ⟨_, -, hmigrate⟩ := exists_of_bind_eq_ok hmigrate
      refine ⟨rfl, rfl, fun v₁ hv₁ => ⟨newestSchema, ?_⟩⟩
      obtain rfl := Option.some.inj (hv.symm.trans hv₁)
      rw [← eq_withLayout_of_migrate hmigrate]
      exact Table.get?_insert_self ..
  | adjust handle a =>
    cases a with
    | schemaVersion version =>
      refine h.upkeeps_onVolume fun v hv => ⟨rfl, rfl, fun v₁ hv₁ => ?_⟩
      obtain rfl := Option.some.inj (hv.symm.trans hv₁)
      obtain ⟨version', hversion⟩ :=
        perform_schemaVersion version (s.callOn v .background 0) v.database
      refine ⟨version', (Table.get?_insert_self ..).trans (congrArg some ?_)⟩
      exact congrArg (fun database => { v with database }) hversion
    | _ => cases hstep
  | _ => cases hstep

end OnFile

/-! ### Operations -/

/-- What a step about clocks and contexts comes to depends on these alone. -/
theorem take_of_isOutside {step : Step} (hstep : step.isOutside = true) (contexts : Contexts) :
    ∃ outcome contexts', ∀ s : Session, s.contexts = contexts →
      s.take step = (outcome, { s with contexts := contexts' }) := by
  cases step with
  | setClock wall => exact ⟨.done, contexts.setWall wall, fun s hs => by rw [take, hs]⟩
  | advance ms => exact ⟨.done, contexts.advance ms, fun s hs => by rw [take, hs]⟩
  | readClock => exact ⟨.number contexts.wall, contexts, fun s hs => by rw [take, ← hs]⟩
  | newContext name timeout =>
    exact ⟨.done, contexts.create name timeout, fun s hs => by rw [take, hs]⟩
  | cloneContext name source =>
    cases h : contexts.clone name source with
    | none => exact ⟨.unknownName, contexts, fun s hs => by rw [take, hs, h, ← hs]; rfl⟩
    | some contexts' => exact ⟨.done, contexts', fun s hs => by rw [take, hs, h]; rfl⟩
  | cancelContext name =>
    cases h : contexts.cancel name with
    | none => exact ⟨.unknownName, contexts, fun s hs => by rw [take, hs, h, ← hs]; rfl⟩
    | some contexts' => exact ⟨.done, contexts', fun s hs => by rw [take, hs, h]; rfl⟩
  | inspectContext name =>
    cases h : contexts.family? name with
    | none => exact ⟨.unknownName, contexts, fun s hs => by rw [take, hs, h, ← hs]⟩
    | some f =>
      exact ⟨.contextState f.cancelled (f.isPastDeadline contexts.monotonic) f.deadline.isSome,
        contexts, fun s hs => by rw [take, hs, h, ← hs]⟩
  | checkContext name operation =>
    cases h : contexts.family? name with
    | none => exact ⟨.unknownName, contexts, fun s hs => by rw [take, hs, h, ← hs]⟩
    | some f =>
      exact ⟨.ofUnit (contexts.check f operation), contexts, fun s hs => by
        rw [take, hs, h, ← hs]⟩
  | _ => cases hstep

theorem takeAll_of_isOutside {steps : List Step} (hsteps : steps.all Step.isOutside = true)
    (contexts : Contexts) :
    ∃ outcomes contexts', ∀ s : Session, s.contexts = contexts →
      s.takeAll steps = (outcomes, { s with contexts := contexts' }) := by
  induction steps generalizing contexts with
  | nil => exact ⟨[], contexts, fun s hs => by rw [takeAll, ← hs]⟩
  | cons step steps ih =>
    rw [List.all_cons, Bool.and_eq_true] at hsteps
    obtain ⟨outcome, contexts₁, hstep⟩ := take_of_isOutside hsteps.1 contexts
    obtain ⟨outcomes, contexts₂, hrest⟩ := ih hsteps.2 contexts₁
    refine ⟨outcome :: outcomes, contexts₂, fun s hs => ?_⟩
    rw [takeAll, hstep s hs]
    simp only [hrest { s with contexts := contexts₁ } rfl]

namespace Mirrors

variable (h : t.Mirrors s)

include h

theorem withContexts (contexts : Contexts) :
    ({ t with contexts } : Session).Mirrors { s with contexts } :=
  ⟨h.config, rfl, h.handle, h.volume⟩

theorem putVolume (v : Volume) :
    (t.putVolume 0 (v.withLayout newestSchema)).Mirrors (s.putVolume 0 v) :=
  ⟨h.config, h.contexts, h.handle, v, Table.get?_insert_self .., Table.get?_insert_self ..⟩

theorem family?_eq (context : Option String) : t.family? context = s.family? context := by
  cases context with
  | none => rfl
  | some name => exact congrArg (Contexts.family? · name) h.contexts

theorem isolation_eq : t.isolation = s.isolation := by
  rw [isolation, isolation, h.config]

/-- A call takes the same from outside the database. -/
theorem callOn_eq (v : Volume) (version : Int) (family : Family) (entropy : Nat) :
    t.callOn (v.withLayout version) family entropy = s.callOn v family entropy := by
  have hhides : t.hides (v.withLayout version) = s.hides v := by
    funext table
    rw [hides, hides, h.isolation_eq]
    rfl
  rw [callOn, callOn, hhides, h.config, h.contexts]
  rfl

/-- What takes no notice of the version of the layout comes to the same, and leaves the same. -/
theorem perform_eq {α : Type} {w : Work α} (hw : w.Overlooks (withLayout newestSchema)) (v : Volume)
    (family : Family) (entropy : Nat) :
    w.perform (t.callOn (v.withLayout newestSchema) family entropy)
      (v.withLayout newestSchema).database =
        ((w.perform (s.callOn v family entropy) v.database).1,
          (w.perform (s.callOn v family entropy) v.database).2.withLayout newestSchema) := by
  rw [h.callOn_eq]
  exact hw _ v.database

theorem call {α : Type} {w : Work α} (hw : w.Overlooks (withLayout newestSchema)) (v : Volume)
    (family : Family) (entropy : Nat) :
    (t.call 0 (v.withLayout newestSchema) family entropy w).1 = (s.call 0 v family entropy w).1 ∧
      (t.call 0 (v.withLayout newestSchema) family entropy w).2.Mirrors
        (s.call 0 v family entropy w).2 := by
  rw [Session.call, Session.call, h.perform_eq hw]
  rcases w.perform (s.callOn v family entropy) v.database with ⟨result, db⟩
  exact ⟨rfl, h.putVolume { v with database := db }⟩

/-- What is done with the database of a handle is the same if it is so on both databases. -/
theorem onVolume {handle : String} {n : Nat} (hs : s.OnFile)
    (hn : s.handles.get? handle = some n) {f g : Nat → Volume → Outcome × Session}
    (hfg : ∀ v, s.volumes.get? 0 = some v →
      (g 0 (v.withLayout newestSchema)).1 = (f 0 v).1 ∧
        (g 0 (v.withLayout newestSchema)).2.Mirrors (f 0 v).2) :
    (t.onVolume firstHandle g).1 = (s.onVolume handle f).1 ∧
      (t.onVolume firstHandle g).2.Mirrors (s.onVolume handle f).2 := by
  obtain ⟨v, hv, hv'⟩ := h.volume
  obtain rfl := (hs.handle handle n hn).1
  rw [onVolume_of_get? hn hv, onVolume_of_get? h.handle hv']
  exact hfg v hv

theorem cancelOwn (own : Option Nat) : (t.cancelOwn own).Mirrors (s.cancelOwn own) := by
  cases own with
  | none => exact h
  | some number =>
    rw [Session.cancelOwn, Session.cancelOwn, h.contexts]
    exact h.withContexts _

theorem finish (writes : Option Database) :
    (t.finish 0 (writes.map (withLayout newestSchema))).Mirrors (s.finish 0 writes) := by
  obtain ⟨v, hv, hv'⟩ := h.volume
  refine ⟨h.config, h.contexts, h.handle,
    { v with database := writes.getD v.database, held := none }, ?_, ?_⟩
  · rw [Session.finish, Table.get?_update_self, hv]
    rfl
  · rw [Session.finish, Table.get?_update_self, hv']
    cases writes <;> rfl

/-- The end of a unit of work that others have taken no steps in. -/
theorem conclude (hv : s.volumes.get? 0 = some v)
    (hv' : t.volumes.get? 0 = some (v.withLayout newestSchema)) {before : Database}
    (hbefore : v.database = before) (own : Option Nat) (operation : String) (cancel : Bool)
    (failure : Option StoreError) (writes : Database) (inner : List Outcome) :
    (t.conclude 0 own operation cancel failure (before.withLayout newestSchema)
          (writes.withLayout newestSchema) inner).1 =
        (s.conclude 0 own operation cancel failure before writes inner).1 ∧
      (t.conclude 0 own operation cancel failure (before.withLayout newestSchema)
          (writes.withLayout newestSchema) inner).2.Mirrors
        (s.conclude 0 own operation cancel failure before writes inner).2 := by
  have hown : (if cancel then t.cancelOwn own else t).Mirrors
      (if cancel then s.cancelOwn own else s) := by
    cases cancel with
    | false => exact h
    | true => exact h.cancelOwn own
  have hverdict : (if cancel then t.cancelOwn own else t).verdict own operation cancel failure =
      (if cancel then s.cancelOwn own else s).verdict own operation cancel failure := by
    simp only [verdict, hown.contexts]
  rw [Session.conclude, Session.conclude, hverdict]
  cases (if cancel then s.cancelOwn own else s).verdict own operation cancel failure with
  | error e => exact ⟨rfl, hown.finish none⟩
  | ok _ =>
    subst hbefore
    have hcommit := commit_of_get? (get?_cancel hv own cancel) operation writes
    have hcommit' := commit_of_get? (get?_cancel hv' own cancel) operation
      (writes.withLayout newestSchema)
    change (if cancel then t.cancelOwn own else t).commit 0 operation
      (v.database.withLayout newestSchema) (writes.withLayout newestSchema) = _ at hcommit'
    simp only [hcommit, hcommit', true_and]
    exact hown.finish (some writes)

/-- While a unit of work is open on both, both databases are as they were, with the lock taken where
there is one. -/
theorem holding (hv : s.volumes.get? 0 = some v)
    (hv' : t.volumes.get? 0 = some (v.withLayout newestSchema)) (hold : Hold) :
    (t.holding 0 (v.withLayout newestSchema) hold).Mirrors (s.holding 0 v hold) ∧
      ∃ u, u.database = v.database ∧ (s.holding 0 v hold).volumes.get? 0 = some u ∧
        (t.holding 0 (v.withLayout newestSchema) hold).volumes.get? 0 =
          some (u.withLayout newestSchema) := by
  by_cases hlocks : s.isolation = .unlocked
  · rw [holding_of_unlocked hlocks, holding_of_unlocked (h.isolation_eq.trans hlocks)]
    exact ⟨h, v, rfl, hv, hv'⟩
  · rw [holding_of_ne_unlocked hlocks, holding_of_ne_unlocked (h.isolation_eq ▸ hlocks)]
    exact ⟨h.putVolume { v with held := some hold }, { v with held := some hold }, rfl,
      Table.get?_insert_self .., Table.get?_insert_self ..⟩

/-- A unit of work begins on both databases, or on neither. -/
theorem begin {writes : Work Unit} (hwrites : writes.Overlooks (withLayout newestSchema))
    (v : Volume) (family : Family) (operation : String) (hold : Hold) :
    (∃ e, s.begin 0 v family operation writes hold = (.error e, s) ∧
        t.begin 0 (v.withLayout newestSchema) family operation writes hold = (.error e, t)) ∨
      ∃ db, s.begin 0 v family operation writes hold = (.ok db, s.holding 0 v hold) ∧
        t.begin 0 (v.withLayout newestSchema) family operation writes hold =
          (.ok (db.withLayout newestSchema), t.holding 0 (v.withLayout newestSchema) hold) := by
  have hstart : (Work.start operation *> writes).Overlooks (withLayout newestSchema) := by
    rw [seqRight_eq_bind]
    exact Work.overlooks_bind (Work.overlooks_start _) fun _ => hwrites
  rw [Session.begin, Session.begin, h.perform_eq hstart]
  rcases (Work.start operation *> writes).perform (s.callOn v family 0) v.database with
    ⟨e | _, db⟩
  · exact .inl ⟨e, rfl, rfl⟩
  · exact .inr ⟨db, rfl, rfl⟩

/-- A unit of work that others take no steps in. -/
theorem transaction (hs : s.OnFile) {handle : String} {n : Nat}
    (hn : s.handles.get? handle = some n) {inner : List Step}
    (hinner : inner.all Step.isOutside = true) (context : Option String) (operation : String)
    (models : List String) (cancel : Bool) (failure : Option StoreError) :
    (t.take (.transaction firstHandle context operation models inner cancel failure)).1 =
        (s.take (.transaction handle context operation models inner cancel failure)).1 ∧
      (t.take (.transaction firstHandle context operation models inner cancel failure)).2.Mirrors
        (s.take (.transaction handle context operation models inner cancel failure)).2 := by
  obtain ⟨v, hv, hv'⟩ := h.volume
  obtain rfl := (hs.handle handle n hn).1
  have hvolume := volume?_eq_some_iff.mpr ⟨hn, hv⟩
  have hvolume' := volume?_eq_some_iff.mpr ⟨h.handle, hv'⟩
  cases hfamily : s.family? context with
  | none =>
    rw [take, take, hvolume, hvolume', h.family?_eq, hfamily]
    exact ⟨rfl, h⟩
  | some family =>
    have hfamily' : t.family? context = some family := (h.family?_eq context).trans hfamily
    rcases h.begin (overlooks_seedModels models) v family operation (holdOf models) with
      ⟨e, hbegin, hbegin'⟩ | ⟨writes, hbegin, hbegin'⟩
    · rw [take_transaction_of_error hvolume hfamily hbegin,
        take_transaction_of_error hvolume' hfamily' hbegin']
      exact ⟨rfl, h⟩
    · rw [take_transaction_of_ok hvolume hfamily hbegin,
        take_transaction_of_ok hvolume' hfamily' hbegin']
      obtain ⟨hbegun, u, hu, hget, hget'⟩ := h.holding hv hv' (holdOf models)
      obtain ⟨outcomes, contexts, htaken⟩ :=
        takeAll_of_isOutside hinner (s.holding 0 v (holdOf models)).contexts
      rw [htaken _ rfl, htaken _ hbegun.contexts, hbegun.contexts]
      exact (hbegun.withContexts contexts).conclude hget hget' hu _ operation cancel failure writes
        outcomes

theorem changeFaults (hs : s.OnFile) {handle : String} {n : Nat}
    (hn : s.handles.get? handle = some n) (f : List Fault → List Fault) :
    (t.changeFaults firstHandle f).1 = (s.changeFaults handle f).1 ∧
      (t.changeFaults firstHandle f).2.Mirrors (s.changeFaults handle f).2 := by
  refine h.onVolume hs hn fun v _ => ?_
  have hlocked : (v.withLayout newestSchema).locked = v.locked := rfl
  rw [hlocked]
  cases v.locked with
  | true => exact ⟨rfl, h⟩
  | false => exact ⟨rfl, h.putVolume { v with faults := f v.faults }⟩

/-- **An operation comes to the same through the first handle**, and leaves the same. -/
theorem take (hs : s.OnFile) {step : Step} (hstep : step.isSequential = true)
    (hupkeep : step.isUpkeep = false) (hserves : s.serves step = true) :
    (t.take (step.through firstHandle)).1 = (s.take step).1 ∧
      (t.take (step.through firstHandle)).2.Mirrors (s.take step).2 := by
  by_cases houtside : step.isOutside = true
  · obtain ⟨outcome, contexts, htake⟩ := take_of_isOutside houtside s.contexts
    rw [Step.through_of_isOutside houtside, htake s rfl, htake t h.contexts]
    exact ⟨rfl, h.withContexts contexts⟩
  · cases step with
    | readSchema handle =>
      rw [serves, Bool.and_eq_true] at hserves
      obtain ⟨n, hn⟩ := Option.isSome_iff_exists.mp hserves.1
      refine h.onVolume hs hn fun v hv => ⟨?_, h⟩
      have hbars : t.bars (v.withLayout newestSchema) = s.bars v := by
        rw [bars, bars, h.isolation_eq]
        rfl
      have hversion : (v.withLayout newestSchema).database.schemaVersion =
          v.database.schemaVersion := by
        have hnewest := hserves.2
        rw [hv] at hnewest
        exact (of_decide_eq_true hnewest).symm
      simp only [schemaVersion, hbars, hversion]
    | readConfig handle =>
      obtain ⟨n, hn⟩ := Option.isSome_iff_exists.mp hserves
      exact h.onVolume hs hn fun v _ => ⟨congrArg Outcome.config h.config, h⟩
    | call handle context entropy operation =>
      cases operation with
      | error violation => exact ⟨rfl, h⟩
      | ok operation =>
        obtain ⟨n, hn⟩ := Option.isSome_iff_exists.mp hserves
        refine h.onVolume hs hn fun v _ => ?_
        rw [h.family?_eq]
        cases s.family? context with
        | none => exact ⟨rfl, h⟩
        | some family =>
          obtain ⟨hanswer, hleft⟩ := h.call operation.overlooks_layout v family entropy
          exact ⟨congrArg Outcome.ofAnswer hanswer, hleft⟩
    | setFault handle fault =>
      obtain ⟨n, hn⟩ := Option.isSome_iff_exists.mp hserves
      exact h.changeFaults hs hn _
    | clearFault handle kind table =>
      obtain ⟨n, hn⟩ := Option.isSome_iff_exists.mp hserves
      exact h.changeFaults hs hn _
    | listRows handle table =>
      obtain ⟨n, hn⟩ := Option.isSome_iff_exists.mp hserves
      refine h.onVolume hs hn fun v _ => ?_
      obtain ⟨hanswer, hleft⟩ := h.call (overlooks_rows table) v .background 0
      exact ⟨congrArg Outcome.ofRows hanswer, hleft⟩
    | transaction handle context operation models inner cancel failure =>
      obtain ⟨n, hn⟩ := Option.isSome_iff_exists.mp hserves
      exact h.transaction hs hn hstep context operation models cancel failure
    | adjust handle a =>
      cases a with
      | schemaVersion version => cases hupkeep
      | _ => cases hstep
    | openHandle | migrate => cases hupkeep
    | _ => exact absurd rfl houtside

/-- **All operations come to the same through the first handle**, without any upkeep, and leave the
same. -/
theorem takeAll {config : Config} (hs : s.Idle config) {steps : List Step}
    (hsteps : steps.all Step.isSequential = true) (hserves : s.servesAll steps = true) :
    (t.takeAll (Step.operations steps)).1 = s.answers steps ∧
      (t.takeAll (Step.operations steps)).2.Mirrors (s.takeAll steps).2 := by
  induction steps generalizing s t with
  | nil => exact ⟨rfl, h⟩
  | cons step steps ih =>
    rw [List.all_cons, Bool.and_eq_true] at hsteps
    rw [servesAll, Bool.and_eq_true] at hserves
    obtain ⟨hserves, hrest⟩ := hserves
    rw [Step.operations, List.filter_cons, answers]
    cases hupkeep : step.isUpkeep with
    | true =>
      exact ih ((hs.onFile.upkeeps_take hupkeep).mirrors h) (hs.take step) hsteps.2 hrest
    | false =>
      rw [hupkeep, Bool.false_or] at hserves
      obtain ⟨hanswer, hleft⟩ := h.take hs.onFile hsteps.1 hupkeep hserves
      obtain ⟨hanswers, hend⟩ := ih hleft (hs.take step) hsteps.2 hrest
      exact ⟨List.cons_eq_cons.mpr ⟨hanswer, hanswers⟩, hend⟩

end Mirrors

end Session

end RunLedger
