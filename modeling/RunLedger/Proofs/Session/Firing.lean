import RunLedger.Proofs.Session.ContextHistory
import RunLedger.Proofs.Session.OnFile
import RunLedger.Proofs.Trace

/-!
# Contexts fire once and for all

A context has fired from the moment on at which it, or another context of its family, is cancelled
or its time is over, and it never comes back. Neither the wall clock nor other families make a
difference. In a session the contexts are changed only by steps that say so, and by units of work
that cancel their own. Calls that are made with a context that has fired, and units of work, fail
before they read or write anything.

## Main definitions

* `ContextHistory.Fires`: the latest event cancels a family, or its time is over.
* `Step.Timely`, `Step.AllTimely`: the steps, and those taken within units of work, never move the
  monotonic clock back.

## Main results

* `Session.contexts_takeAll`: what happens to the contexts while steps are taken.
* `Session.callThrough_of_fired`, `Session.take_transaction_of_fired`: what is done with a context
  that has fired fails and leaves the session as it was.
* `contexts_fire_once_and_for_all`: when checks fail, and that they do so for good.
-/

namespace RunLedger

open Work ContextHistory

/-! ### What leaves a family alone -/

namespace ContextHistory

/-- The latest event cancels a context of the family, or the time given to it is over. -/
def Fires (past : ContextHistory) (i : Nat) : Prop := past.Cancels i ∨ past.IsDue i

theorem ever_fires_iff {past : ContextHistory} {i : Nat} :
    Ever (Fires · i) past ↔ Ever (Cancels · i) past ∨ Ever (IsDue · i) past := by
  simp only [Ever, Fires, and_or_left, exists_or]

/-- What moves no monotonic clock and does not cancel the family makes no difference to it. -/
theorem ever_fires_cons_iff {event : ContextEvent} {past : ContextHistory} {i : Nat}
    (hi : i < past.creations) (hclock : ∀ ms, event ≠ .advance ms)
    (hcancels : ¬ Cancels (event :: past) i) :
    Ever (Fires · i) (event :: past) ↔ Ever (Fires · i) past := by
  refine ⟨fun h => ?_, fun h => h.append [event]⟩
  rcases ever_cons.mp h with (hnow | hdue) | hbefore
  · exact absurd hnow hcancels
  · have hpast : past.IsDue i := by
      cases event with
      | advance ms => exact absurd rfl (hclock ms)
      | create name timeout =>
        obtain ⟨start, timeout', hcreation, hle⟩ := hdue
        rw [creation?, if_neg hi.ne] at hcreation
        exact ⟨start, timeout', hcreation, hle⟩
      | _ => exact hdue
    exact ⟨past, List.suffix_refl past, .inr hpast⟩
  · exact hbefore

end ContextHistory

/-! ### Steps and the clock -/

mutual

/-- The step, and those taken within it, never move the monotonic clock back. -/
def Step.Timely : Step → Prop
  | .advance ms => 0 ≤ ms
  | .transaction _ _ _ _ inner _ _ => Step.AllTimely inner
  | _ => True

/-- No step of these moves the monotonic clock back. -/
def Step.AllTimely : List Step → Prop
  | [] => True
  | step :: steps => step.Timely ∧ Step.AllTimely steps

end

namespace Session

variable {s : Session}

/-! ### What happens to contexts in a session -/

/-- Between two sessions nothing has happened to the contexts but some events, in which the
monotonic clock does not go back. -/
def Elapses (s s' : Session) : Prop :=
  ∃ later : ContextHistory, later.Timely ∧
    s'.contexts = later.foldr ContextEvent.apply s.contexts

theorem elapses_of_contexts_eq {s' : Session} (h : s'.contexts = s.contexts) : s.Elapses s' :=
  ⟨[], nofun, h⟩

theorem elapses_of_event {s' : Session} (event : ContextEvent)
    (htimely : ∀ ms, event = .advance ms → 0 ≤ ms)
    (h : s'.contexts = event.apply s.contexts) : s.Elapses s' :=
  ⟨[event], fun ms hms => htimely ms (List.mem_singleton.mp hms).symm, h⟩

theorem Elapses.trans {s' s'' : Session} (h : s.Elapses s') (h' : s'.Elapses s'') :
    s.Elapses s'' := by
  obtain ⟨later, hlater, hcontexts⟩ := h
  obtain ⟨latest, hlatest, hcontexts'⟩ := h'
  exact ⟨latest ++ later, hlatest.append hlater, by
    rw [List.foldr_append, ← hcontexts, hcontexts']⟩

theorem elapses_onVolume {handle : String} {f : Nat → Volume → Outcome × Session}
    (hf : ∀ n v, (f n v).2.contexts = s.contexts) : s.Elapses (s.onVolume handle f).2 := by
  refine elapses_of_contexts_eq ?_
  rw [onVolume]
  cases s.volume? handle with
  | none => rfl
  | some nv => exact hf nv.1 nv.2

theorem contexts_open (handle : String) : (s.open handle).2.contexts = s.contexts := by
  rw [open_eq]
  cases (s.closed handle).openVolume <;> rfl

theorem contexts_migrate (n : Nat) (v : Volume) : (s.migrate n v).2.contexts = s.contexts := by
  rw [migrate]
  cases s.schemaVersion v *> v.migrate .free <;> rfl

theorem elapses_changeFaults (handle : String) (f : List Fault → List Fault) :
    s.Elapses (s.changeFaults handle f).2 :=
  elapses_onVolume fun _ _ => by split <;> rfl

theorem elapses_changeContexts {contexts : Option Contexts} (event : ContextEvent)
    (htimely : ∀ ms, event ≠ .advance ms) (h : event.apply s.contexts = contexts.getD s.contexts) :
    s.Elapses (s.changeContexts contexts).2 := by
  refine elapses_of_event event (fun ms hms => absurd hms (htimely ms)) ?_
  rw [h]
  cases contexts <;> rfl

/-- A unit of work that ends may cancel its own context. -/
theorem elapses_conclude (n : Nat) (own : Option Nat) (operation : String) (cancel : Bool)
    (failure : Option StoreError) (before writes : Database) (inner : List Outcome) :
    s.Elapses (s.conclude n own operation cancel failure before writes inner).2 := by
  have hown : s.Elapses (if cancel then s.cancelOwn own else s) := by
    cases cancel with
    | false => exact elapses_of_contexts_eq rfl
    | true =>
      cases own with
      | none => exact elapses_of_contexts_eq rfl
      | some number => exact elapses_of_event (.cancelFamily number) nofun rfl
  refine hown.trans (elapses_of_contexts_eq ?_)
  obtain ⟨writes', hend⟩ := conclude_cases s n own operation cancel failure before writes inner
  rw [hend]
  rfl

mutual

/-- **What happens to the contexts in one step.** -/
theorem contexts_take (s : Session) :
    (step : Step) → step.Timely → s.Elapses (s.take step).2
  | .setClock wall, _ => elapses_of_event (.setWall wall) nofun rfl
  | .advance ms, hms =>
    elapses_of_event (.advance ms) (fun _ h => ContextEvent.advance.inj h ▸ hms) rfl
  | .newContext name timeout, _ => elapses_of_event (.create name timeout) nofun rfl
  | .cloneContext name source, _ => elapses_changeContexts (.clone name source) nofun rfl
  | .cancelContext name, _ => elapses_changeContexts (.cancel name) nofun rfl
  | .readClock, _ => elapses_of_contexts_eq rfl
  | .inspectContext name, _ => by
    refine elapses_of_contexts_eq ?_
    rw [take]
    cases s.contexts.family? name <;> rfl
  | .checkContext name _, _ => by
    refine elapses_of_contexts_eq ?_
    rw [take]
    cases s.contexts.family? name <;> rfl
  | .openHandle handle, _ => by
    rw [take_openHandle_snd]
    exact elapses_of_contexts_eq (contexts_open handle)
  | .readSchema _, _ => elapses_onVolume fun _ _ => rfl
  | .migrate _, _ => elapses_onVolume contexts_migrate
  | .readConfig _, _ => elapses_onVolume fun _ _ => rfl
  | .call _ _ _ (.error _), _ => elapses_of_contexts_eq rfl
  | .call _ context _ (.ok _), _ => elapses_onVolume fun _ _ => by
    cases s.family? context <;> rfl
  | .adjust _ _, _ => elapses_onVolume fun _ _ => rfl
  | .setFault _ _, _ => elapses_changeFaults _ _
  | .clearFault _ _ _, _ => elapses_changeFaults _ _
  | .listRows _ _, _ => elapses_onVolume fun _ _ => rfl
  | .transaction handle context operation models inner cancel failure, htimely => by
    rcases s.take_transaction_cases handle context operation models inner cancel failure with
      ⟨outcome, -, htake⟩ | ⟨n, v, family, writes, -, -, -, htake⟩ <;> rw [htake]
    · exact elapses_of_contexts_eq rfl
    · have hbegun : s.Elapses (s.holding n v (holdOf models)) :=
        elapses_of_contexts_eq (s.holding_eq n v (holdOf models)).2.2
      exact hbegun.trans ((contexts_takeAll _ inner htimely).trans (elapses_conclude ..))

/-- **What happens to the contexts while steps are taken.** -/
theorem contexts_takeAll (s : Session) :
    (steps : List Step) → Step.AllTimely steps → s.Elapses (s.takeAll steps).2
  | [], _ => elapses_of_contexts_eq rfl
  | step :: steps, htimely =>
    (contexts_take s step htimely.1).trans (contexts_takeAll (s.take step).2 steps htimely.2)

end

/-! ### What is done with a context that has fired -/

variable {context : Option String} {family : Family} {cause : Interrupt}

/-- A call with a context that has fired fails and leaves the session as it was. -/
theorem callThrough_of_fired (hfamily : s.family? context = some family)
    (hfired : s.contexts.interrupt? family = some cause) {handle : String}
    (hopen : (s.volume? handle).isSome = true) (entropy : Nat) (operation : Operation) :
    ∃ e, s.callThrough handle context entropy operation = (.failed e, s) := by
  obtain ⟨⟨n, v⟩, hnv⟩ := Option.isSome_iff_exists.mp hopen
  obtain ⟨hn, hv⟩ := volume?_eq_some_iff.mp hnv
  obtain ⟨e, he⟩ := operation.stops_of_hasFired (s.callOn v family entropy) v.database
    ⟨cause, hfired⟩
  refine ⟨e, ?_⟩
  rw [callThrough_of_get? hn hv hfamily, call_eq_self hv (by rw [he]), he]
  rfl

/-- A unit of work with a context that has fired does not begin. -/
theorem take_transaction_of_fired (hfamily : s.family? context = some family)
    (hfired : s.contexts.interrupt? family = some cause) {handle : String}
    (hopen : (s.volume? handle).isSome = true) (operation : String) (models : List String)
    (inner : List Step) (cancel : Bool) (failure : Option StoreError) :
    ∃ e, s.take (.transaction handle context operation models inner cancel failure) =
      (.rolledBack e [], s) := by
  obtain ⟨⟨n, v⟩, hnv⟩ := Option.isSome_iff_exists.mp hopen
  have hstart : (Work.start operation *> seedModels models).Stops Call.HasFired := by
    rw [seqRight_eq_bind]
    exact stops_bind (stops_start_of_hasFired operation) _
  obtain ⟨e, he⟩ := hstart (s.callOn v family 0) v.database ⟨cause, hfired⟩
  have hbegin : s.begin n v family operation (seedModels models) (holdOf models) =
      (.error e, s) := by
    rw [begin, he]
  exact ⟨e, take_transaction_of_error hnv hfamily hbegin inner cancel failure⟩

end Session

/-- What a check of a context comes to, by what has happened to its family. -/
theorem Contexts.check_after (wall : Int) {past : ContextHistory} (htimely : past.Timely)
    {name : String} {i : Nat} (hname : past.family? name = some i) :
    ∃ f, (after wall past).family? name = some f ∧ ∀ operation,
      ((after wall past).check f operation = .ok () ↔ ¬ Ever (Fires · i) past) ∧
      ((after wall past).check f operation = .error (.interrupted operation .cancelled) ↔
        Ever (Cancels · i) past) ∧
      ((after wall past).check f operation = .error (.interrupted operation .pastDeadline) ↔
        ¬ Ever (Cancels · i) past ∧ Ever (IsDue · i) past) := by
  have hfollows := follows_after wall past
  obtain ⟨f, hf⟩ : ∃ f, (after wall past).families.get? i = some f := by
    rw [← Table.mem_keys_iff, hfollows.numbers, List.mem_range]
    exact family?_lt hname
  obtain ⟨hcancelled, hdue⟩ := hfollows.interrupt? htimely hf
  refine ⟨f, by rw [family?, hfollows.names, hname, Option.bind_some, hf], fun operation => ?_⟩
  rw [← hdue, ← hcancelled, ever_fires_iff, ← hcancelled, check]
  cases hinterrupt : (after wall past).interrupt? f with
  | none =>
    rw [hinterrupt] at hcancelled hdue
    have hcancels : ¬ Ever (Cancels · i) past := fun h => nomatch hcancelled.mpr h
    have hnever : ¬ Ever (IsDue · i) past := fun h => nomatch hdue.mpr ⟨hcancels, h⟩
    simp [hnever]
  | some cause =>
    cases cause with
    | cancelled => simp
    | pastDeadline => simp [(hdue.mp hinterrupt).2]

/-- **Contexts fire once and for all.** Whatever contexts are created, cloned and cancelled, and
however the clocks move, as long as the monotonic clock does not go back: a check of a context fails
if and only if at some moment up to now one of its family has been cancelled, or the monotonic clock
has reached the creation of the family plus the time given to it; and it says which. Nothing else
that happens makes a difference, be it to the wall clock or to other families. In a session this
goes on while steps are taken, so a family that has fired has fired for good; and a call or a unit
of work with a context that has fired fails and leaves the session as it was. Every call, and every
unit of work with any body, fails under a context that has fired when it starts, and changes nothing
in the database. -/
theorem contexts_fire_once_and_for_all :
    (∀ wall (past : ContextHistory), past.Timely → ∀ name i, past.family? name = some i →
      ∃ f, (Contexts.after wall past).family? name = some f ∧ ∀ operation,
        ((Contexts.after wall past).check f operation = .ok () ↔ ¬ Ever (Fires · i) past) ∧
        ((Contexts.after wall past).check f operation =
            .error (.interrupted operation .cancelled) ↔ Ever (Cancels · i) past) ∧
        ((Contexts.after wall past).check f operation =
            .error (.interrupted operation .pastDeadline) ↔
          ¬ Ever (Cancels · i) past ∧ Ever (IsDue · i) past)) ∧
    (∀ (past : ContextHistory) i event, i < past.creations → (∀ ms, event ≠ .advance ms) →
      ¬ Cancels (event :: past) i →
      (Ever (Fires · i) (event :: past) ↔ Ever (Fires · i) past)) ∧
    (∀ (s : Session) wall (past : ContextHistory), s.contexts = Contexts.after wall past →
      past.Timely →
      (∀ steps, Step.AllTimely steps → ∃ later : ContextHistory, Timely (later ++ past) ∧
        (s.takeAll steps).2.contexts = Contexts.after wall (later ++ past) ∧
        ∀ i, Ever (Fires · i) past → Ever (Fires · i) (later ++ past)) ∧
      ∀ name i, past.family? name = some i → Ever (Fires · i) past →
        ∀ handle, (s.volume? handle).isSome = true →
          (∀ entropy operation, ∃ e,
            s.take (.call handle (some name) entropy (.ok operation)) = (.failed e, s)) ∧
          ∀ operation models inner cancel failure, ∃ e,
            s.take (.transaction handle (some name) operation models inner cancel failure) =
              (.rolledBack e [], s)) ∧
    ∀ (call : Call) db, call.HasFired →
      (∀ operation : Operation, ∃ e, operation.run.perform call db = (.error e, db)) ∧
      ∀ {α : Type} name (body : Work α), ∃ e,
        (transact name body).perform call db = (.error e, db) := by
  refine ⟨fun wall past htimely name i => Contexts.check_after wall htimely,
    fun past i event => ever_fires_cons_iff, fun s wall past hs htimely => ⟨?_, ?_⟩,
    fun call db hfired => ⟨fun operation => operation.stops_of_hasFired call db hfired,
      fun name body => stops_transact_of_hasFired name body call db hfired⟩⟩
  · intro steps hsteps
    obtain ⟨later, hlater, hcontexts⟩ := s.contexts_takeAll steps hsteps
    refine ⟨later, hlater.append htimely, ?_, fun i h => h.append later⟩
    rw [hcontexts, hs, Contexts.after, Contexts.after, List.foldr_append]
  · intro name i hname hfires handle hopen
    obtain ⟨f, hf, hcheck⟩ := Contexts.check_after wall htimely hname
    have hfamily : s.family? (some name) = some f := by rw [Session.family?, hs, hf]
    obtain ⟨cause, hcause⟩ : ∃ cause, s.contexts.interrupt? f = some cause := by
      rw [hs, ← Option.ne_none_iff_exists']
      intro hnone
      exact (hcheck "").1.mp (by rw [Contexts.check, hnone]) hfires
    exact ⟨Session.callThrough_of_fired hfamily hcause hopen,
      Session.take_transaction_of_fired hfamily hcause hopen⟩

/-- A context is given five milliseconds and cloned, and they pass while the wall clock is set. -/
private def fiveMilliseconds : ContextHistory :=
  [.setWall 0, .advance 3, .clone "d" "c", .advance 2, .create "c" (some 5), .create "b" none]

private def afterFiveMilliseconds : Session :=
  { ((Session.start Call.plain.config (.bare []) 0).open "a").2 with
    contexts := Contexts.after 9 fiveMilliseconds }

/-- The clone fires with its source, and with it nothing can be done. -/
theorem clone_fires_with_its_source :
    Timely fiveMilliseconds ∧ family? fiveMilliseconds "d" = some 1 ∧
      (∃ f, (Contexts.after 9 fiveMilliseconds).family? "d" = some f ∧
        (Contexts.after 9 fiveMilliseconds).check f "get" =
          .error (.interrupted "get" .pastDeadline)) ∧
      (∃ e, afterFiveMilliseconds.take (.call "a" (some "d") 0 (.ok (.getModel "m"))) =
        (.failed e, afterFiveMilliseconds)) ∧
      let call := { Call.plain with pulse := fun _ => some .cancelled }
      call.HasFired ∧ ∃ e, (Operation.deleteModel "m").run.perform call .oneVersion =
        (.error e, .oneVersion) := by
  obtain ⟨hchecks, -, hsessions, hcalls⟩ := contexts_fire_once_and_for_all
  have htimely : Timely fiveMilliseconds := by
    intro ms hms
    simp only [fiveMilliseconds, List.mem_cons, List.not_mem_nil] at hms
    rcases hms with h | h | h | h | h | h | h <;> cases h <;> decide
  have hname : family? fiveMilliseconds "d" = some 1 := by decide
  have hdue : Ever (IsDue · 1) fiveMilliseconds :=
    ⟨_, List.suffix_refl _, 0, 5, by decide, by decide⟩
  have hcancels : ¬ Ever (Cancels · 1) fiveMilliseconds := by
    simp [fiveMilliseconds, ever_cons, ever_nil, Cancels]
  obtain ⟨f, hf, hcheck⟩ := hchecks 9 _ htimely "d" 1 hname
  have hfired : Call.HasFired { Call.plain with pulse := fun _ => some .cancelled } := ⟨_, rfl⟩
  exact ⟨htimely, hname, ⟨f, hf, (hcheck "get").2.2.mpr ⟨hcancels, hdue⟩⟩,
    ((hsessions afterFiveMilliseconds 9 _ rfl htimely).2 "d" 1 hname
      (ever_fires_iff.mpr (.inr hdue)) "a" (by decide +kernel)).1 0 _,
    hfired, (hcalls _ .oneVersion hfired).1 (.deleteModel "m")⟩

end RunLedger
