import RunLedger.Proofs.CommandLine.Opening
import RunLedger.Proofs.CommandLine.Reporting
import RunLedger.Proofs.Work.Permission

/-!
# Command lines do what their calls do

A command line stands for one call on the database of its configuration. If it exits successfully,
that database is what the call makes of it, and what is printed is what there is to print for the
answer. If it fails, nothing that is stored has changed, and the failure is that of the part that
could not be carried out: the configuration, the opening of the database, an argument, or the call.
The reading that may follow a call is not among them.

One way to fail goes without a message: a waiting time that is too long to be kept stops the
program when it opens the database.

## Main definitions

* `Failure.raised?`: the error behind a failure.
* `Invocation.Succeeds`, `Invocation.Fails`: what it is for a command to succeed or to fail.
* `Invocation.Ends`: how a command may end.
* `runAll`: command lines one after the other.

## Main results

* `Invocation.carryOut_cases`: what becomes of a command on an open database.
* `Invocation.ends_execute`: carrying a command out.
* `storesReachable_runAll`: command lines lead where calls lead.
* `commands_refine_calls`: every command line does what its call does.
* `not_every_failure_is_reported`: some failures come without a code.
-/

namespace RunLedger

namespace CommandLine

open Database

/-- The error of the ledger behind a failure, if there is one. -/
def Failure.raised? : Failure → Option StoreError
  | store e | opening _ e | badConfig _ e => some e
  | unreadable _ _ | noConfig _ | noMetrics _ => none

/-- **The code of a failure is that of the error behind it**, or that of internal errors. -/
theorem Failure.code_eq (f : Failure) :
    f.code = match f.raised? with
      | some e => e.code
      | none => .internalError := by
  cases f <;> rfl

/-! ### Carrying a command out -/

/-- The text that is printed for a JSON value. -/
def printedText (json : Json) : String := String.ofList (json.printLines 0) ++ "\n"

section Commands

variable (i : Invocation) (s : Surroundings) (left : FileTree)

/-- The command succeeds: it leaves some files and prints a text. -/
inductive Invocation.Succeeds : String → Prop
  /-- Migrating changes nothing that is stored. -/
  | migrate {config : Config} (hcommand : i.command = .migrate)
      (hconfig : i.config s.files = .ok config)
      (hleft : left.Holds (config.place? s.files) (config.databaseIn s.files)) :
      Succeeds (printedText (Json.ofFields
        [("path", .ofString config.path), ("schema_version", .ofInt newestSchema)]))
  /-- The database is what the call makes of it, and it is not changed by a call that only reads.
  What is printed is what there is to print for the answer. -/
  | call {config : Config} {opened : Opened} {request : Request} {answer : Answer}
      {after : Database} {json : Json} (hconfig : i.config s.files = .ok config)
      (hopened : openDatabase config s.files = .ok opened)
      (hrequest : i.command.request { s with files := opened.filesDuring s.files } =
        .ok (some request))
      (hcall : request.operation.run.Yields (i.call config s opened.writing)
        ((config.databaseIn s.files).withLayout newestSchema) answer after)
      (hread : request.operation.isRead = true →
        after = (config.databaseIn s.files).withLayout newestSchema)
      (hleft : left.Holds (config.place? s.files) after)
      (hprints : request.operation.report.Prints (i.call config s opened.writing) answer after
        json) :
      Succeeds (printedText json)

/-- The command fails: it leaves all that is stored as it was, and comes to some result. -/
inductive Invocation.Fails : Result → Prop
  /-- There is no configuration. -/
  | config {failure : Failure} (hconfig : i.config s.files = .error failure)
      (hleft : left = s.files) : Fails (.failed failure)
  /-- The database cannot be opened. -/
  | opening {config : Config} {e : StoreError} (hconfig : i.config s.files = .ok config)
      (hopened : openDatabase config s.files = .error (e, left))
      (hleft : left.Holds (config.place? s.files) (config.databaseIn s.files)) :
      Fails (.failed (.opening config.path e))
  /-- An argument does not do for the call. -/
  | request {config : Config} {opened : Opened} {failure : Failure}
      (hconfig : i.config s.files = .ok config)
      (hopened : openDatabase config s.files = .ok opened)
      (hrequest : i.command.request { s with files := opened.filesDuring s.files } =
        .error failure)
      (hleft : left.Holds (config.place? s.files) (config.databaseIn s.files)) :
      Fails (.failed failure)
  /-- The call fails. -/
  | call {config : Config} {opened : Opened} {request : Request} {e : StoreError}
      (hconfig : i.config s.files = .ok config)
      (hopened : openDatabase config s.files = .ok opened)
      (hrequest : i.command.request { s with files := opened.filesDuring s.files } =
        .ok (some request))
      (hcall : request.operation.run.Raises (i.call config s opened.writing)
        ((config.databaseIn s.files).withLayout newestSchema) e)
      (hleft : left.Holds (config.place? s.files) (config.databaseIn s.files)) :
      Fails (.failed (.store e))
  /-- The waiting time is too long to be kept. -/
  | stop {config : Config} (hconfig : i.config s.files = .ok config)
      (hwait : config.canWait = false)
      (hleft : left.Holds (config.place? s.files) (config.databaseIn s.files)) :
      Fails .stopped

end Commands

theorem ne_opening_of_configIn {files : FileTree} {file : String} {failure : Failure}
    (h : configIn files file = .error failure) (path : String) (e : StoreError) :
    failure ≠ .opening path e := by
  rw [configIn] at h
  split at h
  · cases h
    nofun
  · split at h
    · cases h
      nofun
    · split at h
      · cases h
      · cases h
        nofun

theorem ne_opening_of_config {i : Invocation} {files : FileTree} {failure : Failure}
    (h : i.config files = .error failure) (path : String) (e : StoreError) :
    failure ≠ .opening path e := by
  rw [Invocation.config] at h
  split at h
  · next file _ =>
    cases hfile : configIn files file with
    | ok config =>
      rw [hfile] at h
      cases h
    | error failure' =>
      rw [hfile] at h
      cases h
      exact ne_opening_of_configIn hfile path e
  · cases h

theorem ofAnswer_error {failure : Failure} (h : ∀ path, failure ≠ .opening path .waitTooLong) :
    Result.ofAnswer (.error failure) = .failed failure := by
  rw [Result.ofAnswer.eq_def]
  split
  · next heq => cases heq
  · next path heq => exact absurd (Except.error.inj heq) (h path)
  · next heq => rw [Except.error.inj heq]

/-- **What becomes of a command on an open database**: an argument does not do, or there is nothing
to do but migrating, or the call is made. -/
theorem Invocation.carryOut_cases (i : Invocation) (config : Config) (s : Surroundings) (o : Opened)
    (hdb : Reachable o.database) :
    (∃ failure, i.command.request { s with files := o.filesDuring s.files } = .error failure ∧
        (∀ path e, failure ≠ .opening path e) ∧ i.carryOut config s o = (.error failure, o)) ∨
      (i.command = .migrate ∧
        i.carryOut config s o = (.ok (migrationNote config.path o.database), o)) ∨
      ∃ request, i.command.request { s with files := o.filesDuring s.files } =
          .ok (some request) ∧
        ((∃ e, request.operation.run.Raises (i.call config s o.writing) o.database e ∧
            i.carryOut config s o = (.error (.store e), o)) ∨
          ∃ answer after json,
            request.operation.run.Yields (i.call config s o.writing) o.database answer after ∧
            request.operation.report.Prints (i.call config s o.writing) answer after json ∧
            i.carryOut config s o = (.ok json, o.update after)) := by
  have hfits := i.command.fits_request { s with files := o.filesDuring s.files }
  rw [carryOut]
  cases hrequest : i.command.request { s with files := o.filesDuring s.files } with
  | error failure =>
    rw [hrequest] at hfits
    exact .inl ⟨failure, rfl, hfits, rfl⟩
  | ok request? =>
    rw [hrequest] at hfits
    cases request? with
    | none => exact .inr (.inl ⟨hfits, rfl⟩)
    | some request =>
      refine .inr (.inr ⟨request, rfl, ?_⟩)
      have hvisible (table : TableName) : (i.call config s o.writing).hidden table = false := rfl
      rcases request.perform_cases hfits hdb hvisible with
        ⟨e, hraises, hperform⟩ | ⟨answer, after, json, hyields, hprints, hperform⟩
      · have hunchanged : o.update o.database = o := if_pos rfl
        refine .inl ⟨e, hraises, ?_⟩
        simp only [hperform, hunchanged]
      · refine .inr ⟨answer, after, json, hyields, hprints, ?_⟩
        simp only [hperform]

/-- How a command may end. -/
def Invocation.Ends (i : Invocation) (s : Surroundings) (left : FileTree) : Result → Prop
  | .printed text => i.Succeeds s left text
  | result => i.Fails s left result

/-- **Carrying a command out** does what its call does, or fails and changes nothing. -/
theorem Invocation.ends_execute (i : Invocation) {s : Surroundings}
    (hfiles : s.files.StoresReachable) :
    (i.execute s).2.StoresReachable ∧ i.Ends s (i.execute s).2 (.ofAnswer (i.execute s).1) := by
  rw [execute]
  cases hconfig : i.config s.files with
  | error failure =>
    refine ⟨hfiles, ?_⟩
    rw [ofAnswer_error fun path => ne_opening_of_config hconfig path _]
    exact .config hconfig rfl
  | ok config =>
    simp only
    cases hopened : openDatabase config s.files with
    | error failure =>
      obtain ⟨e, left⟩ := failure
      obtain ⟨hreachable, hleft, hwait⟩ := of_openDatabase_error hfiles hopened
      refine ⟨hreachable, ?_⟩
      by_cases he : e = .waitTooLong
      · subst he
        exact .stop hconfig (hwait rfl) hleft
      · rw [ofAnswer_error fun path h => he (Failure.opening.inj h).2]
        exact .opening hconfig hopened hleft
    | ok opened =>
      obtain ⟨hdatabase, hclosed⟩ := of_openDatabase hfiles hopened
      have hreachable : Reachable opened.database := hdatabase ▸ hfiles.databaseIn config
      have hunchanged := unchanged_of_openDatabase hfiles hopened
      simp only
      rcases i.carryOut_cases config s opened hreachable with
        ⟨failure, hrequest, hfailure, hcarry⟩ | ⟨hcommand, hcarry⟩ | ⟨request, hrequest, hcall⟩
      · rw [hcarry, ofAnswer_error fun path => hfailure path _]
        exact ⟨hunchanged.1, .request hconfig hopened hrequest hunchanged.2⟩
      · rw [hcarry]
        refine ⟨hunchanged.1, ?_⟩
        have hversion : opened.database.schemaVersion = newestSchema := by
          rw [hdatabase]
          rfl
        rw [migrationNote, hversion]
        exact .migrate hcommand hconfig hunchanged.2
      · rcases hcall with ⟨e, hraises, hcarry⟩ | ⟨answer, after, json, hyields, hprints, hcarry⟩
        · have hstore (path : String) : Failure.store e ≠ .opening path .waitTooLong := nofun
          rw [hcarry, ofAnswer_error hstore]
          exact ⟨hunchanged.1, .call hconfig hopened hrequest (hdatabase ▸ hraises) hunchanged.2⟩
        · rw [hcarry]
          obtain ⟨hstores, hleft⟩ := hclosed after
            (fun hwriting => Operation.eq_of_writing_ne_free hwriting hyields)
            (hreachable.of_yields hyields)
          rw [hdatabase] at hyields
          exact ⟨hstores, .call hconfig hopened hrequest hyields
            (fun hread => Operation.eq_of_isRead hread hyields) hleft hprints⟩

/-! ### Whole command lines -/

/-- A command line that keeps to the grammar comes to what its command comes to. -/
theorem run_of_invocation? {args : List String} {s : Surroundings} {i : Invocation}
    (hi : invocation? args s.database = some i) :
    run args s = (.ofAnswer (i.execute s).1, (i.execute s).2) := by
  rw [run, hi]
  cases hlevels : Levels.ofArguments args with
  | complete path levels => rfl
  | help | refused => simp [invocation?, hlevels] at hi

theorem storesReachable_run (args : List String) {s : Surroundings}
    (hfiles : s.files.StoresReachable) : (run args s).2.StoresReachable := by
  cases hi : invocation? args s.database with
  | some i =>
    rw [run_of_invocation? hi]
    exact (i.ends_execute hfiles).1
  | none =>
    rw [run, hi]
    cases Levels.ofArguments args <;> exact hfiles

/-- The files after command lines that are run one after the other, each in its own surroundings but
on the files that the one before has left. -/
def runAll : List (List String × Surroundings) → FileTree → FileTree
  | [], files => files
  | (args, s) :: rest, files => runAll rest (run args { s with files }).2

/-- **Command lines lead where calls lead.** -/
theorem storesReachable_runAll (lines : List (List String × Surroundings)) {files : FileTree}
    (hfiles : files.StoresReachable) : (runAll lines files).StoresReachable := by
  induction lines generalizing files with
  | nil => exact hfiles
  | cons line rest ih => exact ih (storesReachable_run line.1 (s := { line.2 with files }) hfiles)

/-- **Every command line does what its call does.** On files whose databases calls and earlier
command lines have led to, a command line that exits successfully leaves the database that its call
makes of the one before, and prints what there is to print for the answer. One that fails changes
nothing that is stored, and a failure that is reported has the code of the error behind it, or that
of internal errors if no error of the ledger is behind it. -/
theorem commands_refine_calls {files : FileTree} (hfiles : files.StoresReachable)
    (history : List (List String × Surroundings)) {args : List String} {s : Surroundings}
    (hs : s.files = runAll history files) {i : Invocation}
    (hi : invocation? args s.database = some i) :
    ((run args s).1.exitCode = 0 → i.Succeeds s (run args s).2 (run args s).1.output) ∧
      ((run args s).1.exitCode ≠ 0 → i.Fails s (run args s).2 (run args s).1) ∧
      (∀ failure, (run args s).1 = .failed failure →
        failure.code = match failure.raised? with
          | some e => e.code
          | none => .internalError) ∧
      (run args s).2.StoresReachable := by
  have hreachable : s.files.StoresReachable := hs ▸ storesReachable_runAll history hfiles
  obtain ⟨hstores, hends⟩ := i.ends_execute hreachable
  rw [run_of_invocation? hi]
  refine ⟨fun hsuccess => ?_, fun hfailure => ?_, fun failure _ => failure.code_eq, hstores⟩
  · cases hresult : Result.ofAnswer (i.execute s).1 with
    | printed text =>
      rw [hresult] at hends
      exact hends
    | help =>
      rw [hresult] at hends
      cases hends
    | failed | stopped | misused =>
      rw [hresult] at hsuccess
      cases hsuccess
  · cases hresult : Result.ofAnswer (i.execute s).1 with
    | printed text =>
      rw [hresult] at hfailure
      exact absurd rfl hfailure
    | help | failed | stopped | misused =>
      rw [hresult] at hends
      exact hends

/-- Where the database of the environment is in a file that is not there yet. -/
private def newcomer : Surroundings where
  now := 0
  entropy := 0
  database := some "x.db"
  files := .bare []

/-- A command line that creates a model. -/
private def creation : List (List String × Surroundings) :=
  [(["model", "create", "--name", "m"], newcomer)]

/-- Where that has been run. -/
private def resident : Surroundings := { newcomer with files := runAll creation newcomer.files }

/-- A command line that tags the model. -/
private def tagging : List String :=
  ["model", "set-tag", "--name", "m", "--key", "k", "--value", "v"]

/-- The model that one command line has created is there for another one to tag. -/
theorem created_model_is_tagged_by_command_line :
    newcomer.files.StoresReachable ∧ (run tagging resident).1.exitCode = 0 ∧
      ∃ i, invocation? tagging resident.database = some i ∧
        i.Succeeds resident (run tagging resident).2 (run tagging resident).1.output := by
  have hfiles : newcomer.files.StoresReachable :=
    FileTree.storesReachable_of_all (by decide +kernel)
  have hsuccess : (run tagging resident).1.exitCode = 0 := by decide +kernel
  have hgrammar : (invocation? tagging resident.database).isSome = true := by decide +kernel
  obtain ⟨i, hi⟩ := Option.isSome_iff_exists.mp hgrammar
  exact ⟨hfiles, hsuccess, i, hi, (commands_refine_calls hfiles creation rfl hi).1 hsuccess⟩

/-- Where a configuration sets a waiting time that is too long by one millisecond. -/
private def overdue : Surroundings where
  now := 0
  entropy := 0
  database := none
  files := (FileTree.bare []).addText "c.toml" "path='x.db'\nbusy_timeout_ms=2147483648"

/-- **Not every failure is reported.** A waiting time that is too long stops the program, with
neither a code nor a message, although no rule for configurations forbids it. -/
theorem not_every_failure_is_reported :
    ¬ ∀ (args : List String) (s : Surroundings) (i : Invocation), s.files.StoresReachable →
      invocation? args s.database = some i → (run args s).1.exitCode ≠ 0 →
        ∃ failure, (run args s).1 = .failed failure := by
  intro hreported
  let args := ["--config", "c.toml", "migrate"]
  have hfiles : overdue.files.StoresReachable :=
    FileTree.storesReachable_of_all (by decide +kernel)
  have hstopped : (run args overdue).1 = .stopped := by decide +kernel
  have hgrammar : (invocation? args overdue.database).isSome = true := by decide +kernel
  obtain ⟨i, hi⟩ := Option.isSome_iff_exists.mp hgrammar
  have hexit : (run args overdue).1.exitCode ≠ 0 := by
    rw [hstopped]
    decide
  obtain ⟨failure, hfailure⟩ := hreported args overdue i hfiles hi hexit
  cases hstopped.symm.trans hfailure

end CommandLine

end RunLedger
