import RunLedger.Proofs.CommandLine.Refinement
import RunLedger.Proofs.Json.Entity
import RunLedger.Proofs.Metric.Replaying

/-!
# Printed metrics can be fed back

The command that lists the history of a key prints what the command that logs a batch reads from a
file. A history that is fed back in this way is logged again, and nothing comes of it. This goes
wrong where a NaN is in the history: it is printed as `null`, as JSON has no other text for it, and
`null` is not read as a number, so the file is refused as a whole.

## Main results

* `Metric.decode?_encode_list_of_isNaN`: no list with a NaN is read back.
* `Invocation.carryOut_metricHistory`: what the history prints.
* `Invocation.carryOut_logBatch`: what becomes of a history that is logged as a batch.
* `printed_history_is_fed_back_unless_it_has_nan`: both, one after the other.
* `not_every_printed_history_is_fed_back`: a history with a NaN is refused.
-/

namespace RunLedger

open JsonCodec JsonContents

/-! ### Values that are printed -/

/-- A value that was read back is finite or NaN. -/
theorem Binary64.isFinite_readBack {x : Binary64} (h : x.readBack.isNaN = false) :
    x.readBack.IsFinite := by
  have hlargest (negative : Bool) : (Binary64.largestOf negative).IsFinite := by
    unfold IsFinite
    exact (by decide : largest < infinite)
  have hzero : Binary64.zero.IsFinite := by
    unfold IsFinite
    decide
  rw [readBack] at h ⊢
  split_ifs at h ⊢ with hnan hinfinite hmagnitude
  · exact absurd h (by decide)
  · exact hlargest _
  · exact hzero
  · have hle : ¬ infinite < x.magnitude := by simpa [isNaN] using hnan
    have hne : x.magnitude ≠ infinite := by simpa [isInfinite] using hinfinite
    exact Nat.lt_of_le_of_ne (Nat.le_of_not_lt hle) hne

/-- An observation of a NaN is not read from its own form. -/
theorem Metric.decode?_encode_of_isNaN {m : Metric} (h : m.value.isNaN) :
    (decode? (encode m) : Option Metric) = none := by
  have hvalue : Json.binary64? (Json.ofBinary64 m.value) = none := by
    rw [Json.ofBinary64, h, Bool.true_or, if_pos rfl]
    rfl
  change Metric.ofJson? m.toJson = none
  rw [Metric.ofJson?_toJson, hvalue]
  rfl

/-- **No list with a NaN is read from its own form.** -/
theorem Metric.decode?_encode_list_of_isNaN {ms : List Metric} (h : ∃ m ∈ ms, m.value.isNaN) :
    (decode? (encode ms) : Option (List Metric)) = none := by
  obtain ⟨m, hm, hnan⟩ := h
  cases hread : (decode? (encode ms) : Option (List Metric)) with
  | none => rfl
  | some ns =>
    obtain ⟨n, hn⟩ := exists_of_decode?_encode hread hm
    rw [Metric.decode?_encode_of_isNaN hnan] at hn
    cases hn

namespace CommandLine

open MetricLog Work

/-- The text that is printed for a list of observations. -/
theorem printedText_encode (ms : List Metric) : printedText (encode ms) = toLines ms ++ "\n" := rfl

theorem blank_lineEnd : Json.Blank "\n".toList := by
  intro c hc
  obtain rfl : c = '\n' := by simpa using hc
  decide

section Commands

variable {i : Invocation} {config : Config} {s : Surroundings} {o : Opened}
  {runId key file : String} {r : RunRecord}

/-- A command that is not given up at once is disturbed by nothing. -/
theorem Invocation.call_undisturbed (htime : i.timeoutMs ≠ some 0) :
    (i.call config s .free).Undisturbed where
  faults := rfl
  locked := rfl
  hidden _ := rfl
  writing := rfl
  pulse _ := if_neg htime

/-- What the history of a key of a run prints. -/
theorem Invocation.carryOut_metricHistory (hcommand : i.command = .metricHistory runId key)
    (htime : i.timeoutMs ≠ some 0) (hr : o.database.runs.get? runId = some r) :
    i.carryOut config s o = (.ok (encode (answered runId key o.database)), o) := by
  have hanswer : (Operation.metricHistory runId key).run.perform (i.call config s o.writing)
      o.database = (.ok (.metrics (answered runId key o.database)), o.database) :=
    perform_metricHistory (if_neg htime) rfl hr key
  have hunchanged : o.update o.database = o := if_pos rfl
  simp only [carryOut, hcommand, Command.request, Request.perform, answering, hanswer, hunchanged]
  rfl

/-- A history that a file spells is logged, and nothing comes of it. -/
theorem Invocation.carryOut_logBatch (hdb : Reachable o.database)
    (hr : o.database.runs.get? runId = some r) (hactive : r.stage = .active)
    (hwriting : o.writing = .free) (hcommand : i.command = .logBatch runId file)
    (htime : i.timeoutMs ≠ some 0)
    (hmetrics : metricsIn (o.filesDuring s.files) file = .ok (answered runId key o.database)) :
    ∃ json, i.carryOut config s o = (.ok json, o) := by
  have hrequest : i.command.request { s with files := o.filesDuring s.files } =
      .ok (some (reading (.logMetrics runId (answered runId key o.database))
        (.latestMetrics runId))) := by
    rw [hcommand, Command.request]
    simp only [hmetrics]
    rfl
  have hleads : (Operation.logMetrics runId (answered runId key o.database)).run.Leads
      (i.call config s o.writing) o.database .nothing o.database :=
    leads_logMetrics_answered hdb hr hactive _
  have hyields := hleads.2 (hwriting ▸ call_undisturbed htime)
  rcases i.carryOut_cases config s o hdb with
    ⟨failure, hfailure, -⟩ | ⟨hmigrate, -⟩ | ⟨request, hrequest', hcall⟩
  · cases hrequest.symm.trans hfailure
  · cases hcommand.symm.trans hmigrate
  · cases hrequest.symm.trans hrequest'
    rcases hcall with ⟨e, hraises, -⟩ | ⟨answer, after, json, hafter, -, hcarry⟩
    · exact absurd hyields hraises.not_yields
    · obtain ⟨-, rfl⟩ := hleads.1 _ _ hafter
      have hunchanged : o.update o.database = o := if_pos rfl
      exact ⟨json, hcarry.trans (by rw [hunchanged])⟩

/-- A file that holds no metrics is refused. -/
theorem Invocation.carryOut_of_metricsIn_error (hcommand : i.command = .logBatch runId file)
    {failure : Failure} (hmetrics : metricsIn (o.filesDuring s.files) file = .error failure) :
    i.carryOut config s o = (.error failure, o) := by
  have hrequest : i.command.request { s with files := o.filesDuring s.files } =
      .error failure := by
    rw [hcommand, Command.request]
    simp only [hmetrics]
    rfl
  rw [carryOut, hrequest]

end Commands

/-! ### Texts in files -/

section Texts

variable {files : FileTree} {file : String} {ms : List Metric}

/-- Observations are read from a file that holds what is printed for them. -/
theorem metricsIn_of_printed (hfile : files.readText file = .ok (printedText (encode ms)))
    (hfits : Fits ms) (hnumbers : ∀ x ∈ numbers ms, Json.ReadsBack x) :
    metricsIn files file = .ok ms := by
  have hread : ofText? (toLines ms ++ "\n") = some ms :=
    LawfulJsonCodec.ofText?_toLines_append hfits hnumbers blank_lineEnd
  rw [metricsIn, hfile]
  simp only [printedText_encode, hread]

/-- A file that holds what is printed for observations with a NaN among them is refused. -/
theorem metricsIn_of_printed_of_isNaN
    (hfile : files.readText file = .ok (printedText (encode ms)))
    (hnan : ∃ m ∈ ms, m.value.isNaN) : metricsIn files file = .error (.noMetrics file) := by
  have hparse : Json.parse? (toLines ms ++ "\n").toList = some (encode ms) := by
    rw [toLines, String.toList_append, String.toList_ofList]
    exact Json.parse?_printLines (LawfulJsonCodec.wellWritten ms) blank_lineEnd
  have hread : (ofText? (toLines ms ++ "\n") : Option (List Metric)) = none := by
    rw [ofText?, hparse, Option.bind_some, Metric.decode?_encode_list_of_isNaN hnan]
  rw [metricsIn, hfile]
  simp only [printedText_encode, hread]

end Texts

/-- A value that is read of a history is finite unless it is NaN. -/
theorem isFinite_of_mem_answered {db : Database} (hdb : Reachable db) {runId key : String}
    {m : Metric} (hm : m ∈ answered runId key db) (hnan : m.value.isNaN = false) :
    m.value.IsFinite := by
  obtain ⟨steps, rfl⟩ := hdb
  obtain ⟨n, -, rfl⟩ := Operation.exists_observed_of_mem_answered hm
  exact Binary64.isFinite_readBack hnan

/-! ### Two command lines -/

/-- A command line is carried out as a command on an open database. -/
structure Opens (args : List String) (s : Surroundings) (i : Invocation) (config : Config)
    (o : Opened) : Prop where
  grammar : invocation? args s.database = some i
  configured : i.config s.files = .ok config
  opened : openDatabase config s.files = .ok o

theorem Opens.run_eq {args : List String} {s : Surroundings} {i : Invocation} {config : Config}
    {o : Opened} (h : Opens args s i config o) :
    run args s = (.ofAnswer (i.carryOut config s o).1, (i.carryOut config s o).2.filesAfter s.files)
    := by
  rw [run_of_invocation? h.grammar, Invocation.execute, h.configured]
  simp only [h.opened]

/-- **Printed metrics can be fed back unless a NaN is among them.** Let files hold nothing but what
calls have led to, and let a run be active. The command line that lists the history of one of its
keys prints a text. Where a file holds this text, a command line that logs the file for the run, on
the same database and where that can be written, exits successfully if there is no NaN in the
history, and is refused if there is one; in either case it changes nothing that is stored. The
integers of the history are taken to have 64 bits, and each of its finite numbers to be read back
from its own text. -/
theorem printed_history_is_fed_back_unless_it_has_nan {args args' : List String}
    {s s' : Surroundings} {i j : Invocation} {config config' : Config} {o o' : Opened}
    (hfiles : s.files.StoresReachable) (hfiles' : s'.files.StoresReachable)
    (hline : Opens args s i config o) (hline' : Opens args' s' j config' o')
    (hsame : o'.database = o.database) (hwriting : o'.writing = .free) {runId key file : String}
    (hhistory : i.command = .metricHistory runId key) (hbatch : j.command = .logBatch runId file)
    (htime : i.timeoutMs ≠ some 0) (htime' : j.timeoutMs ≠ some 0) {r : RunRecord}
    (hr : o.database.runs.get? runId = some r) (hactive : r.stage = .active)
    (hfits : Fits (answered runId key o.database))
    (hnumbers : ∀ x ∈ numbers (answered runId key o.database), x.IsFinite → Json.ReadsBack x) :
    ∃ text, (run args s).1 = .printed text ∧
      ((o'.filesDuring s'.files).readText file = .ok text →
        (run args' s').2.Holds (config'.place? s'.files) (config'.databaseIn s'.files) ∧
        ((∀ m ∈ answered runId key o.database, m.value.isNaN = false) →
          (run args' s').1.exitCode = 0) ∧
        ((∃ m ∈ answered runId key o.database, m.value.isNaN = true) →
          (run args' s').1 = .failed (.noMetrics file))) := by
  have hdb : Reachable o.database := by
    rw [(of_openDatabase hfiles hline.opened).1]
    exact hfiles.databaseIn config
  refine ⟨printedText (encode (answered runId key o.database)), ?_, fun hfile => ?_⟩
  · rw [hline.run_eq, Invocation.carryOut_metricHistory hhistory htime hr]
    rfl
  have hleft := (unchanged_of_openDatabase hfiles' hline'.opened).2
  rw [hline'.run_eq]
  by_cases hnan : ∃ m ∈ answered runId key o.database, m.value.isNaN = true
  · have hcarry : j.carryOut config' s' o' = (.error (.noMetrics file), o') :=
      Invocation.carryOut_of_metricsIn_error hbatch (metricsIn_of_printed_of_isNaN hfile hnan)
    obtain ⟨m, hm, hmnan⟩ := id hnan
    rw [hcarry]
    exact ⟨hleft, fun hnone => absurd hmnan (by simp [hnone m hm]), fun _ => rfl⟩
  · have hnone : ∀ m ∈ answered runId key o.database, m.value.isNaN = false := fun m hm =>
      Bool.eq_false_iff.mpr fun h => hnan ⟨m, hm, h⟩
    have hread : ∀ x ∈ numbers (answered runId key o.database), Json.ReadsBack x := fun x hx => by
      obtain ⟨m, hm, hxm⟩ := List.mem_flatMap.mp hx
      obtain rfl := List.mem_singleton.mp hxm
      exact hnumbers _ hx (isFinite_of_mem_answered hdb hm (hnone m hm))
    have hmetrics := metricsIn_of_printed hfile hfits hread
    rw [← hsame] at hdb hr hmetrics
    obtain ⟨json, hcarry⟩ : ∃ json, j.carryOut config' s' o' = (.ok json, o') :=
      Invocation.carryOut_logBatch hdb hr hactive hwriting hbatch htime' hmetrics
    rw [hcarry]
    exact ⟨hleft, fun _ => rfl, fun h => absurd h hnan⟩

/-! ### A history with one observation -/

/-- What is printed for the history of a key with one observation of the given value. -/
private def listingOf (value : String) : String :=
  "[\n  \x7b\n    \"key\": \"loss\",\n    \"value\": " ++ value ++
    ",\n    \"timestamp\": 1,\n    \"step\": 0\n  \x7d\n]\n"

/-- A working directory where a file holds such a text, and where there is no database yet. -/
private def desk (value : String) : Surroundings where
  now := 1000000
  entropy := 0
  database := none
  files := (FileTree.bare []).addText "b.json" (listingOf value)

/-- Command lines that create a run and log a value for it that is printed as `printed`. -/
private def logging (value printed : String) : List (List String × Surroundings) :=
  [(["experiment", "create", "--name", "e"], desk printed),
    (["run", "create", "--experiment-id", "1"], desk printed),
    (["metric", "log", "--run-id", zeroRun, "--key", "loss", "--value", value, "--step", "0",
      "--timestamp", "1"], desk printed)]

/-- Where these have been run. -/
private def logged (value printed : String) : Surroundings :=
  { desk printed with files := runAll (logging value printed) (desk printed).files }

/-- The command line that lists the history. -/
private def listing : List String :=
  ["metric", "history", "--run-id", zeroRun, "--key", "loss"]

/-- Where that has been run, too. -/
private def listed (value printed : String) : Surroundings :=
  { desk printed with files := (run listing (logged value printed)).2 }

/-- The command line that logs the file. -/
private def feeding : List String :=
  ["metric", "log-batch", "--run-id", zeroRun, "--file", "b.json"]

/-- A command on the default database. -/
private def plainly (command : Command) : Invocation where
  configFile := none
  database := none
  timeoutMs := none
  command

/-- The default database in a working directory. -/
private def ledgerIn (s : Surroundings) : Opened :=
  (openDatabase (Config.atPath defaultDatabase) s.files).toOption.getD .inMemory

/-- Files where command lines have logged a value store what calls have led to. -/
private theorem storesReachable_logged (value printed : String)
    (hdesk : (desk printed).files.StoresReachable) :
    (logged value printed).files.StoresReachable := by
  simp only [logged]
  exact storesReachable_runAll (logging value printed) hdesk

/-- Listing the history keeps that. -/
private theorem storesReachable_listed (value printed : String)
    (hdesk : (desk printed).files.StoresReachable) :
    (listed value printed).files.StoresReachable := by
  simp only [listed]
  exact storesReachable_run listing (storesReachable_logged value printed hdesk)

/-- One half is printed, and its text is logged again. -/
theorem printed_half_is_fed_back :
    (run listing (logged "0.5" "0.5")).1 = .printed (listingOf "0.5") ∧
      (run feeding (listed "0.5" "0.5")).1.exitCode = 0 := by
  have hdesk : (desk "0.5").files.StoresReachable :=
    FileTree.storesReachable_of_all (by decide +kernel)
  have hlogged := storesReachable_logged "0.5" "0.5" hdesk
  have hlisted := storesReachable_listed "0.5" "0.5" hdesk
  let o := ledgerIn (logged "0.5" "0.5")
  let o' := ledgerIn (listed "0.5" "0.5")
  have hline : Opens listing (logged "0.5" "0.5") (plainly (.metricHistory zeroRun "loss"))
      (Config.atPath defaultDatabase) o :=
    ⟨by decide +kernel, by decide +kernel, by decide +kernel⟩
  have hline' : Opens feeding (listed "0.5" "0.5") (plainly (.logBatch zeroRun "b.json"))
      (Config.atPath defaultDatabase) o' :=
    ⟨by decide +kernel, by decide +kernel, by decide +kernel⟩
  have hrun : (o.database.runs.get? zeroRun).map RunRecord.stage = some .active := by
    decide +kernel
  obtain ⟨r, hr, hactive⟩ := Option.map_eq_some_iff.mp hrun
  have hanswered : answered zeroRun "loss" o.database =
      [{ lossOf (.ofBits 0x3fe0000000000000) with step := 0 }] := by
    decide +kernel
  obtain ⟨text, hprinted, hfed⟩ := printed_history_is_fed_back_unless_it_has_nan hlogged hlisted
    hline hline' (by decide +kernel) (by decide +kernel) rfl rfl nofun nofun hr hactive
    (by rw [hanswered]; simp only [Fits, List.mem_singleton, forall_eq]; decide)
    (by
      rw [hanswered]
      intro x hx _
      obtain rfl := List.mem_singleton.mp hx
      decide +kernel)
  have htext : (run listing (logged "0.5" "0.5")).1 = .printed (listingOf "0.5") := by
    decide +kernel
  have hsame : text = listingOf "0.5" := Result.printed.inj (hprinted.symm.trans htext)
  subst hsame
  refine ⟨htext, (hfed (by decide +kernel)).2.1 ?_⟩
  rw [hanswered]
  decide

/-- **Not every printed history is fed back**: a NaN is printed as `null`, and a file with a `null`
for a value is refused, although the NaN could be logged. -/
theorem not_every_printed_history_is_fed_back :
    ¬ ∀ (args args' : List String) (s s' : Surroundings) (i j : Invocation)
      (config config' : Config) (o o' : Opened) (runId key file text : String) (r : RunRecord),
      s.files.StoresReachable → s'.files.StoresReachable → Opens args s i config o →
      Opens args' s' j config' o' → o'.database = o.database → o'.writing = .free →
      i.command = .metricHistory runId key → j.command = .logBatch runId file →
      i.timeoutMs ≠ some 0 → j.timeoutMs ≠ some 0 → o.database.runs.get? runId = some r →
      r.stage = .active → Fits (answered runId key o.database) →
      (∀ x ∈ numbers (answered runId key o.database), x.IsFinite → Json.ReadsBack x) →
      (run args s).1 = .printed text → (o'.filesDuring s'.files).readText file = .ok text →
      (run args' s').1.exitCode = 0 := by
  intro hfed
  have hdesk : (desk "null").files.StoresReachable :=
    FileTree.storesReachable_of_all (by decide +kernel)
  have hlogged := storesReachable_logged "nan" "null" hdesk
  have hlisted := storesReachable_listed "nan" "null" hdesk
  let o := ledgerIn (logged "nan" "null")
  have hrun : (o.database.runs.get? zeroRun).map RunRecord.stage = some .active := by
    decide +kernel
  obtain ⟨r, hr, hactive⟩ := Option.map_eq_some_iff.mp hrun
  have hanswered : answered zeroRun "loss" o.database = [{ lossOf .nan with step := 0 }] := by
    decide +kernel
  have hexit := hfed listing feeding (logged "nan" "null") (listed "nan" "null")
    (plainly (.metricHistory zeroRun "loss")) (plainly (.logBatch zeroRun "b.json"))
    (Config.atPath defaultDatabase) (Config.atPath defaultDatabase) o
    (ledgerIn (listed "nan" "null")) zeroRun "loss" "b.json" (listingOf "null") r hlogged hlisted
    ⟨by decide +kernel, by decide +kernel, by decide +kernel⟩
    ⟨by decide +kernel, by decide +kernel, by decide +kernel⟩ (by decide +kernel)
    (by decide +kernel) rfl rfl nofun nofun hr hactive
    (by rw [hanswered]; simp only [Fits, List.mem_singleton, forall_eq]; decide)
    (by
      rw [hanswered]
      intro x hx hfinite
      obtain rfl := List.mem_singleton.mp hx
      exact absurd hfinite (by unfold Binary64.IsFinite; decide))
    (by decide +kernel) (by decide +kernel)
  have hrefused : (run feeding (listed "nan" "null")).1.exitCode = 1 := by decide +kernel
  rw [hrefused] at hexit
  cases hexit

end CommandLine

end RunLedger
