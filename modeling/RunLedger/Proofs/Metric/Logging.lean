import Mathlib.Data.List.Dedup
import Mathlib.Data.List.Perm.Subperm
import RunLedger.Proofs.Metric.Precedence
import RunLedger.Proofs.Work.Failure

/-!
# What logging leaves behind

A batch of observations of a run goes through several hands before it is stored: repeats are
dropped, one winner is found for each key, the present latest points are looked up in pieces, and a
winner is stored where it supersedes what was found. All this comes to the same as entering the
observations one after the other: each is appended to the history and to the list of its logged
model unless its place there is taken, and moves the latest point of its key if it supersedes that.

A look-up fails if one of its pieces has more keys than a statement can ask for. That takes pieces
of more keys than that, and a batch with more keys than that; in all other calls there is room for
the batch.

## Main definitions

* `Database.alterLatest`: the database with the latest points of a run changed.
* `Database.logged`: the database after observations of a run.
* `Call.HasRoomFor`: no look-up of a call has to ask for too many keys.

## Main results

* `Database.logged_append`: observations can be entered in parts.
* `MetricLog.exists_lookUp`, `MetricLog.lookUp_eq_error`: which look-ups fail.
* `MetricLog.get?_lookUp`: a look-up in pieces of any size finds every latest point.
* `MetricLog.foldl_advanced_entries`: the winners move the latest points as all observations would.
* `MetricLog.leads_record`, `MetricLog.record_inversion`: what logging a batch leads to.
* `MetricLog.failsWith_record_of_not_hasRoomFor`: a batch for which there is no room.
* `MetricLog.leads_rebuild`, `MetricLog.rebuild_inversion`: what rebuilding leads to.
-/

namespace RunLedger

/-! ### Entering observations -/

namespace Database

/-- The database with the latest points of a run changed. -/
def alterLatest (runId : String) (f : Table String Point → Table String Point) (db : Database) :
    Database :=
  { db with runs := db.runs.update runId fun r => { r with latest := f r.latest } }

theorem alterLatest_id (runId : String) (db : Database) :
    db.alterLatest runId (fun latest => latest) = db := by
  rw [alterLatest, Table.update_eq_self fun _ => rfl]

theorem alterLatest_alterLatest (runId : String) (f g : Table String Point → Table String Point)
    (db : Database) :
    (db.alterLatest runId f).alterLatest runId g =
      db.alterLatest runId fun latest => g (f latest) := by
  simp only [alterLatest, Table.update_update]

theorem get?_alterLatest_self {runId : String} {db : Database} {r : RunRecord}
    (h : db.runs.get? runId = some r) (f : Table String Point → Table String Point) :
    (db.alterLatest runId f).runs.get? runId = some { r with latest := f r.latest } := by
  rw [alterLatest, Table.get?_update_self, h]
  rfl

theorem get?_alterLatest_of_ne {runId id : String} (hid : id ≠ runId)
    (f : Table String Point → Table String Point) (db : Database) :
    (db.alterLatest runId f).runs.get? id = db.runs.get? id := by
  rw [alterLatest, Table.get?_update, if_neg fun h => hid (Std.compare_eq_iff_eq.mp h)]

/-- Only what becomes of the present latest points matters. -/
theorem alterLatest_congr {runId : String} {db : Database} {r : RunRecord}
    {f g : Table String Point → Table String Point} (h : db.runs.get? runId = some r)
    (hfg : f r.latest = g r.latest) : db.alterLatest runId f = db.alterLatest runId g := by
  rw [alterLatest, alterLatest, Table.update_of_get? h, Table.update_of_get? h, hfg]

/-- The database after observations of a run that belongs to an experiment. -/
def logged (runId : String) (experimentId : Int) (es : List HistoryEntry) (db : Database) :
    Database :=
  alterLatest runId (fun latest => es.foldl MetricLog.raise latest)
    { db with
      history := (es.map HistoryEntry.stored).foldl (appendNew HistoryEntry.sameSlot) db.history
      modelMetrics := (es.filterMap (HistoryEntry.modelEntry? experimentId)).foldl
        (appendNew ModelEntry.sameSlot) db.modelMetrics }

theorem get?_logged_self {runId : String} {db : Database} {r : RunRecord}
    (h : db.runs.get? runId = some r) (experimentId : Int) (es : List HistoryEntry) :
    (db.logged runId experimentId es).runs.get? runId =
      some { r with latest := es.foldl MetricLog.raise r.latest } := by
  change (db.alterLatest runId fun latest => es.foldl MetricLog.raise latest).runs.get? runId = _
  exact get?_alterLatest_self h _

theorem get?_logged_of_ne {runId id : String} (hid : id ≠ runId) (experimentId : Int)
    (es : List HistoryEntry) (db : Database) :
    (db.logged runId experimentId es).runs.get? id = db.runs.get? id := by
  change (db.alterLatest runId fun latest => es.foldl MetricLog.raise latest).runs.get? id = _
  exact get?_alterLatest_of_ne hid _ db

theorem logged_nil (runId : String) (experimentId : Int) (db : Database) :
    db.logged runId experimentId [] = db :=
  alterLatest_id runId db

/-- Observations can be entered in parts. -/
theorem logged_append (runId : String) (experimentId : Int) (es fs : List HistoryEntry)
    (db : Database) :
    db.logged runId experimentId (es ++ fs) =
      (db.logged runId experimentId es).logged runId experimentId fs := by
  simp only [logged, alterLatest, Table.update_update, List.map_append, List.filterMap_append,
    List.foldl_append]

/-- Observations that agree field for field count once. -/
theorem logged_distinct (runId : String) (experimentId : Int) (es : List HistoryEntry)
    (db : Database) :
    db.logged runId experimentId (distinct (· == ·) es) = db.logged runId experimentId es := by
  have hhistory : ((distinct (· == ·) es).map HistoryEntry.stored).foldl
      (appendNew HistoryEntry.sameSlot) db.history =
      (es.map HistoryEntry.stored).foldl (appendNew HistoryEntry.sameSlot) db.history := by
    rw [← List.filterMap_eq_map]
    exact foldl_appendNew_distinct (fun e f h => by simp [HistoryEntry.sameSlot]) es db.history
  have hmodels : ((distinct (· == ·) es).filterMap (HistoryEntry.modelEntry? experimentId)).foldl
      (appendNew ModelEntry.sameSlot) db.modelMetrics =
      (es.filterMap (HistoryEntry.modelEntry? experimentId)).foldl
        (appendNew ModelEntry.sameSlot) db.modelMetrics := by
    refine foldl_appendNew_distinct (fun e m h => ?_) es db.modelMetrics
    obtain ⟨modelId, -, rfl⟩ := Option.map_eq_some_iff.mp h
    simp [ModelEntry.sameSlot]
  simp only [logged, hhistory, hmodels, MetricLog.foldl_raise_distinct]

end Database

namespace MetricLog

open Work

/-! ### Looking up latest points in pieces -/

theorem append_flatten_cut {α : Type} (size : Nat) (room : Nat) (xs : List α) :
    (cut size room xs).1 ++ (cut size room xs).2.flatten = xs := by
  induction xs generalizing room with
  | nil => cases room <;> rfl
  | cons x xs ih => cases room <;> simp [cut, ih]

theorem flatten_pieces {α : Type} (size : Nat) (xs : List α) : (pieces size xs).flatten = xs := by
  have hfirst : (cut size 0 xs).1 = [] := by cases xs <;> rfl
  have h := append_flatten_cut size 0 xs
  rwa [hfirst, List.nil_append] at h

/-- The rest of a piece is filled as far as the list goes. -/
theorem length_cut_fst {α : Type} (size room : Nat) (xs : List α) :
    (cut size room xs).1.length = min room xs.length := by
  induction xs generalizing room with
  | nil => cases room <;> rfl
  | cons x xs ih => cases room <;> simp [cut, ih]

/-- A piece has no more members than the size says, and no more than the list. -/
theorem length_of_mem_pieces {α : Type} {size : Nat} {xs piece : List α}
    (h : piece ∈ pieces size xs) : piece.length ≤ max size 1 ∧ piece.length ≤ xs.length := by
  constructor
  · have hcut (ys : List α) (room : Nat) : ∀ piece ∈ (cut size room ys).2,
        piece.length ≤ max size 1 := by
      induction ys generalizing room with
      | nil => cases room <;> simp [cut]
      | cons y ys ih =>
        cases room with
        | zero =>
          intro piece hpiece
          rcases List.mem_cons.mp hpiece with rfl | hpiece
          · rw [List.length_cons, length_cut_fst]
            omega
          · exact ih _ piece hpiece
        | succ room => exact ih room
    exact hcut xs 0 piece h
  · have hsublist := (List.sublist_flatten_of_mem h).length_le
    rwa [flatten_pieces] at hsublist

/-- What one piece of a look-up finds is added to what was found before. -/
theorem get?_of_lookUpPiece {latest found found' : Table String Point} {piece : List String}
    (h : lookUpPiece latest found piece = .ok found') (k : String) :
    found'.get? k = ((latest.get? k).filter fun _ => piece.contains k).or (found.get? k) := by
  rw [lookUpPiece] at h
  split at h
  · cases h
  · obtain rfl := Except.ok.inj h
    rw [Table.get?_foldl_entries fun _ p _ => some p, Table.get?_filter]
    · cases (latest.get? k).filter fun _ => piece.contains k <;> rfl
    · intro found key p l
      exact found.get?_insert key l p

/-- **A look-up in pieces finds the latest point of every key asked for**, whatever the size of the
pieces. -/
theorem get?_lookUp {latest found : Table String Point} {size : Nat} {keys : List String}
    (h : lookUp latest size keys = .ok found) {k : String} (hk : k ∈ keys) :
    found.get? k = latest.get? k := by
  have hfound (ps : List (List String)) (before : Table String Point)
      (hps : ps.foldlM (lookUpPiece latest) before = .ok found) :
      found.get? k =
        if k ∈ ps.flatten then (latest.get? k).or (before.get? k) else before.get? k := by
    induction ps generalizing before with
    | nil =>
      obtain rfl := Except.ok.inj hps
      simp
    | cons piece ps ih =>
      obtain ⟨between, hpiece, hrest⟩ := exists_of_bind_eq_ok hps
      rw [ih between hrest, get?_of_lookUpPiece hpiece]
      by_cases hpiece : k ∈ piece <;> by_cases hps : k ∈ ps.flatten <;>
        cases latest.get? k <;> simp_all
  rw [hfound _ _ h, flatten_pieces, if_pos hk]
  simp

/-- A look-up succeeds if its pieces are small, or if the keys are few. -/
theorem exists_lookUp (latest : Table String Point) {size : Nat} {keys : List String}
    (h : size ≤ keyLimit ∨ keys.length ≤ keyLimit) :
    ∃ found, lookUp latest size keys = .ok found := by
  have hshort : ∀ piece ∈ pieces size keys, ¬ keyLimit < piece.length := by
    intro piece hpiece
    obtain ⟨hsize, hkeys⟩ := length_of_mem_pieces hpiece
    rw [keyLimit] at h ⊢
    omega
  rw [lookUp]
  generalize (Table.empty : Table String Point) = found
  generalize pieces size keys = ps at hshort
  induction ps generalizing found with
  | nil => exact ⟨found, rfl⟩
  | cons piece ps ih =>
    obtain ⟨hfirst, hrest⟩ := List.forall_mem_cons.mp hshort
    rw [List.foldlM_cons, lookUpPiece, if_neg hfirst]
    exact ih _ hrest

/-- In all other cases its first piece is too long. -/
theorem lookUp_eq_error (latest : Table String Point) {size : Nat} {keys : List String}
    (h : ¬ (size ≤ keyLimit ∨ keys.length ≤ keyLimit)) :
    lookUp latest size keys = .error .statementFailed := by
  obtain ⟨hsize, hkeys⟩ := not_or.mp h
  cases keys with
  | nil => exact absurd (Nat.zero_le keyLimit) hkeys
  | cons k keys =>
    have hlong : keyLimit < (k :: (cut size (size - 1) keys).1).length := by
      rw [List.length_cons] at hkeys
      rw [List.length_cons, length_cut_fst]
      omega
    rw [lookUp, pieces, cut, List.foldlM_cons, lookUpPiece, if_pos hlong]
    rfl

/-! ### Storing winners -/

/-- The latest points after the winner of a key is stored if it supersedes what was found. -/
def advanced (found latest : Table String Point) (winner : String × HistoryEntry) :
    Table String Point :=
  match found.get? winner.1 with
  | some current =>
    if winner.2.point.supersedes current then latest.insert winner.1 winner.2.point.stored
    else latest
  | none => latest.insert winner.1 winner.2.point.stored

theorem get?_advanced (found latest : Table String Point) (k : String) (e : HistoryEntry)
    (l : String) :
    (advanced found latest (k, e)).get? l =
      if compare l k = .eq then
        match found.get? l with
        | some current =>
          if e.point.supersedes current then some e.point.stored else latest.get? l
        | none => some e.point.stored
      else latest.get? l := by
  by_cases hl : compare l k = .eq
  · obtain rfl := Std.LawfulEqCmp.eq_of_compare hl
    rw [if_pos hl, advanced]
    cases found.get? l with
    | none => exact latest.get?_insert_self _ _
    | some current =>
      simp only
      split_ifs
      · exact latest.get?_insert_self _ _
      · rfl
  · have hne : l ≠ k := fun h => hl (Std.compare_eq_iff_eq.mpr h)
    rw [if_neg hl, advanced]
    split
    · split_ifs
      · exact latest.get?_insert_of_ne hne _
      · rfl
    · exact latest.get?_insert_of_ne hne _

/-- **The winners of a batch move the latest points as all its observations would**, if the present
ones are found for all their keys. -/
theorem foldl_advanced_entries (es : List HistoryEntry) {latest found : Table String Point}
    (hfound : ∀ k ∈ (winners HistoryEntry.key HistoryEntry.point es).keys,
      found.get? k = latest.get? k) :
    (winners HistoryEntry.key HistoryEntry.point es).entries.foldl (advanced found) latest =
      es.foldl raise latest := by
  refine Table.ext_get? fun k => ?_
  rw [get?_foldl_raise, argmax_append_right, argmax_pointsAt, ← get?_winners,
    Table.get?_foldl_entries (fun l e old =>
      match found.get? l with
      | some current => if e.point.supersedes current then some e.point.stored else old
      | none => some e.point.stored) (get?_advanced _)]
  cases hbest : (winners HistoryEntry.key HistoryEntry.point es).get? k with
  | none => cases latest.get? k <;> simp
  | some e =>
    simp only [hfound k (Table.mem_keys_iff.mpr ⟨e, hbest⟩)]
    cases latest.get? k with
    | none => rfl
    | some current =>
      rw [Option.map_some, Option.toList_some, Option.toList_some, List.singleton_append,
        ← List.singleton_append, argmax_concat_some List.argmax_singleton, Point.precedence_stored]
      simp only [Point.supersedes_iff]

/-- Storing the winners of all observations makes the latest points anew. -/
theorem foldl_insert_winners (es : List HistoryEntry) :
    (winners HistoryEntry.key HistoryEntry.point es).entries.foldl
      (fun latest winner => latest.insert winner.1 winner.2.point.stored) .empty =
      es.foldl raise .empty := by
  refine Table.ext_get? fun k => ?_
  rw [get?_foldl_raise, Table.get?_empty, Option.toList_none, List.nil_append,
    argmax_pointsAt, ← get?_winners,
    Table.get?_foldl_entries fun _ e _ => some e.point.stored]
  · cases (winners HistoryEntry.key HistoryEntry.point es).get? k <;> rfl
  · intro latest key e l
    exact latest.get?_insert key l e.point.stored

end MetricLog

/-! ### Room for a batch -/

/-- No look-up of the call has to ask for too many keys: it asks for few keys at a time, or there
are not many. -/
def Call.HasRoomFor (call : Call) (keys : List String) : Prop :=
  call.config.chunkSize ≤ MetricLog.keyLimit ∨ keys.dedup.length ≤ MetricLog.keyLimit

namespace Call.HasRoomFor

variable {call : Call} {keys keys' : List String}

/-- Where there is room for some keys there is room for some of them. -/
theorem of_subset (h : call.HasRoomFor keys) (hkeys : keys' ⊆ keys) : call.HasRoomFor keys' := by
  refine h.imp_right fun hfew => le_trans ?_ hfew
  have hdedup : keys'.dedup ⊆ keys.dedup := fun k hk =>
    List.mem_dedup.mpr (hkeys (List.mem_dedup.mp hk))
  exact (List.Nodup.subperm (List.nodup_dedup keys') hdedup).length_le

/-- There is room for one key in every call. -/
theorem singleton (call : Call) (key : String) : call.HasRoomFor [key] :=
  .inr ((List.dedup_sublist [key]).length_le.trans (show 1 ≤ MetricLog.keyLimit by decide))

end Call.HasRoomFor

namespace MetricLog

open Work

/-- The keys that are looked up are those of the observations. -/
theorem hasRoomFor_map_key {call : Call} (es : List HistoryEntry) :
    call.HasRoomFor (es.map HistoryEntry.key) ↔ call.config.chunkSize ≤ keyLimit ∨
      (winners HistoryEntry.key HistoryEntry.point es).keys.length ≤ keyLimit := by
  have hkeys : (es.map HistoryEntry.key).dedup.Perm
      (winners HistoryEntry.key HistoryEntry.point es).keys := by
    refine (List.perm_ext_iff_of_nodup (List.nodup_dedup _) (Table.nodup_keys _)).mpr fun k => ?_
    rw [List.mem_dedup, List.mem_map, mem_keys_winners]
  rw [Call.HasRoomFor, hkeys.length_eq]

/-- A batch has the keys of its observations. -/
theorem hasRoomFor_batch {call : Call} (runId : String) (metrics : List Metric) :
    call.HasRoomFor ((batch runId metrics).map HistoryEntry.key) ↔
      call.HasRoomFor (metrics.map Metric.key) := by
  have hkeys : metrics.map Metric.key =
      (metrics.map (HistoryEntry.ofMetric runId)).map HistoryEntry.key := by
    rw [List.map_map]
    rfl
  rw [hkeys]
  exact ⟨fun h => h.of_subset (List.map_subset _ fun _ => mem_distinct.mpr),
    fun h => h.of_subset (List.map_subset _ fun _ => mem_distinct.mp)⟩

/-! ### The calls -/

theorem checkKeys_eq_ok_iff {metrics : List Metric} :
    checkKeys metrics = .ok () ↔ ∀ m ∈ metrics, Text.isBlank m.key = false := by
  have hnone : metrics.find? (fun m => Text.isBlank m.key) = none ↔
      ∀ m ∈ metrics, Text.isBlank m.key = false := by
    simp only [List.find?_eq_none, Bool.not_eq_true]
  rw [← hnone, checkKeys]
  cases metrics.find? fun m => Text.isBlank m.key <;> simp

variable {call : Call} {db : Database} {runId : String} {r : RunRecord}

theorem leads_enterHistory (e : HistoryEntry) :
    (enterHistory e).Leads call db ()
      { db with history := appendNew HistoryEntry.sameSlot db.history e.stored } :=
  leads_bind (leads_attempt _ _ _) (leads_modify _)

theorem leads_enterModel (e : ModelEntry) :
    (enterModel e).Leads call db ()
      { db with modelMetrics := appendNew ModelEntry.sameSlot db.modelMetrics e } :=
  leads_bind (leads_attempt _ _ _) (leads_modify _)

theorem leads_putLatest (h : db.runs.get? runId = some r) (key : String) (p : Point) :
    (putLatest runId key p).Leads call db ()
      (db.alterLatest runId fun latest => latest.insert key p.stored) := by
  refine leads_bind (leads_ask (Runs.require_eq_ok_iff.mpr h)) <|
    leads_bind (leads_attemptUpsert _ _ _) ?_
  rw [Database.alterLatest, Table.update_of_get? h]
  exact leads_modify _

theorem leads_advance (h : db.runs.get? runId = some r) (found : Table String Point)
    (winner : String × HistoryEntry) :
    (advance found runId winner.1 winner.2.point).Leads call db ()
      (db.alterLatest runId fun latest => advanced found latest winner) := by
  unfold advance advanced
  cases found.get? winner.1 with
  | none => exact leads_putLatest h _ _
  | some current =>
    simp only
    split_ifs
    · exact leads_putLatest h _ _
    · rw [Database.alterLatest_id]
      exact leads_pure

/-- Storing winners one after the other, where `f` says what storing one does. -/
theorem leads_forM_alterLatest {step : String × HistoryEntry → Work PUnit}
    {f : Table String Point → String × HistoryEntry → Table String Point}
    (hstep : ∀ winner db r, db.runs.get? runId = some r →
      (step winner).Leads call db ⟨⟩ (db.alterLatest runId fun latest => f latest winner))
    (winners : List (String × HistoryEntry)) (h : db.runs.get? runId = some r) :
    (winners.forM step).Leads call db ⟨⟩
      (db.alterLatest runId fun latest => winners.foldl f latest) := by
  induction winners generalizing db r with
  | nil =>
    rw [funext fun latest => List.foldl_nil, Database.alterLatest_id]
    exact leads_pure
  | cons winner winners ih =>
    have hrest := ih (Database.get?_alterLatest_self h fun latest => f latest winner)
    rw [Database.alterLatest_alterLatest] at hrest
    exact leads_bind (hstep winner db r h) hrest

theorem leads_advanceLatest (h : db.runs.get? runId = some r) (es : List HistoryEntry)
    (hroom : call.HasRoomFor (es.map HistoryEntry.key)) :
    (advanceLatest runId es).Leads call db ()
      (db.alterLatest runId fun latest => es.foldl raise latest) := by
  let best := winners HistoryEntry.key HistoryEntry.point es
  obtain ⟨found, hfound⟩ := exists_lookUp r.latest ((hasRoomFor_map_key es).mp hroom)
  have hwinners : (best.entries.forM fun winner =>
      advance found runId winner.1 winner.2.point).Leads call db ()
      (db.alterLatest runId fun latest => best.entries.foldl (advanced found) latest) :=
    leads_forM_alterLatest (fun winner _ _ hr => leads_advance hr found winner) best.entries h
  have hmoved : best.entries.foldl (advanced found) r.latest = es.foldl raise r.latest :=
    foldl_advanced_entries es fun _ => get?_lookUp hfound
  rw [Database.alterLatest_congr (g := fun latest => es.foldl raise latest) h hmoved] at hwinners
  exact leads_bind (leads_ask (Runs.require_eq_ok_iff.mpr h)) <| leads_bind leads_read <|
    leads_bind (leads_ask hfound) hwinners

/-- Without room for the keys the latest points cannot even be looked up. -/
theorem raises_advanceLatest (hcall : call.Undisturbed) (h : db.runs.get? runId = some r)
    {es : List HistoryEntry} (hroom : ¬ call.HasRoomFor (es.map HistoryEntry.key)) :
    (advanceLatest runId es).Raises call db .statementFailed := by
  have hfailed := lookUp_eq_error r.latest (mt (hasRoomFor_map_key es).mpr hroom)
  refine ((leads_ask (Runs.require_eq_ok_iff.mpr h)).raises_next hcall).mpr <|
    (leads_read.raises_next hcall).mpr <| (raises_bind _ _).mpr <|
    .inl <| (raises_ask _).mpr hfailed

theorem hasRoomFor_of_yields_advanceLatest {es : List HistoryEntry} {db' : Database}
    (h : (advanceLatest runId es).Yields call db () db') :
    call.HasRoomFor (es.map HistoryEntry.key) := by
  obtain ⟨r, -, hrest⟩ := yields_ask_bind.mp h
  obtain ⟨found, hfound, -⟩ := yields_ask_bind.mp (leads_read.next hrest)
  by_contra hroom
  have hfailed := lookUp_eq_error r.latest (mt (hasRoomFor_map_key es).mpr hroom)
  cases hfound.symm.trans hfailed

theorem leads_forM_enterHistory (es : List HistoryEntry) :
    (es.forM enterHistory).Leads call db ⟨⟩
      { db with
        history :=
          (es.map HistoryEntry.stored).foldl (appendNew HistoryEntry.sameSlot) db.history } := by
  induction es generalizing db with
  | nil => exact leads_pure
  | cons e es ih => exact leads_bind (leads_enterHistory e) ih

theorem leads_forM_enterModel (es : List ModelEntry) :
    (es.forM enterModel).Leads call db ⟨⟩
      { db with
        modelMetrics := es.foldl (appendNew ModelEntry.sameSlot) db.modelMetrics } := by
  induction es generalizing db with
  | nil => exact leads_pure
  | cons e es ih => exact leads_bind (leads_enterModel e) ih

/-- What entering observations of a run leads to. -/
theorem leads_enter (h : db.runs.get? runId = some r) (es : List HistoryEntry)
    (hroom : call.HasRoomFor (es.map HistoryEntry.key)) :
    (enter runId r es).Leads call db () (db.logged runId r.experimentId es) := by
  have hlatest (history : List HistoryEntry) (modelMetrics : List ModelEntry) :
      (advanceLatest runId es).Leads call { db with history, modelMetrics } ()
        (Database.alterLatest runId (fun latest => es.foldl raise latest)
          { db with history, modelMetrics }) := by
    have hrun : ({ db with history, modelMetrics } : Database).runs.get? runId = some r := h
    exact leads_advanceLatest hrun es hroom
  exact leads_bind (leads_forM_enterHistory es) <| leads_bind (leads_checkpoint _ _) <|
    leads_bind (leads_forM_enterModel _) <| leads_bind (leads_checkpoint _ _) (hlatest _ _)

theorem raises_enter (hcall : call.Undisturbed) (h : db.runs.get? runId = some r)
    {es : List HistoryEntry} (hroom : ¬ call.HasRoomFor (es.map HistoryEntry.key)) :
    (enter runId r es).Raises call db .statementFailed := by
  have hlatest (history : List HistoryEntry) (modelMetrics : List ModelEntry) :
      (advanceLatest runId es).Raises call { db with history, modelMetrics } .statementFailed := by
    have hrun : ({ db with history, modelMetrics } : Database).runs.get? runId = some r := h
    exact raises_advanceLatest hcall hrun hroom
  exact ((leads_forM_enterHistory es).raises_next hcall).mpr <|
    ((leads_checkpoint _ _).raises_next hcall).mpr <|
    ((leads_forM_enterModel _).raises_next hcall).mpr <|
    ((leads_checkpoint _ _).raises_next hcall).mpr (hlatest _ _)

theorem hasRoomFor_of_yields_enter {es : List HistoryEntry} {db' : Database}
    (h : (enter runId r es).Yields call db () db') :
    call.HasRoomFor (es.map HistoryEntry.key) := by
  have hmodels := (leads_checkpoint _ _).next ((leads_forM_enterHistory es).next h)
  exact hasRoomFor_of_yields_advanceLatest <|
    (leads_checkpoint _ _).next ((leads_forM_enterModel _).next hmodels)

/-- **What logging a batch leads to**: all its observations are entered, in their order. -/
theorem leads_record (h : db.runs.get? runId = some r) (hactive : r.stage = .active)
    {metrics : List Metric} (hkeys : checkKeys metrics = .ok ())
    (hroom : call.HasRoomFor (metrics.map Metric.key)) :
    (record runId metrics).Leads call db ()
      (db.logged runId r.experimentId (metrics.map (HistoryEntry.ofMetric runId))) := by
  rw [← Database.logged_distinct]
  refine leads_within <| leads_transact <|
    leads_bind (leads_ask (Runs.requireActive_eq_ok_iff.mpr ⟨h, hactive⟩)) <|
    leads_bind (leads_ask hkeys) ?_
  have hbatch : distinct (· == ·) (metrics.map (HistoryEntry.ofMetric runId)) =
      batch runId metrics := rfl
  rw [← hasRoomFor_batch runId] at hroom
  rw [hbatch]
  cases hentries : batch runId metrics with
  | nil =>
    rw [Database.logged_nil]
    exact leads_pure
  | cons e es => exact leads_enter h (e :: es) (hentries ▸ hroom)

/-- A batch is logged only for an active run, and only if all its keys are given. -/
theorem record_inversion {metrics : List Metric} {db' : Database}
    (h : (record runId metrics).Yields call db () db') :
    ∃ r, db.runs.get? runId = some r ∧ r.stage = .active ∧ checkKeys metrics = .ok () ∧
      db' = db.logged runId r.experimentId (metrics.map (HistoryEntry.ofMetric runId)) := by
  have htransact := h
  rw [record, yields_within, yields_transact] at htransact
  obtain ⟨r, hrun, hrest⟩ := yields_ask_bind.mp htransact.2.2.1
  obtain ⟨_, hkeys, hrest⟩ := yields_ask_bind.mp hrest
  obtain ⟨hrun, hactive⟩ := Runs.requireActive_eq_ok_iff.mp hrun
  have hroom : call.HasRoomFor (metrics.map Metric.key) := by
    rw [← hasRoomFor_batch runId]
    cases hentries : batch runId metrics with
    | nil => exact .inr (Nat.zero_le _)
    | cons e es =>
      rw [hentries] at hrest
      exact hasRoomFor_of_yields_enter hrest
  exact ⟨r, hrun, hactive, hkeys, ((leads_record hrun hactive hkeys hroom).1 () db' h).2⟩

/-- **A batch for which there is no room is not logged**, also if nothing disturbs the call, and
what it has entered by then is gone. -/
theorem failsWith_record_of_not_hasRoomFor (hcall : call.Undisturbed)
    (h : db.runs.get? runId = some r) (hactive : r.stage = .active) {metrics : List Metric}
    (hkeys : checkKeys metrics = .ok ()) (hroom : ¬ call.HasRoomFor (metrics.map Metric.key)) :
    (record runId metrics).FailsWith call db .internalError := by
  have hchecked : (ask fun _ => checkKeys metrics : Work Unit).Leads call db () db :=
    leads_ask hkeys
  refine .within _ (Raises.failsWith_transact (e := .statementFailed) ?_ hcall.unhindered _)
  refine ((leads_ask (Runs.requireActive_eq_ok_iff.mpr ⟨h, hactive⟩)).raises_next hcall).mpr <|
    (hchecked.raises_next hcall).mpr ?_
  rw [← hasRoomFor_batch runId] at hroom
  cases hentries : batch runId metrics with
  | nil => exact absurd (hentries ▸ .inr (Nat.zero_le _)) hroom
  | cons e es => exact raises_enter hcall h (hentries ▸ hroom)

/-- **What rebuilding leads to**: the latest points are made anew from the history. -/
theorem leads_rebuild (h : db.runs.get? runId = some r) :
    (rebuild runId).Leads call db
      (winners HistoryEntry.key HistoryEntry.point (entriesOf runId db)).entries.length
      (db.alterLatest runId fun _ => (entriesOf runId db).foldl raise .empty) := by
  let best := winners HistoryEntry.key HistoryEntry.point (entriesOf runId db)
  have hempty : (Runs.put runId { r with latest := .empty }).Leads call db ()
      (db.alterLatest runId fun _ => .empty) := by
    rw [Database.alterLatest, Table.update_of_get? h]
    exact leads_modify _
  have hwinners : (best.entries.forM fun winner =>
      putLatest runId winner.1 winner.2.point).Leads call
      (db.alterLatest runId fun _ => .empty) ()
      (db.alterLatest runId fun _ => (entriesOf runId db).foldl raise .empty) := by
    have hstored : (best.entries.forM fun winner =>
        putLatest runId winner.1 winner.2.point).Leads call
        (db.alterLatest runId fun _ => .empty) ()
        ((db.alterLatest runId fun _ => .empty).alterLatest runId fun latest =>
          best.entries.foldl (fun latest (winner : String × HistoryEntry) =>
            latest.insert winner.1 winner.2.point.stored) latest) :=
      leads_forM_alterLatest
        (fun winner _ _ hr => leads_putLatest hr winner.1 winner.2.point)
        best.entries (Database.get?_alterLatest_self h fun _ => .empty)
    rwa [Database.alterLatest_alterLatest, foldl_insert_winners] at hstored
  exact leads_within <| leads_transact <|
    leads_bind (leads_ask (Runs.require_eq_ok_iff.mpr h)) <| leads_bind leads_get <|
    leads_bind (leads_attempt _ _ _) <| leads_bind hempty <|
    leads_bind (leads_checkpoint _ _) <| leads_bind hwinners leads_pure

theorem rebuild_inversion {n : Nat} {db' : Database}
    (h : (rebuild runId).Yields call db n db') :
    (∃ r, db.runs.get? runId = some r) ∧
      db' = db.alterLatest runId fun _ => (entriesOf runId db).foldl raise .empty := by
  have htransact := h
  rw [rebuild, yields_within, yields_transact] at htransact
  obtain ⟨r, db₁, hrun, -⟩ := (yields_bind _ _).mp htransact.2.2.1
  have hrun := Runs.require_eq_ok_iff.mp ((yields_ask _).mp hrun).1
  exact ⟨⟨r, hrun⟩, ((leads_rebuild hrun).1 n db' h).2⟩

end MetricLog

end RunLedger
