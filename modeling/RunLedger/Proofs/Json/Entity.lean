import RunLedger.Config
import RunLedger.Json.Entity
import RunLedger.Proofs.Json.RoundTrip

/-!
# Entities read back from JSON

Every entity and the configuration of a ledger keep the law of their codec: with any text in their
strings, any integers of 64 bits and any nesting of tags, aliases and versions they are decoded from
their own form, and what is decoded at all is such an entity.

## Main results

* `LawfulJsonCodec.of_enum`: the law of an enumeration.
* The `LawfulJsonCodec` instances of the stages, the status, the journal mode, `Tag`,
  `AliasBinding`, `Metric`, `ModelMetric`, `Experiment`, `Run`, `ModelVersion`, `RegisteredModel`
  and `Config`.
* `entities_are_read_back_from_their_texts`: encoding and decoding undo each other at each of these
  types and at lists of metrics.
-/

namespace RunLedger

open JsonCodec JsonContents Json

/-! ### Fields -/

theorem nullable?_ofString (o : Option String) :
    nullable? text? (ofOption ofString o) = some o :=
  nullable?_ofOption (fun _ => nofun) fun s _ => text?_ofString s

theorem nullable?_ofInt {o : Option Int} (h : ∀ n ∈ o, inInt64 n) :
    nullable? int64? (ofOption ofInt o) = some o :=
  nullable?_ofOption (fun _ => nofun) fun n hn => int64?_ofInt (h n hn)

theorem inInt64_of_int64? (j : Json) (n : Int) (h : int64? j = some n) : inInt64 n := by
  cases j with
  | number written =>
    simp only [int64?] at h
    split at h
    · cases h
    · exact Text.inInt64_of_readInt64? h
  | _ => cases h

theorem lt_of_nat64? (j : Json) (n : Nat) (h : nat64? j = some n) : n < 0x10000000000000000 := by
  cases j with
  | number written => simpa using (Option.filter_eq_some_iff.1 h).2
  | _ => cases h

/-! ### Enumerations -/

/-- An enumeration is decoded from the names of its values if each name stands for its value. -/
theorem LawfulJsonCodec.of_enum {α : Type} [JsonCodec α] [JsonContents α] (name : α → String)
    (ofName? : String → Option α) (hencode : ∀ a, encode a = ofString (name a))
    (hdecode : ∀ j, decode? j = enum? ofName? j) (hname : ∀ a, ofName? (name a) = some a)
    (hfits : ∀ a : α, Fits a) (hnumbers : ∀ a : α, numbers a = []) : LawfulJsonCodec α where
  wellWritten a := hencode a ▸ wellWritten_ofString (name a)
  decode?_encode {a} _ _ := by rw [hencode, hdecode, enum?_ofString, hname]
  fits_of_decode? _ := hfits _
  isFinite_of_decode? _ x hx := by rw [hnumbers] at hx; cases hx

instance : JsonContents LifecycleStage where

instance : JsonContents VersionStage where

instance : JsonContents VersionStatus where

instance : JsonContents JournalMode where

instance : LawfulJsonCodec LifecycleStage :=
  .of_enum LifecycleStage.stored LifecycleStage.ofStored? (fun _ => rfl) (fun _ => rfl)
    LifecycleStage.ofStored?_stored (fun _ => trivial) fun _ => rfl

instance : LawfulJsonCodec VersionStage :=
  .of_enum VersionStage.stored VersionStage.ofStored? (fun _ => rfl) (fun _ => rfl)
    VersionStage.ofStored?_stored (fun _ => trivial) fun _ => rfl

instance : LawfulJsonCodec VersionStatus :=
  .of_enum VersionStatus.stored VersionStatus.ofStored? (fun _ => rfl) (fun _ => rfl)
    (fun status => by cases status <;> rfl) (fun _ => trivial) fun _ => rfl

instance : LawfulJsonCodec JournalMode :=
  .of_enum JournalMode.text JournalMode.ofText? (fun _ => rfl) (fun _ => rfl)
    (fun mode => by cases mode <;> rfl) (fun _ => trivial) fun _ => rfl

/-! ### Tags and aliases -/

instance : JsonContents Tag where

instance : LawfulJsonCodec Tag where
  wellWritten tag := wellWritten_ofFields (by simp [wellWritten_ofString])
  decode?_encode {tag} _ _ := by
    change Tag.ofJson? tag.toJson = some tag
    rw [Tag.ofJson?, Tag.toJson, record?_ofFields]
    · simp [RecordFields.required?, RecordFields.at?, text?_ofString]
    · rfl
    · decide
  fits_of_decode? _ := trivial
  isFinite_of_decode? _ := nofun

instance : JsonContents AliasBinding where
  Fits binding := inInt64 binding.version

instance : LawfulJsonCodec AliasBinding where
  wellWritten binding := wellWritten_ofFields (by simp [wellWritten_ofString, wellWritten_ofInt])
  decode?_encode {binding} hfits _ := by
    have hversion : int64? (ofInt binding.version) = some binding.version := int64?_ofInt hfits
    change AliasBinding.ofJson? binding.toJson = some binding
    rw [AliasBinding.ofJson?, AliasBinding.toJson, record?_ofFields]
    · simp [RecordFields.required?, RecordFields.at?, text?_ofString, hversion]
    · rfl
    · decide
  fits_of_decode? {j binding} h := by
    change AliasBinding.ofJson? j = some binding at h
    simp only [AliasBinding.ofJson?, read_then_eq_some_iff, Option.some.injEq] at h
    obtain ⟨fields, -, name, -, version, hversion, rfl⟩ := h
    exact RecordFields.of_required? inInt64_of_int64? hversion
  isFinite_of_decode? _ := nofun

/-! ### Metrics -/

instance : JsonContents Metric where
  Fits m := inInt64 m.timestamp ∧ inInt64 m.step
  numbers m := [m.value]

/-- An observation is decoded from its own form if its numbers are. -/
theorem Metric.ofJson?_toJson (m : Metric) :
    ofJson? m.toJson =
      (do
        let value ← binary64? (ofBinary64 m.value)
        let timestamp ← int64? (ofInt m.timestamp)
        let step ← int64? (ofInt m.step)
        some { m with value, timestamp, step }) := by
  have hassociation : ∀ s, nullable? text? (ofString s) = some (some s) :=
    fun s => nullable?_ofString (some s)
  obtain ⟨key, value, timestamp, step, modelId, datasetName, datasetDigest⟩ := m
  -- an association that is absent has no field at all, so the names differ from case to case
  cases modelId <;> cases datasetName <;> cases datasetDigest <;>
    · rw [ofJson?, toJson, given_ofFields (by simp), Option.bind_eq_bind, Option.bind_some]
      simp [RecordFields.required?, RecordFields.defaulted?, RecordFields.at?, List.lookup_cons,
        text?_ofString, hassociation]

instance : LawfulJsonCodec Metric where
  wellWritten m := wellWritten_ofFields (by
    cases m.modelId <;> cases m.datasetName <;> cases m.datasetDigest <;>
      simp [wellWritten_ofString, wellWritten_ofInt, wellWritten_ofBinary64])
  decode?_encode {m} hfits hnumbers := by
    have htimestamp : int64? (ofInt m.timestamp) = some m.timestamp := int64?_ofInt hfits.1
    have hstep : int64? (ofInt m.step) = some m.step := int64?_ofInt hfits.2
    have hvalue : binary64? (ofBinary64 m.value) = some m.value := hnumbers _ (by simp [numbers])
    change Metric.ofJson? m.toJson = some m
    rw [Metric.ofJson?_toJson, hvalue, htimestamp, hstep]
    rfl
  fits_of_decode? {j m} h := by
    change Metric.ofJson? j = some m at h
    simp only [Metric.ofJson?, read_then_eq_some_iff, Option.some.injEq] at h
    obtain ⟨fields, -, key, -, value, -, timestamp, htimestamp, step, hstep, modelId, -,
      datasetName, -, datasetDigest, -, rfl⟩ := h
    exact ⟨RecordFields.of_required? inInt64_of_int64? htimestamp,
      RecordFields.of_defaulted? inInt64_of_int64? (by decide) hstep⟩
  isFinite_of_decode? {j m} h := by
    change Metric.ofJson? j = some m at h
    simp only [Metric.ofJson?, read_then_eq_some_iff, Option.some.injEq] at h
    obtain ⟨fields, -, key, -, value, hvalue, timestamp, -, step, -, modelId, -,
      datasetName, -, datasetDigest, -, rfl⟩ := h
    have hfinite : value.IsFinite :=
      RecordFields.of_required? (fun _ _ => isFinite_of_binary64?) hvalue
    simpa [numbers] using hfinite

instance : JsonContents ModelMetric where
  Fits m := inInt64 m.timestamp ∧ inInt64 m.step ∧ inInt64 m.experimentId
  numbers m := [m.value]

instance : LawfulJsonCodec ModelMetric where
  wellWritten m := wellWritten_ofFields (by
    simp [wellWritten_ofString, wellWritten_ofInt, wellWritten_ofBinary64,
      wellWritten_ofOption wellWritten_ofString])
  decode?_encode {m} hfits hnumbers := by
    have htimestamp : int64? (ofInt m.timestamp) = some m.timestamp := int64?_ofInt hfits.1
    have hstep : int64? (ofInt m.step) = some m.step := int64?_ofInt hfits.2.1
    have hexperiment : int64? (ofInt m.experimentId) = some m.experimentId :=
      int64?_ofInt hfits.2.2
    have hvalue : binary64? (ofBinary64 m.value) = some m.value := hnumbers _ (by simp [numbers])
    change ModelMetric.ofJson? m.toJson = some m
    rw [ModelMetric.ofJson?, ModelMetric.toJson, record?_ofFields, Option.bind_eq_bind,
      Option.bind_some]
    · dsimp only [RecordFields.required?, RecordFields.optional?, RecordFields.at?, List.map,
        List.getElem?_cons_succ, List.getElem?_cons_zero, Option.join_some, Option.bind_some]
      simp only [text?_ofString, nullable?_ofString, htimestamp, hstep, hexperiment, hvalue,
        Option.bind_eq_bind, Option.bind_some]
    · rfl
    · decide
  fits_of_decode? {j m} h := by
    change ModelMetric.ofJson? j = some m at h
    simp only [ModelMetric.ofJson?, read_then_eq_some_iff, Option.some.injEq] at h
    obtain ⟨fields, -, modelId, -, name, -, timestamp, htimestamp, step, hstep, value, -,
      experimentId, hexperiment, runId, -, datasetName, -, datasetDigest, -, rfl⟩ := h
    exact ⟨RecordFields.of_required? inInt64_of_int64? htimestamp,
      RecordFields.of_required? inInt64_of_int64? hstep,
      RecordFields.of_required? inInt64_of_int64? hexperiment⟩
  isFinite_of_decode? {j m} h := by
    change ModelMetric.ofJson? j = some m at h
    simp only [ModelMetric.ofJson?, read_then_eq_some_iff, Option.some.injEq] at h
    obtain ⟨fields, -, modelId, -, name, -, timestamp, -, step, -, value, hvalue,
      experimentId, -, runId, -, datasetName, -, datasetDigest, -, rfl⟩ := h
    have hfinite : value.IsFinite :=
      RecordFields.of_required? (fun _ _ => isFinite_of_binary64?) hvalue
    simpa [numbers] using hfinite

/-! ### Experiments and runs -/

instance : JsonContents Experiment where
  Fits e := inInt64 e.id ∧ inInt64 e.creationTime ∧ inInt64 e.lastUpdateTime

instance : LawfulJsonCodec Experiment where
  wellWritten e := wellWritten_ofFields (by
    simp [wellWritten_ofString, wellWritten_ofInt, LawfulJsonCodec.wellWritten])
  decode?_encode {e} hfits _ := by
    have hid : int64? (ofInt e.id) = some e.id := int64?_ofInt hfits.1
    have hcreated : int64? (ofInt e.creationTime) = some e.creationTime := int64?_ofInt hfits.2.1
    have hupdated : int64? (ofInt e.lastUpdateTime) = some e.lastUpdateTime :=
      int64?_ofInt hfits.2.2
    have hstage : decode? (encode e.stage) = some e.stage :=
      LawfulJsonCodec.decode?_encode trivial (by simp [numbers])
    have htags : decode? (encode e.tags) = some e.tags :=
      LawfulJsonCodec.decode?_encode (fun _ _ => trivial) (by simp [numbers])
    change Experiment.ofJson? e.toJson = some e
    rw [Experiment.ofJson?, Experiment.toJson, record?_ofFields, Option.bind_eq_bind,
      Option.bind_some]
    · dsimp only [RecordFields.required?, RecordFields.defaulted?, RecordFields.at?, List.map,
        List.getElem?_cons_succ, List.getElem?_cons_zero, Option.join_some, Option.bind_some]
      simp only [text?_ofString, hid, hcreated, hupdated, hstage, htags, Option.bind_eq_bind,
        Option.bind_some]
    · rfl
    · decide
  fits_of_decode? {j e} h := by
    change Experiment.ofJson? j = some e at h
    simp only [Experiment.ofJson?, read_then_eq_some_iff, Option.some.injEq] at h
    obtain ⟨fields, -, id, hid, name, -, artifactLocation, -, stage, -, creationTime, hcreated,
      lastUpdateTime, hupdated, tags, -, rfl⟩ := h
    exact ⟨RecordFields.of_required? inInt64_of_int64? hid,
      RecordFields.of_required? inInt64_of_int64? hcreated,
      RecordFields.of_required? inInt64_of_int64? hupdated⟩
  isFinite_of_decode? _ := nofun

instance : JsonContents Run where
  Fits r := inInt64 r.experimentId ∧ inInt64 r.startTime ∧ (∀ t ∈ r.endTime, inInt64 t)
    ∧ ∀ t ∈ r.deletedTime, inInt64 t

instance : LawfulJsonCodec Run where
  wellWritten r := wellWritten_ofFields (by
    simp [wellWritten_ofString, wellWritten_ofInt, wellWritten_ofOption wellWritten_ofString,
      wellWritten_ofOption wellWritten_ofInt, LawfulJsonCodec.wellWritten])
  decode?_encode {r} hfits _ := by
    obtain ⟨hexperimentFits, hstartFits, hendFits, hdeletedFits⟩ := hfits
    have hexperiment : int64? (ofInt r.experimentId) = some r.experimentId :=
      int64?_ofInt hexperimentFits
    have hstart : int64? (ofInt r.startTime) = some r.startTime := int64?_ofInt hstartFits
    have hend : nullable? int64? (ofOption ofInt r.endTime) = some r.endTime :=
      nullable?_ofInt hendFits
    have hdeleted : nullable? int64? (ofOption ofInt r.deletedTime) = some r.deletedTime :=
      nullable?_ofInt hdeletedFits
    have hstage : decode? (encode r.stage) = some r.stage :=
      LawfulJsonCodec.decode?_encode trivial (by simp [numbers])
    change Run.ofJson? r.toJson = some r
    rw [Run.ofJson?, Run.toJson, record?_ofFields, Option.bind_eq_bind, Option.bind_some]
    · dsimp only [RecordFields.required?, RecordFields.optional?, RecordFields.at?, List.map,
        List.getElem?_cons_succ, List.getElem?_cons_zero, Option.join_some, Option.bind_some]
      simp only [text?_ofString, nullable?_ofString, hexperiment, hstart, hend, hdeleted, hstage,
        Option.bind_eq_bind, Option.bind_some]
    · rfl
    · decide
  fits_of_decode? {j r} h := by
    change Run.ofJson? j = some r at h
    simp only [Run.ofJson?, read_then_eq_some_iff, Option.some.injEq] at h
    obtain ⟨fields, -, id, -, experimentId, hexperiment, name, -, userId, -, status, -, startTime,
      hstart, endTime, hend, artifactUri, -, stage, -, deletedTime, hdeleted, rfl⟩ := h
    exact ⟨RecordFields.of_required? inInt64_of_int64? hexperiment,
      RecordFields.of_required? inInt64_of_int64? hstart,
      RecordFields.of_optional? inInt64_of_int64? hend,
      RecordFields.of_optional? inInt64_of_int64? hdeleted⟩
  isFinite_of_decode? _ := nofun

/-! ### Models and their versions -/

instance : JsonContents ModelVersion where
  Fits v := inInt64 v.version ∧ inInt64 v.creationTime ∧ inInt64 v.lastUpdatedTime

instance : LawfulJsonCodec ModelVersion where
  wellWritten v := wellWritten_ofFields (by
    simp [wellWritten_ofString, wellWritten_ofInt, wellWritten_ofOption wellWritten_ofString,
      LawfulJsonCodec.wellWritten])
  decode?_encode {v} hfits _ := by
    have hversion : int64? (ofInt v.version) = some v.version := int64?_ofInt hfits.1
    have hcreated : int64? (ofInt v.creationTime) = some v.creationTime := int64?_ofInt hfits.2.1
    have hupdated : int64? (ofInt v.lastUpdatedTime) = some v.lastUpdatedTime :=
      int64?_ofInt hfits.2.2
    have htags : decode? (encode v.tags) = some v.tags :=
      LawfulJsonCodec.decode?_encode (fun _ _ => trivial) (by simp [numbers])
    have haliases : decode? (encode v.aliases) = some v.aliases :=
      LawfulJsonCodec.decode?_encode (fun _ _ => trivial) (by simp [numbers])
    have hstage : decode? (encode v.stage) = some v.stage :=
      LawfulJsonCodec.decode?_encode trivial (by simp [numbers])
    have hstatus : decode? (encode v.status) = some v.status :=
      LawfulJsonCodec.decode?_encode trivial (by simp [numbers])
    change ModelVersion.ofJson? v.toJson = some v
    rw [ModelVersion.ofJson?, ModelVersion.toJson, record?_ofFields, Option.bind_eq_bind,
      Option.bind_some]
    · dsimp only [RecordFields.required?, RecordFields.optional?, RecordFields.defaulted?,
        RecordFields.at?, List.map, List.getElem?_cons_succ, List.getElem?_cons_zero,
        Option.join_some, Option.bind_some]
      simp only [text?_ofString, nullable?_ofString, hversion, hcreated, hupdated, hstage,
        hstatus, htags, haliases, Option.bind_eq_bind, Option.bind_some]
    · rfl
    · decide
  fits_of_decode? {j v} h := by
    change ModelVersion.ofJson? j = some v at h
    simp only [ModelVersion.ofJson?, read_then_eq_some_iff, Option.some.injEq] at h
    obtain ⟨fields, -, name, -, version, hversion, creationTime, hcreated, lastUpdatedTime,
      hupdated, description, -, userId, -, stage, -, source, -, runId, -, runLink, -, status, -,
      statusMessage, -, tags, -, aliases, -, rfl⟩ := h
    exact ⟨RecordFields.of_required? inInt64_of_int64? hversion,
      RecordFields.of_required? inInt64_of_int64? hcreated,
      RecordFields.of_required? inInt64_of_int64? hupdated⟩
  isFinite_of_decode? _ := nofun

instance : JsonContents RegisteredModel where
  Fits m := inInt64 m.creationTime ∧ inInt64 m.lastUpdatedTime ∧ Fits m.aliases
    ∧ Fits m.latestVersions

instance : LawfulJsonCodec RegisteredModel where
  wellWritten m := wellWritten_ofFields (by
    simp [wellWritten_ofString, wellWritten_ofInt, wellWritten_ofOption wellWritten_ofString,
      LawfulJsonCodec.wellWritten])
  decode?_encode {m} hfits _ := by
    obtain ⟨hcreatedFits, hupdatedFits, haliasesFit, hversionsFit⟩ := hfits
    have hcreated : int64? (ofInt m.creationTime) = some m.creationTime :=
      int64?_ofInt hcreatedFits
    have hupdated : int64? (ofInt m.lastUpdatedTime) = some m.lastUpdatedTime :=
      int64?_ofInt hupdatedFits
    have htags : decode? (encode m.tags) = some m.tags :=
      LawfulJsonCodec.decode?_encode (fun _ _ => trivial) (by simp [numbers])
    have haliases : decode? (encode m.aliases) = some m.aliases :=
      LawfulJsonCodec.decode?_encode haliasesFit (by simp [numbers])
    have hversions : decode? (encode m.latestVersions) = some m.latestVersions :=
      LawfulJsonCodec.decode?_encode hversionsFit (by simp [numbers])
    change RegisteredModel.ofJson? m.toJson = some m
    rw [RegisteredModel.ofJson?, RegisteredModel.toJson, record?_ofFields, Option.bind_eq_bind,
      Option.bind_some]
    · dsimp only [RecordFields.required?, RecordFields.optional?, RecordFields.defaulted?,
        RecordFields.at?, List.map, List.getElem?_cons_succ, List.getElem?_cons_zero,
        Option.join_some, Option.bind_some]
      simp only [text?_ofString, nullable?_ofString, hcreated, hupdated, htags, haliases,
        hversions, Option.bind_eq_bind, Option.bind_some]
    · rfl
    · decide
  fits_of_decode? {j m} h := by
    change RegisteredModel.ofJson? j = some m at h
    simp only [RegisteredModel.ofJson?, read_then_eq_some_iff, Option.some.injEq] at h
    obtain ⟨fields, -, name, -, creationTime, hcreated, lastUpdatedTime, hupdated, description, -,
      tags, -, aliases, haliases, latestVersions, hversions, rfl⟩ := h
    exact ⟨RecordFields.of_required? inInt64_of_int64? hcreated,
      RecordFields.of_required? inInt64_of_int64? hupdated,
      RecordFields.of_defaulted? (fun _ _ => LawfulJsonCodec.fits_of_decode?)
        (fun _ h => absurd h List.not_mem_nil) haliases,
      RecordFields.of_defaulted? (fun _ _ => LawfulJsonCodec.fits_of_decode?)
        (fun _ h => absurd h List.not_mem_nil) hversions⟩
  isFinite_of_decode? _ := nofun

/-! ### The configuration -/

instance : JsonContents Config where
  Fits c := c.busyTimeoutMs < 0x10000000000000000 ∧ c.chunkSize < 0x10000000000000000

instance : LawfulJsonCodec Config where
  wellWritten c := wellWritten_ofFields (by
    simp [wellWritten_ofString, wellWritten_ofInt, LawfulJsonCodec.wellWritten])
  decode?_encode {c} hfits _ := by
    have hwait : nat64? (ofInt c.busyTimeoutMs) = some c.busyTimeoutMs := nat64?_ofInt hfits.1
    have hchunk : nat64? (ofInt c.chunkSize) = some c.chunkSize := nat64?_ofInt hfits.2
    have hmode : decode? (encode c.journalMode) = some c.journalMode :=
      LawfulJsonCodec.decode?_encode trivial (by simp [numbers])
    change Config.ofJson? c.toJson = some c
    rw [Config.ofJson?, Config.toJson, record?_ofFields, Option.bind_eq_bind, Option.bind_some]
    · dsimp only [RecordFields.required?, RecordFields.defaulted?, RecordFields.at?, List.map,
        List.getElem?_cons_succ, List.getElem?_cons_zero, Option.join_some, Option.bind_some]
      simp only [text?_ofString, hwait, hchunk, hmode, Option.bind_eq_bind, Option.bind_some]
    · rfl
    · decide
  fits_of_decode? {j c} h := by
    change Config.ofJson? j = some c at h
    simp only [Config.ofJson?, read_then_eq_some_iff, Option.some.injEq] at h
    obtain ⟨fields, -, path, -, busyTimeoutMs, hwait, journalMode, -, chunkSize, hchunk,
      artifactRoot, -, rfl⟩ := h
    exact ⟨RecordFields.of_defaulted? lt_of_nat64? (by decide) hwait,
      RecordFields.of_defaulted? lt_of_nat64? (by decide) hchunk⟩
  isFinite_of_decode? _ := nofun

/-! ### All types -/

/-- Encoding and decoding undo each other at every entity, at the stages and the status, at lists of
metrics and at the configuration of a ledger. -/
theorem entities_are_read_back_from_their_texts :
    RoundTrips Metric ∧ RoundTrips (List Metric) ∧ RoundTrips ModelMetric ∧ RoundTrips Experiment
      ∧ RoundTrips Run ∧ RoundTrips RegisteredModel ∧ RoundTrips ModelVersion ∧ RoundTrips Tag
      ∧ RoundTrips AliasBinding ∧ RoundTrips LifecycleStage ∧ RoundTrips VersionStage
      ∧ RoundTrips VersionStatus ∧ RoundTrips JournalMode ∧ RoundTrips Config := by
  repeat' apply And.intro
  all_goals exact LawfulJsonCodec.roundTrips

/-- A metric at both ends of the range of integers, with quotes, a backslash, control characters and
letters of other scripts in its texts. -/
private def oddMetric : Metric where
  key := "\"loss\" \\ \x01\n é 損失 😀"
  value := Binary64.ofBits 0x3fb999999999999a
  timestamp := 9223372036854775807
  step := -9223372036854775808
  modelId := none
  datasetName := some ""
  datasetDigest := some "\x7f/\t"

theorem odd_metric_is_read_back_from_its_text :
    JsonCodec.ofText? (JsonCodec.toText oddMetric) = some oddMetric :=
  entities_are_read_back_from_their_texts.1.ofText?_toText oddMetric
    (by simp only [Fits]; decide)
    (fun x hx => by
      rw [List.mem_singleton.1 hx]
      unfold Binary64.IsFinite
      decide)
    (fun x hx _ => by
      rw [List.mem_singleton.1 hx]
      decide +kernel)

end RunLedger
