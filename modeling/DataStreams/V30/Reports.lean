import DataStreams.ReportCodec.JSONReport
import DataStreams.V30.Plugin

/-! Reports and their telemetry. A stream without an aggregate is a nil value, whose methods the
telemetry calls (v30). -/
namespace DataStreams.V30
open Go

abbrev Report := ProtocolReport

structure ReportWithInfo where
  report : Bytes
  lifeCycleStage : LifeCycleStage
  reportFormat : ReportFormat
  deriving DecidableEq

/-- What the report stage of an oracle is built from, besides its plugin. -/
structure ReportStage where
  configDigest : ConfigDigest
  donID : ℕ
  /-- The codecs the node has; a codec may crash on a report it does not expect. -/
  reportCodecs : ReportFormat → Option (Report → ChannelDefinition → OptsCache → Go Bytes)
  encodeRetirementReport : RetirementReport → Except String Bytes
  marshalDecimal : DecimalEncoder

structure ReportTelemetry where
  channelID : ChannelID
  validAfterNanoseconds : ℕ
  observationTimestampNanoseconds : ℕ
  reportFormat : ℕ
  specimen : Bool
  streamDefinitions : List (StreamID × ℕ)
  streamValues : List StreamValueProto
  channelOpts : Bytes
  seqNr : ℕ
  configDigest : ConfigDigest
  donID : ℕ

/-- A telemetry channel. Its reader runs at its own pace: any offer may find the channel
full or not. -/
structure TelemetryChannel where
  hasRoom : ℕ → Bool
  offers : ℕ
  sent : List ReportTelemetry

/-- A message that finds the channel full is dropped. -/
def TelemetryChannel.offer (ch : TelemetryChannel) (rt : ReportTelemetry) : TelemetryChannel :=
  { ch with offers := ch.offers + 1, sent := if ch.hasRoom ch.offers then ch.sent ++ [rt] else ch.sent }

namespace ReportStage
variable (S : ReportStage)
/-- A method call on a nil value crashes. -/
def telemetryValue : Option StreamValue → Go StreamValueProto
  | none => Go.panics "invalid memory address or nil pointer dereference"
  | some v =>
    match v.marshalBinary S.marshalDecimal with
    | .ok b => .ok ⟨v.type,b⟩
    | .error e => Go.err s!"error marshalling stream value: {e}"

def makeReportTelemetry (r : Report) (cd : ChannelDefinition) : Go ReportTelemetry := do
  let streamValues ← r.values.mapM S.telemetryValue
  .ok { channelID := r.channelID
        validAfterNanoseconds := r.validAfterNanoseconds
        observationTimestampNanoseconds := r.observationTimestampNanoseconds
        reportFormat := cd.reportFormat.code
        specimen := r.specimen
        streamDefinitions := cd.streams.map (fun s => (s.streamID,s.aggregator.code))
        streamValues
        channelOpts := cd.opts
        seqNr := r.seqNr
        configDigest := r.configDigest
        donID := S.donID }

/-- An error is only logged. -/
def captureReportTelemetry (r : Report) (cd : ChannelDefinition) :
    Option TelemetryChannel → Go (Option TelemetryChannel)
  | none => .ok none
  | some ch => do
    let rt ← Go.attempt (S.makeReportTelemetry r cd)
    .ok (some (rt.elim ch ch.offer))

def encode (r : Report) (cd : ChannelDefinition) (opts : OptsCache) : Go (Option Bytes) :=
  match S.reportCodecs cd.reportFormat with
  | none => .ok none
  | some encode => Go.attempt (encode r cd opts)

def encodeReport (r : Report) (cd : ChannelDefinition) (opts : OptsCache) (tel : Option TelemetryChannel) :
    Go (Option Bytes × Option TelemetryChannel) := do
  let tel ← if (S.reportCodecs cd.reportFormat).isSome then S.captureReportTelemetry r cd tel else .ok tel
  .ok (← S.encode r cd opts,tel)

def encodeBackfillReport (r : Report) (cd : ChannelDefinition) (opts : OptsCache) (tel : Option TelemetryChannel) :
    Go (Option Bytes × Option TelemetryChannel) := do
  let tel ← S.captureReportTelemetry r cd tel
  .ok (← S.encode r cd opts,tel)

end ReportStage

namespace Plugin
variable (P : Plugin) (S : ReportStage)

/-- The report of the next row of a backfill channel and the target definition it is
encoded with. It spans one tick of the target's resolution that ends at the row. -/
def backfillReport (seqNr : ℕ) (o : Outcome) (opts : OptsCache) (id : ChannelID) :
    Option (Report × ChannelDefinition) := do
  let row ← selectBackfillCandidate P.libs.json o id opts
  let target ← o.channelDefinitions.get? row.opts.targetChannelID
  let values ← (buildBackfillStreamValues P.libs target ((row.opts.observations.get? row.rawTS).getD ∅)).toOption
  let resNanos ← (reportTimestampResolutionNanos P.libs.json target).toOption
  some ({ configDigest := S.configDigest
          seqNr
          channelID := row.opts.targetChannelID
          validAfterNanoseconds := row.tsNanos - resNanos
          observationTimestampNanoseconds := row.tsNanos
          values := values.map some
          specimen := o.lifeCycleStage ≠ .production },target)

def intervalReport (seqNr : ℕ) (o : Outcome) (id : ChannelID) (cd : ChannelDefinition) : Report where
  configDigest := S.configDigest
  seqNr := seqNr
  channelID := id
  validAfterNanoseconds := (o.validAfterNanoseconds.get? id).getD 0
  observationTimestampNanoseconds := o.observationTimestampNanoseconds
  values := cd.streams.map (fun s => o.streamAggregates s.streamID s.aggregator)
  specimen := o.lifeCycleStage ≠ .production

def emitted (o : Outcome) (cd : ChannelDefinition) (encoded : Option Bytes × Option TelemetryChannel) :
    Option ReportWithInfo × Option TelemetryChannel :=
  (encoded.1.map (fun b => ⟨b,o.lifeCycleStage,cd.reportFormat⟩),encoded.2)

/-- One channel of the loop. A report that cannot be built or encoded is left out. -/
def reportChannel (seqNr : ℕ) (o : Outcome) (opts : OptsCache) (id : ChannelID) (tel : Option TelemetryChannel) :
    Go (Option ReportWithInfo × Option TelemetryChannel) :=
  match o.channelDefinitions.get? id with
  | none => .ok (none,tel)
  | some cd =>
    if cd.isBackfill then
      match P.backfillReport S seqNr o opts id with
      | none => .ok (none,tel)
      | some (r,target) => emitted o target <$> S.encodeBackfillReport r target opts tel
    else emitted o cd <$> S.encodeReport (intervalReport S seqNr o id cd) cd opts tel

def reportChannels (seqNr : ℕ) (o : Outcome) (opts : OptsCache) :
    List ChannelID → Option TelemetryChannel → Go (List ReportWithInfo × Option TelemetryChannel)
  | [],tel => .ok ([],tel)
  | id :: ids,tel => do
    let (r,tel) ← P.reportChannel S seqNr o opts id tel
    let (rs,tel) ← reportChannels seqNr o opts ids tel
    .ok (r.toList ++ rs,tel)

/-- A retired outcome first hands over its watermarks. -/
def retirementReports (o : Outcome) : Go (List ReportWithInfo) :=
  if o.lifeCycleStage = .retired then
    match S.encodeRetirementReport ⟨P.config.protocolVersion,some o.validAfterNanoseconds⟩ with
    | .error e => Go.err s!"error encoding retirement report: {e}"
    | .ok b => .ok [⟨b,.retired,.retirement⟩]
  else .ok []

def reports (seqNr : ℕ) (o : Outcome) (tel : Option TelemetryChannel) :
    Go (List ReportWithInfo × Option TelemetryChannel) :=
  if seqNr ≤ 1 then .ok ([],tel)
  else do
    let retirement ← P.retirementReports S o
    let (rs,tel) ← P.reportChannels S seqNr o (.ofDefinitions o.channelDefinitions)
      (o.reportedChannels P.libs.json P.config) tel
    .ok (retirement ++ rs,tel)

/-- The reports or the error the caller receives; nothing after a crash. -/
def receivedReports (seqNr : ℕ) (o : Outcome) (tel : Option TelemetryChannel) :
    Option (Except String (List ReportWithInfo)) :=
  Go.received (Prod.fst <$> P.reports S seqNr o tel)

end Plugin

namespace ReportStage
/-- One of the values is nil and the ones before it can be encoded. -/
def ReadsNil (S : ReportStage) : List (Option StreamValue) → Prop
  | [] => False
  | none :: _ => True
  | some v :: values => (v.marshalBinary S.marshalDecimal).isOk = true ∧ ReadsNil S values

lemma not_readsNil_map_some {S : ReportStage} (values : List StreamValue) : ¬ S.ReadsNil (values.map some) := by
  induction values with
  | nil => exact id
  | cons v values ih => exact fun h => ih h.2

lemma isPanic_makeReportTelemetry {S : ReportStage} {r : Report} {cd : ChannelDefinition} :
    Go.IsPanic (S.makeReportTelemetry r cd) ↔ S.ReadsNil r.values := by
  have hvalues : ∀ values : List (Option StreamValue),
      Go.IsPanic (values.mapM S.telemetryValue) ↔ S.ReadsNil values := by
    intro values
    induction values with
    | nil => exact Iff.rfl
    | cons v values ih =>
      rw [List.mapM_cons,isPanic_bind]
      cases v with
      | none => exact iff_of_true (.inl trivial) trivial
      | some v =>
        cases hv : v.marshalBinary S.marshalDecimal with
        | error e => simp [telemetryValue,ReadsNil,hv,Except.isOk,Except.toBool]
        | ok b => simp [telemetryValue,ReadsNil,hv,Except.isOk,Except.toBool,ih]
  rw [makeReportTelemetry,isPanic_bind,hvalues]
  simp

/-- Capturing the telemetry of a report crashes when a channel is set and a nil value is
read, and otherwise at most sends to the channel. -/
lemma captureReportTelemetry_cases (S : ReportStage) (r : Report) (cd : ChannelDefinition)
    (tel : Option TelemetryChannel) :
    ((tel.isSome ∧ S.ReadsNil r.values) ∧ Go.IsPanic (S.captureReportTelemetry r cd tel)) ∨
      (¬ (tel.isSome ∧ S.ReadsNil r.values) ∧
        ∃ tel', tel'.isSome = tel.isSome ∧ S.captureReportTelemetry r cd tel = .ok tel') := by
  cases tel with
  | none => exact .inr ⟨by simp,none,rfl,rfl⟩
  | some ch =>
    by_cases hnil : S.ReadsNil r.values
    · refine .inl ⟨⟨rfl,hnil⟩,?_⟩
      rw [captureReportTelemetry,isPanic_bind,isPanic_attempt,isPanic_makeReportTelemetry]
      exact .inl hnil
    · refine .inr ⟨fun h => hnil h.2,?_⟩
      rcases attempt_returns_or_isPanic (S.makeReportTelemetry r cd) with ⟨rt,hrt⟩ | hp
      · exact ⟨some (rt.elim ch ch.offer),rfl,by rw [captureReportTelemetry,hrt]; rfl⟩
      · exact absurd (isPanic_makeReportTelemetry.1 (isPanic_attempt.1 hp)) hnil

lemma encodeReport_cases (S : ReportStage) (r : Report) (cd : ChannelDefinition) (opts : OptsCache)
    (tel : Option TelemetryChannel) :
    ((tel.isSome ∧ (S.reportCodecs cd.reportFormat).isSome ∧ S.ReadsNil r.values) ∧
        Go.IsPanic (S.encodeReport r cd opts tel)) ∨
      (¬ (tel.isSome ∧ (S.reportCodecs cd.reportFormat).isSome ∧ S.ReadsNil r.values) ∧
        ∃ tel', tel'.isSome = tel.isSome ∧ S.encodeReport r cd opts tel = (·,tel') <$> S.encode r cd opts) := by
  unfold encodeReport
  by_cases hcodec : (S.reportCodecs cd.reportFormat).isSome
  · rw [if_pos hcodec]
    rcases S.captureReportTelemetry_cases r cd tel with ⟨hnil,hp⟩ | ⟨hnil,tel',htel,hcap⟩
    · exact .inl ⟨⟨hnil.1,hcodec,hnil.2⟩,isPanic_bind.2 (.inl hp)⟩
    · exact .inr ⟨fun h => hnil ⟨h.1,h.2.2⟩,tel',htel,by rw [hcap]; rfl⟩
  · rw [if_neg hcodec]
    exact .inr ⟨fun h => hcodec h.2.1,tel,rfl,rfl⟩

lemma encodeBackfillReport_eq {S : ReportStage} (r : Report) (cd : ChannelDefinition) (opts : OptsCache)
    (tel : Option TelemetryChannel) (hnil : ¬ S.ReadsNil r.values) :
    ∃ tel', tel'.isSome = tel.isSome ∧ S.encodeBackfillReport r cd opts tel = (·,tel') <$> S.encode r cd opts := by
  rcases S.captureReportTelemetry_cases r cd tel with ⟨h,_⟩ | ⟨_,tel',htel,hcap⟩
  · exact absurd h.2 hnil
  · exact ⟨tel',htel,by rw [encodeBackfillReport,hcap]; rfl⟩

lemma encode_returns_or_isPanic {S : ReportStage} (r : Report) (cd : ChannelDefinition) (opts : OptsCache) :
    Go.Returns (S.encode r cd opts) ∨ Go.IsPanic (S.encode r cd opts) := by
  unfold encode
  split
  · exact .inl ⟨none,rfl⟩
  · exact attempt_returns_or_isPanic _

end ReportStage

namespace Plugin
variable {P : Plugin} {S : ReportStage} {seqNr : ℕ} {o : Outcome}
/-- Telemetry of the channel's report would call a method of a nil value. -/
def CapturesNil (S : ReportStage) (o : Outcome) (id : ChannelID) : Prop :=
  ∃ cd, o.channelDefinitions.get? id = some cd ∧ cd.isBackfill = false ∧
    (S.reportCodecs cd.reportFormat).isSome ∧
    S.ReadsNil (cd.streams.map (fun s => o.streamAggregates s.streamID s.aggregator))

def plainReport (P : Plugin) (S : ReportStage) (seqNr : ℕ) (o : Outcome) (opts : OptsCache) (id : ChannelID) :
    Go (Option ReportWithInfo) :=
  Prod.fst <$> P.reportChannel S seqNr o opts id none

/-- The loop body crashes when telemetry is set and meets a nil value, and otherwise does
what it does without telemetry. -/
lemma reportChannel_cases (P : Plugin) (S : ReportStage) (seqNr : ℕ) (o : Outcome) (opts : OptsCache)
    (id : ChannelID) (tel : Option TelemetryChannel) :
    ((tel.isSome ∧ CapturesNil S o id) ∧ Go.IsPanic (P.reportChannel S seqNr o opts id tel)) ∨
      (¬ (tel.isSome ∧ CapturesNil S o id) ∧ ∃ tel', tel'.isSome = tel.isSome ∧
        P.reportChannel S seqNr o opts id tel = (·,tel') <$> P.plainReport S seqNr o opts id) := by
  unfold plainReport reportChannel
  cases hcd : o.channelDefinitions.get? id with
  | none => exact .inr ⟨fun ⟨_,cd,h,_⟩ => by simp [hcd] at h,tel,rfl,rfl⟩
  | some cd =>
    have hcap : CapturesNil S o id ↔ cd.isBackfill = false ∧ (S.reportCodecs cd.reportFormat).isSome ∧
        S.ReadsNil (intervalReport S seqNr o id cd).values := by
      simp [CapturesNil,hcd,intervalReport]
    dsimp only
    by_cases hb : cd.isBackfill = true
    · refine .inr ⟨fun h => by simp [hb] at hcap; exact hcap h.2,?_⟩
      simp only [if_pos hb]
      cases hr : P.backfillReport S seqNr o opts id with
      | none => exact ⟨tel,rfl,rfl⟩
      | some r =>
        have hnil : ¬ S.ReadsNil r.1.values := by
          simp only [backfillReport,Option.bind_eq_bind,Option.bind_eq_some_iff,Option.some.injEq] at hr
          obtain ⟨_,_,_,_,values,_,_,_,rfl⟩ := hr
          exact ReportStage.not_readsNil_map_some values
        obtain ⟨tel',htel,henc⟩ := ReportStage.encodeBackfillReport_eq r.1 r.2 opts tel hnil
        obtain ⟨_,_,hplain⟩ := ReportStage.encodeBackfillReport_eq r.1 r.2 opts none hnil
        refine ⟨tel',htel,?_⟩
        dsimp only
        rw [henc,hplain]
        cases S.encode r.1 r.2 opts <;> rfl
    · simp only [if_neg hb]
      rw [Bool.not_eq_true] at hb
      rcases S.encodeReport_cases (intervalReport S seqNr o id cd) cd opts tel with ⟨hnil,hp⟩ | ⟨hnil,tel',htel,henc⟩
      · exact .inl ⟨⟨hnil.1,hcap.2 ⟨hb,hnil.2⟩⟩,isPanic_map.2 hp⟩
      · refine .inr ⟨fun h => hnil ⟨h.1,(hcap.1 h.2).2⟩,tel',htel,?_⟩
        rcases S.encodeReport_cases (intervalReport S seqNr o id cd) cd opts none with ⟨h,_⟩ | ⟨_,_,_,hplain⟩
        · exact absurd h.1 nofun
        · rw [henc,hplain]
          cases S.encode (intervalReport S seqNr o id cd) cd opts <;> rfl

/-- Errors of a channel are logged, so only a panic ends the loop. -/
lemma plainReport_returns_or_isPanic (P : Plugin) (S : ReportStage) (seqNr : ℕ) (o : Outcome) (opts : OptsCache)
    (id : ChannelID) :
    Go.Returns (P.plainReport S seqNr o opts id) ∨ Go.IsPanic (P.plainReport S seqNr o opts id) := by
  have hmap : ∀ {α β : Type} (f : α → β) {x : Go α}, Go.Returns x ∨ Go.IsPanic x →
      Go.Returns (f <$> x) ∨ Go.IsPanic (f <$> x) := by
    rintro _ _ f x (⟨a,rfl⟩ | h)
    · exact .inl ⟨f a,rfl⟩
    · exact .inr (isPanic_map.2 h)
  unfold plainReport reportChannel
  refine hmap _ ?_
  split
  · exact .inl ⟨_,rfl⟩
  · split_ifs
    · split
      · exact .inl ⟨_,rfl⟩
      next r target _ => exact hmap _ (hmap _ (ReportStage.encode_returns_or_isPanic r target opts))
    next cd _ _ =>
      rcases S.encodeReport_cases (intervalReport S seqNr o id cd) cd opts none with ⟨h,_⟩ | ⟨_,_,_,henc⟩
      · exact absurd h.1 nofun
      · rw [henc]
        exact hmap _ (hmap _ (ReportStage.encode_returns_or_isPanic _ cd opts))

/-- The loop crashes when telemetry is set and one of the reports has a nil value it
reads, and otherwise collects the reports of the channels. -/
lemma reportChannels_cases (P : Plugin) (S : ReportStage) (seqNr : ℕ) (o : Outcome) (opts : OptsCache)
    (ids : List ChannelID) (tel : Option TelemetryChannel) :
    ((tel.isSome ∧ ∃ id ∈ ids, CapturesNil S o id) ∧ Go.IsPanic (P.reportChannels S seqNr o opts ids tel)) ∨
      (¬ (tel.isSome ∧ ∃ id ∈ ids, CapturesNil S o id) ∧
        Prod.fst <$> P.reportChannels S seqNr o opts ids tel =
          (List.flatMap Option.toList ·) <$> ids.mapM (P.plainReport S seqNr o opts)) := by
  induction ids generalizing tel with
  | nil => exact .inr ⟨by simp,rfl⟩
  | cons id ids ih =>
    simp only [List.mem_cons,exists_eq_or_imp,List.mapM_cons,reportChannels]
    rcases P.reportChannel_cases S seqNr o opts id tel with ⟨hnil,hp⟩ | ⟨hnil,tel',htel,hr⟩
    · exact .inl ⟨⟨hnil.1,.inl hnil.2⟩,isPanic_bind.2 (.inl hp)⟩
    rw [hr]
    rcases P.plainReport_returns_or_isPanic S seqNr o opts id with ⟨r,hplain⟩ | hplain
    · -- The head returns: the rest of the loop decides.
      rw [hplain]
      rcases ih tel' with ⟨hrest,hp⟩ | ⟨hrest,hrs⟩
      · refine .inl ⟨⟨htel ▸ hrest.1,.inr hrest.2⟩,?_⟩
        exact isPanic_bind.2 (.inr ⟨_,rfl,isPanic_bind.2 (.inl hp)⟩)
      · refine .inr ⟨?_,?_⟩
        · rintro ⟨hset,hhead | htail⟩
          · exact hnil ⟨hset,hhead⟩
          · exact hrest ⟨htel ▸ hset,htail⟩
        · have hloop : Prod.fst <$> (do
                let (rs,tel) ← P.reportChannels S seqNr o opts ids tel'
                Except.ok (r.toList ++ rs,tel) : Go (List ReportWithInfo × Option TelemetryChannel)) =
              (r.toList ++ ·) <$> Prod.fst <$> P.reportChannels S seqNr o opts ids tel' := by
            cases P.reportChannels S seqNr o opts ids tel' <;> rfl
          refine hloop.trans ?_
          rw [hrs]
          cases ids.mapM (P.plainReport S seqNr o opts) <;> rfl
    · -- The head crashes by itself, with or without telemetry.
      have hcrash : ∀ {x : Go (Option ReportWithInfo)}, Go.IsPanic x → ∃ m, x = .error (.panic m) := by
        rintro ((e | m) | a) h
        · exact h.elim
        · exact ⟨m,rfl⟩
        · exact h.elim
      obtain ⟨m,hm⟩ := hcrash hplain
      rw [hm]
      by_cases hset : tel.isSome ∧ (CapturesNil S o id ∨ ∃ id ∈ ids, CapturesNil S o id)
      · exact .inl ⟨hset,trivial⟩
      · exact .inr ⟨hset,rfl⟩

lemma retirementReports_of_reported {id : ChannelID} (h : id ∈ o.reportedChannels P.libs.json P.config) :
    P.retirementReports S o = .ok [] := by
  have hstage : o.lifeCycleStage ≠ .retired := by
    intro hr
    have hid := Outcome.mem_reportableChannels.1 h
    simp [Outcome.isReportable,hr] at hid
  rw [retirementReports,if_neg hstage]

/-- Without telemetry, the report of the channel crashes: its codec does. -/
def CodecPanics (P : Plugin) (S : ReportStage) (seqNr : ℕ) (o : Outcome) (id : ChannelID) : Prop :=
  Go.IsPanic (P.plainReport S seqNr o (.ofDefinitions o.channelDefinitions) id)

lemma receivedReports_eq (hseq : 1 < seqNr) (tel : Option TelemetryChannel) :
    P.receivedReports S seqNr o tel = Go.received (P.retirementReports S o >>= fun retirement =>
      (retirement ++ ·) <$> Prod.fst <$> P.reportChannels S seqNr o (.ofDefinitions o.channelDefinitions)
        (o.reportedChannels P.libs.json P.config) tel) := by
  rw [receivedReports,reports,if_neg (by omega)]
  cases P.retirementReports S o with
  | error e => rfl
  | ok retirement =>
    cases P.reportChannels S seqNr o (.ofDefinitions o.channelDefinitions)
      (o.reportedChannels P.libs.json P.config) tel <;> rfl

lemma receivedReports_eq_none_iff {id : ChannelID} (hseq : 1 < seqNr)
    (hid : id ∈ o.reportedChannels P.libs.json P.config) (tel : Option TelemetryChannel) :
    P.receivedReports S seqNr o tel = none ↔
      Go.IsPanic (P.reportChannels S seqNr o (.ofDefinitions o.channelDefinitions)
        (o.reportedChannels P.libs.json P.config) tel) := by
  rw [receivedReports_eq hseq,retirementReports_of_reported hid,ok_bind,received_eq_none,isPanic_map,isPanic_map]

lemma isPanic_mapM_plainReport {opts : OptsCache} {ids : List ChannelID} :
    Go.IsPanic (ids.mapM (P.plainReport S seqNr o opts)) ↔
      ∃ id ∈ ids, Go.IsPanic (P.plainReport S seqNr o opts id) :=
  isPanic_mapM fun id _ => P.plainReport_returns_or_isPanic S seqNr o opts id

/-- The caller of the report stage receives the same whatever telemetry is set exactly when
telemetry reads no nil value of a report, unless a codec crashes anyway. -/
theorem receivedReports_eq_iff :
    (∀ tel tel', P.receivedReports S seqNr o tel = P.receivedReports S seqNr o tel') ↔
      seqNr ≤ 1 ∨ (∀ id ∈ o.reportedChannels P.libs.json P.config, ¬ CapturesNil S o id) ∨
        ∃ id ∈ o.reportedChannels P.libs.json P.config, P.CodecPanics S seqNr o id := by
  constructor
  · intro hsame
    by_contra hnot
    simp only [not_or,not_le,not_forall,not_not,not_exists,not_and] at hnot
    obtain ⟨hseq,⟨id,hid,hnil⟩,hcodecs⟩ := hnot
    -- An empty channel that accepts everything is enough to crash the loop.
    have hset := P.reportChannels_cases S seqNr o (.ofDefinitions o.channelDefinitions)
      (o.reportedChannels P.libs.json P.config) (some ⟨fun _ => true,0,[]⟩)
    have hunset := P.reportChannels_cases S seqNr o (.ofDefinitions o.channelDefinitions)
      (o.reportedChannels P.libs.json P.config) none
    have hcrash := (receivedReports_eq_none_iff hseq hid _).2
      (hset.resolve_right fun h => h.1 ⟨rfl,id,hid,hnil⟩).2
    rw [hsame _ none,receivedReports_eq_none_iff hseq hid] at hcrash
    rcases hunset with ⟨h,_⟩ | ⟨_,hplain⟩
    · exact absurd h.1 nofun
    · rw [← isPanic_map (f := Prod.fst),hplain,isPanic_map,isPanic_mapM_plainReport] at hcrash
      obtain ⟨id,hid,hp⟩ := hcrash
      exact hcodecs id hid hp
  · intro hwhen tel tel'
    by_cases hseq : seqNr ≤ 1
    · rw [receivedReports,receivedReports,reports,reports,if_pos hseq,if_pos hseq]
      rfl
    have hseq' : 1 < seqNr := by omega
    rcases hwhen.resolve_left hseq with hnil | ⟨id,hid,hp⟩
    · have hloop : ∀ tel, Prod.fst <$> P.reportChannels S seqNr o (.ofDefinitions o.channelDefinitions)
          (o.reportedChannels P.libs.json P.config) tel = _ := fun tel =>
        ((P.reportChannels_cases S seqNr o (.ofDefinitions o.channelDefinitions) _ tel).resolve_left
          fun ⟨⟨_,id,hid,h⟩,_⟩ => hnil id hid h).2
      rw [receivedReports_eq hseq',receivedReports_eq hseq',hloop,hloop]
    · have hcrash : ∀ tel, P.receivedReports S seqNr o tel = none := by
        intro tel
        rw [receivedReports_eq_none_iff hseq' hid]
        rcases P.reportChannels_cases S seqNr o (.ofDefinitions o.channelDefinitions)
          (o.reportedChannels P.libs.json P.config) tel with ⟨_,h⟩ | ⟨_,hplain⟩
        · exact h
        · rw [← isPanic_map (f := Prod.fst),hplain,isPanic_map,isPanic_mapM_plainReport]
          exact ⟨id,hid,hp⟩
      rw [hcrash,hcrash]

def jsonStage : ReportStage where
  configDigest := 1
  donID := 1
  reportCodecs format := if format = .json then some fun r _ _ => ofExcept (encodeJSONReport (printedReports []) r) else none
  encodeRetirementReport _ := .ok []
  marshalDecimal := DataStreams.marshalDecimal

def jsonPlugin : Plugin := reading []

/-- Channel 1 reads stream 1, for which nothing was agreed; channel 2 reads stream 2. -/
def partialOutcome : Outcome where
  lifeCycleStage := .production
  observationTimestampNanoseconds := 20
  channelDefinitions := .ofList [(1,jsonChannel),(2,{ jsonChannel with streams := [⟨2,.median⟩] })]
  validAfterNanoseconds := .ofList [(1,10),(2,10)]
  streamAggregates id _ := if id = 2 then some (.decimal (.ofInt 5)) else none

/-- Without telemetry channel 1 is left out and channel 2 reports; with telemetry the
report stage crashes on channel 1. -/
theorem telemetry_of_missing_value_crashes :
    jsonPlugin.receivedReports jsonStage 2 partialOutcome none =
        some (.ok [⟨(reportText ⟨1,2,2,10,20,[⟨.decimal,['5']⟩],false⟩).bytes,.production,.json⟩]) ∧
      jsonPlugin.receivedReports jsonStage 2 partialOutcome (some ⟨fun _ => true,0,[]⟩) = none :=
  ⟨by decide +kernel,by decide +kernel⟩

end Plugin
end DataStreams.V30
