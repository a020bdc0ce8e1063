import DataStreams.Protocol.ChannelVotes
import DataStreams.V30.Observation

/-! The outcome of a round is the replicated state, and decides twice which channels report
(v30). -/
namespace DataStreams.V30
structure Outcome where
  lifeCycleStage : LifeCycleStage
  observationTimestampNanoseconds : ℕ
  channelDefinitions : ChannelDefinitions
  validAfterNanoseconds : SortedMap ChannelID ℕ
  streamAggregates : StreamAggregates

/-- What the encoded outcome decodes to. Version 0 keeps watermarks in seconds. -/
def Outcome.recoded (o : Outcome) (protocolVersion : ℕ) : Except String Outcome :=
  if protocolVersion ≠ 0 then .ok o
  else if o.validAfterNanoseconds.entries.any (fun e => e.2 / 10 ^ 9 > 2 ^ 32 - 1) then
    .error "cannot marshal protobuf; valid after seconds too large"
  else if o.observationTimestampNanoseconds > 2 ^ 63 - 1 then
    .error s!"cannot marshal protobuf; observation timestamp too large: {o.observationTimestampNanoseconds}"
  else .ok { o with validAfterNanoseconds := o.validAfterNanoseconds.mapVal (fun _ va => va / 10 ^ 9 * 10 ^ 9) }

structure BackfillCandidate where
  tsNanos : ℕ
  rawTS : ℕ
  opts : HistoryBackfillOpts

/-- The next row of a backfill channel: the earliest one after its watermark and before
the observation timestamp. Keys are scaled by one factor, so the earliest row comes first. -/
def selectBackfillCandidate (J : JSON) (out : Outcome) (backfillCID : ChannelID) (opts : OptsCache) :
    Option BackfillCandidate :=
  match out.channelDefinitions.get? backfillCID with
  | none => none
  | some cd =>
    if ¬ cd.isBackfill then none
    else
      match getHistoryBackfillOpts J (some opts) cd backfillCID with
      | .error _ => none
      | .ok o =>
        match out.channelDefinitions.get? o.targetChannelID with
        | none => none
        | some target =>
          match targetChannelTimeResolution J target with
          | .error _ => none
          | .ok res =>
            match out.validAfterNanoseconds.get? backfillCID with
            | none => none
            | some watermark =>
              (backfillRows o res watermark out.observationTimestampNanoseconds).head?.map
                (fun row => ⟨row.tsNanos,row.rawTS,o⟩)

/-- Formats whose reports carry whole seconds. A channel missing from the cache counts as
finer. -/
def isSecondsResolution (J : JSON) (opts : OptsCache) (cd : ChannelDefinition) (id : ChannelID) : Bool :=
  match cd.reportFormat with
  | .evmPremiumLegacy => true
  | .evmABIEncodeUnpacked =>
    match opts.getOpts .seconds J.unmarshalTimeResolution id with
    | .ok res => res = .seconds
    | .error _ => false
  | _ => false

namespace Outcome
variable (o : Outcome)
/-- The gates on the time since the watermark. The sum of the minimum interval wraps. -/
def intervalReportable (J : JSON) (cfg : Config) (opts : OptsCache)
    (cd : ChannelDefinition) (id : ChannelID) (validAfter : ℕ) : Bool :=
  if cfg.protocolVersion > 0 ∧ o.observationTimestampNanoseconds <
      u64Add validAfter cfg.defaultMinReportIntervalNanoseconds then false
  else if cfg.protocolVersion = 0 ∨ isSecondsResolution J opts cd id then
    !tickOverlap validAfter o.observationTimestampNanoseconds .seconds
  else true

def valuesReportable (J : JSON) (cfg : Config) (opts : OptsCache)
    (cd : ChannelDefinition) (id : ChannelID) : Bool :=
  if cd.disableNilStreamValues ∧
      cd.streams.any (fun s => (o.streamAggregates s.streamID s.aggregator).isNone) then false
  else
    match o.validAfterNanoseconds.get? id with
    | none => false
    | some validAfter => o.intervalReportable J cfg opts cd id validAfter

def isReportable (J : JSON) (cfg : Config) (opts : OptsCache) (id : ChannelID) : Bool :=
  if o.lifeCycleStage = .retired then false
  else
    match o.channelDefinitions.get? id with
    | none => false
    | some cd =>
      if cd.tombstone then false
      else if cd.isBackfill then
        if o.lifeCycleStage ≠ .production then false
        else (selectBackfillCandidate J o id opts).isSome
      else o.valuesReportable J cfg opts cd id

def reportableChannels (J : JSON) (cfg : Config) (opts : OptsCache) : List ChannelID :=
  o.channelDefinitions.keys.filter (o.isReportable J cfg opts)

/-- The channels reports are generated for. The cache of the report stage is first brought
in step with the outcome's definitions. -/
def reportedChannels (J : JSON) (cfg : Config) : List ChannelID :=
  o.reportableChannels J cfg (.ofDefinitions o.channelDefinitions)

end Outcome

variable {J : JSON} {id : ChannelID} {opts : OptsCache}
/-- A selected row lies strictly between the watermark and the observation timestamp. -/
lemma selectBackfillCandidate_bounds {out : Outcome}
    {c : BackfillCandidate} (h : selectBackfillCandidate J out id opts = some c) :
    ∃ w, out.validAfterNanoseconds.get? id = some w ∧ w < c.tsNanos ∧
      c.tsNanos < out.observationTimestampNanoseconds := by
  unfold selectBackfillCandidate at h
  split at h
  · contradiction
  split_ifs at h
  split at h
  · contradiction
  split at h
  · contradiction
  split at h
  · contradiction
  split at h
  · contradiction
  next w hw =>
    rw [Option.map_eq_some_iff] at h
    obtain ⟨row,hrow,rfl⟩ := h
    obtain ⟨_,hlo,hhi⟩ := mem_backfillRows (List.mem_of_head? hrow)
    exact ⟨w,hw,hlo,hhi⟩

lemma Outcome.mem_reportableChannels {o : Outcome} {cfg : Config}
    : id ∈ o.reportableChannels J cfg opts ↔ o.isReportable J cfg opts id = true := by
  rw [reportableChannels,List.mem_filter,SortedMap.mem_keys,and_iff_right_iff_imp]
  intro h
  cases hcd : o.channelDefinitions.get? id with
  | none => simp [isReportable,hcd] at h
  | some cd => rfl

end DataStreams.V30
