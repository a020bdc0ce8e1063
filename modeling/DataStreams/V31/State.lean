import DataStreams.V31.Observation

/-! The replicated state, the precursor and the decision which channels report (v31). -/
namespace DataStreams.V31
/-- The replicated state, decoded. `M` is the memory of the value engine. -/
structure KVState (M : Type) where
  lifeCycleStage : LifeCycleStage
  observationTimestampNs : ℕ
  channelDefinitions : ChannelDefinitions
  channelStateSeqNr : ℕ
  codecSupport : SortedMap OracleID (Finset ReportFormat)
  validAfterNanoseconds : SortedMap ChannelID ℕ
  reportedLastRound : List ChannelID
  memory : M
  recentAgreedTimestamps : List ℕ

namespace KVState
variable {M : Type}
/-- What an empty store reads as. -/
def fresh (memory : M) : KVState M := ⟨.unset,0,∅,0,∅,∅,[],memory,[]⟩

def opts (s : KVState M) : OptsCache := .ofDefinitions s.channelDefinitions

end KVState

/-- What a round hands to the report stage. Its definitions are the ones in effect for
the round. -/
structure Precursor where
  lifeCycleStage : LifeCycleStage
  observationTimestampNanoseconds : ℕ
  channelDefinitions : ChannelDefinitions
  channelStateSeqNr : ℕ
  validAfterNanoseconds : SortedMap ChannelID ℕ
  streamAggregates : StreamAggregates
  reportableChannelIDs : List ChannelID

def Precursor.opts (o : Precursor) : OptsCache := .ofDefinitions o.channelDefinitions

structure BackfillCandidate where
  tsNanos : ℕ
  rawTS : ℕ
  opts : HistoryBackfillOpts
  /-- Rows before this one that can never be emitted. -/
  skipped : ℕ
  deriving DecidableEq

/-- The row's values parse and the target's format can encode them. -/
def rowEmittable (L : Libs) (opts : OptsCache) (target : ChannelDefinition) (targetID : ChannelID)
    (row : BackfillRow) : Bool :=
  match buildBackfillStreamValues L target row.values with
  | .error _ => false
  | .ok values => (checkEncodableValues L.json (some opts) target targetID (values.map some)).isOk

def pickRow (L : Libs) (opts : OptsCache) (target : ChannelDefinition) (o : HistoryBackfillOpts)
    (rows : List BackfillRow) : Option BackfillCandidate :=
  (rows.find? (rowEmittable L opts target o.targetChannelID)).map (fun row =>
    ⟨row.tsNanos,row.rawTS,o,(rows.takeWhile (fun r => !rowEmittable L opts target o.targetChannelID r)).length⟩)

/-- The next row a backfill channel emits: the first emittable one after its watermark
and before the observation timestamp. -/
def selectBackfillCandidate (L : Libs) (defs : ChannelDefinitions) (validAfter : SortedMap ChannelID ℕ)
    (obsTsNanos : ℕ) (backfillCID : ChannelID) (opts : OptsCache) : Option BackfillCandidate :=
  match defs.get? backfillCID with
  | none => none
  | some cd =>
    if ¬ cd.isBackfill then none
    else
      match getHistoryBackfillOpts L.json (some opts) cd backfillCID with
      | .error _ => none
      | .ok o =>
        match defs.get? o.targetChannelID with
        | none => none
        | some target =>
          if target.tombstone then none
          else
            -- the resolution of the target's report timestamps fails exactly when this does
            match targetChannelTimeResolution L.json target with
            | .error _ => none
            | .ok res =>
              match validAfter.get? backfillCID with
              | none => none
              | some watermark => pickRow L opts target o (backfillRows o res watermark obsTsNanos)

def supportVotes (support : SortedMap OracleID (Finset ReportFormat)) (effective : ChannelDefinitions)
    (format : ReportFormat) : ℕ :=
  if effective.entries.any (fun e => e.2.reportFormat = format) then
    (support.entries.filter (fun e => format ∈ e.2)).length
  else 0

def formatIsEncodable (support : ReportFormat → ℕ) (format : ReportFormat) (f : ℕ) : Bool :=
  2 * f + 1 ≤ support format

namespace Precursor
def reportValues (o : Precursor) (streams : List Stream) : List (Option StreamValue) :=
  streams.map (fun s => o.streamAggregates s.streamID s.aggregator)

/-- Every value the report would carry is present and in range. -/
def hasReportableValues (o : Precursor) (L : Libs) (cd : ChannelDefinition) (id : ChannelID)
    (opts : OptsCache) : Bool :=
  match effectiveStreams L.json (some opts) cd id with
  | .error _ => false
  | .ok streams =>
    (o.reportValues streams).all Option.isSome &&
      (checkEncodableValues L.json (some opts) cd id (o.reportValues streams)).isOk

/-- The time gates: a minimum interval, a non-empty one, and distinct ticks of the
format's resolution. -/
def intervalReportable (o : Precursor) (L : Libs) (cd : ChannelDefinition) (id : ChannelID)
    (minReportInterval : ℕ) (opts : OptsCache) (validAfter : ℕ) : Bool :=
  if o.observationTimestampNanoseconds < saturatingAdd validAfter minReportInterval ∨
      o.observationTimestampNanoseconds ≤ validAfter then false
  else
    match reportTimeResolution L.json (some opts) cd id with
    | .error _ => false
    | .ok res => !tickOverlap validAfter o.observationTimestampNanoseconds res

def backfillReportable (o : Precursor) (L : Libs) (id : ChannelID) (f : ℕ)
    (support : ReportFormat → ℕ) (opts : OptsCache) : Bool :=
  if o.lifeCycleStage ≠ .production then false
  else
    match selectBackfillCandidate L o.channelDefinitions o.validAfterNanoseconds
        o.observationTimestampNanoseconds id opts with
    | none => false
    | some c =>
      match o.channelDefinitions.get? c.opts.targetChannelID with
      | none => false
      | some target => formatIsEncodable support target.reportFormat f

def isReportable (o : Precursor) (L : Libs) (minReportInterval f : ℕ) (support : ReportFormat → ℕ)
    (opts : OptsCache) (id : ChannelID) : Bool :=
  if o.lifeCycleStage = .retired then false
  else
    match o.channelDefinitions.get? id with
    | none => false
    | some cd =>
      if cd.tombstone then false
      else if cd.isBackfill then o.backfillReportable L id f support opts
      else
        match o.validAfterNanoseconds.get? id with
        | none => false
        | some validAfter =>
          o.intervalReportable L cd id minReportInterval opts validAfter &&
            formatIsEncodable support cd.reportFormat f && o.hasReportableValues L cd id opts

def reportableChannels (o : Precursor) (L : Libs) (minReportInterval f : ℕ)
    (support : ReportFormat → ℕ) (opts : OptsCache) : List ChannelID :=
  o.channelDefinitions.keys.filter (o.isReportable L minReportInterval f support opts)

def reportedAggregates (o : Precursor) (L : Libs) (opts : OptsCache) : StreamAggregates :=
  fun sid agg =>
    if o.reportableChannelIDs.any (fun id =>
      match o.channelDefinitions.get? id with
      | none => false
      | some cd =>
        !cd.isBackfill &&
          match effectiveStreams L.json (some opts) cd id with
          | .error _ => false
          | .ok streams => ⟨sid,agg⟩ ∈ streams) then o.streamAggregates sid agg
    else none

end Precursor

/-- A selected row lies strictly between the watermark and the observation timestamp. -/
lemma selectBackfillCandidate_bounds {L : Libs} {defs : ChannelDefinitions}
    {validAfter : SortedMap ChannelID ℕ} {obsTsNanos : ℕ} {id : ChannelID} {opts : OptsCache}
    {c : BackfillCandidate}
    (h : selectBackfillCandidate L defs validAfter obsTsNanos id opts = some c) :
    ∃ w, validAfter.get? id = some w ∧ w < c.tsNanos ∧ c.tsNanos < obsTsNanos := by
  unfold selectBackfillCandidate at h
  split at h
  · contradiction
  split_ifs at h
  split at h
  · contradiction
  split at h
  · contradiction
  split_ifs at h
  split at h
  · contradiction
  split at h
  · contradiction
  next w hw =>
    simp only [pickRow,Option.map_eq_some_iff] at h
    obtain ⟨row,hrow,rfl⟩ := h
    obtain ⟨_,hlo,hhi⟩ := mem_backfillRows (List.mem_of_find?_eq_some hrow)
    exact ⟨w,hw,hlo,hhi⟩

namespace Precursor
variable {o : Precursor} {L : Libs} {minReportInterval f : ℕ} {support : ReportFormat → ℕ}
  {opts : OptsCache} {id : ChannelID}

lemma isReportable_retired (h : o.lifeCycleStage = .retired) :
    o.isReportable L minReportInterval f support opts id = false := by
  simp [isReportable,h]

variable {cd : ChannelDefinition}
lemma intervalReportable_iff {va : ℕ} :
    o.intervalReportable L cd id minReportInterval opts va = true ↔
      saturatingAdd va minReportInterval ≤ o.observationTimestampNanoseconds ∧
      va < o.observationTimestampNanoseconds ∧
      ∃ res, reportTimeResolution L.json (some opts) cd id = .ok res ∧
        convertTimestamp va res < convertTimestamp o.observationTimestampNanoseconds res := by
  unfold intervalReportable
  by_cases hgate : o.observationTimestampNanoseconds < saturatingAdd va minReportInterval ∨
      o.observationTimestampNanoseconds ≤ va
  · rw [if_pos hgate]
    refine iff_of_false nofun ?_
    rintro ⟨h₁,h₂,_⟩
    omega
  · rw [if_neg hgate,not_or,not_lt,not_le] at *
    cases reportTimeResolution L.json (some opts) cd id with
    | error e => simp
    | ok res => simp [tickOverlap,hgate.1,hgate.2]

lemma isReportable_iff (hcd : o.channelDefinitions.get? id = some cd)
    (hb : cd.isBackfill = false) :
    o.isReportable L minReportInterval f support opts id = true ↔
      o.lifeCycleStage ≠ .retired ∧ cd.tombstone = false ∧ ∃ va, o.validAfterNanoseconds.get? id = some va ∧
        o.intervalReportable L cd id minReportInterval opts va = true ∧
        formatIsEncodable support cd.reportFormat f = true ∧ o.hasReportableValues L cd id opts = true := by
  unfold isReportable
  by_cases hr : o.lifeCycleStage = .retired
  · simp [hr]
  · cases ht : cd.tombstone <;> cases hva : o.validAfterNanoseconds.get? id <;>
      simp [hr,hcd,hb,ht,and_assoc]

section
variable (h : o.isReportable L minReportInterval f support opts id = true) (hcd : o.channelDefinitions.get? id = some cd)
include h hcd

lemma isReportable_interval (hb : cd.isBackfill = false) :
    ∃ va, o.validAfterNanoseconds.get? id = some va ∧ va < o.observationTimestampNanoseconds := by
  obtain ⟨_,_,va,hva,hint,_⟩ := (isReportable_iff hcd hb).1 h
  exact ⟨va,hva,(intervalReportable_iff.1 hint).2.1⟩

lemma isReportable_backfill (hb : cd.isBackfill = true) :
    o.lifeCycleStage = .production ∧ ∃ c, selectBackfillCandidate L o.channelDefinitions
      o.validAfterNanoseconds o.observationTimestampNanoseconds id opts = some c := by
  unfold isReportable at h
  split_ifs at h
  simp only [hcd,hb,if_true] at h
  split_ifs at h
  unfold backfillReportable at h
  split_ifs at h with hstage
  cases hs : selectBackfillCandidate L o.channelDefinitions o.validAfterNanoseconds
      o.observationTimestampNanoseconds id opts with
  | none => simp [hs] at h
  | some c => exact ⟨not_not.1 hstage,c,rfl⟩

end

lemma mem_reportableChannels :
    id ∈ o.reportableChannels L minReportInterval f support opts ↔
      (o.channelDefinitions.get? id).isSome ∧ o.isReportable L minReportInterval f support opts id = true := by
  rw [reportableChannels,List.mem_filter,SortedMap.mem_keys]

end Precursor
end DataStreams.V31
