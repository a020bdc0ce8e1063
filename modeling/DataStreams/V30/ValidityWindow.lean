import DataStreams.ReportCodec.Window
import DataStreams.V30.Reports

/-! Reportability compares seconds, while the encoders add a tick of the channel's own
resolution (v30). -/
namespace DataStreams.V30
def Report.fields (r : Report) : ReportFields :=
  ⟨r.channelID,r.validAfterNanoseconds,r.observationTimestampNanoseconds,r.values,r.specimen⟩

namespace Outcome
/-- The channel is reportable in an outcome of version 1 or later, whatever the opts cache
holds, and its report was encoded. -/
structure Encodes (o : Outcome) (J : JSON) (cfg : Config) (cache : OptsCache) (S : ReportStage) (seqNr : ℕ)
    (id : ChannelID) (cd : ChannelDefinition) (encoded : Bytes) : Prop where
  version : 1 ≤ cfg.protocolVersion
  defined : o.channelDefinitions.get? id = some cd
  reportable : o.isReportable J cfg cache id = true
  encoded : encodeEVM J (Plugin.intervalReport S seqNr o id cd).fields cd (.ofDefinitions o.channelDefinitions) =
    .ok encoded

def RangeSpansTick (opts : HeaderOpts) : Prop :=
  opts.maxReportRange ≤ 0 ∨ resolutionNanos opts.timeResolution ≤ opts.maxReportRange

lemma RangeSpansTick.resolution_le {opts : HeaderOpts} (h : RangeSpansTick opts) :
    resolutionNanos opts.timeResolution ≤ effectiveReportRange opts.maxReportRange := by
  have hsecond : resolutionNanos opts.timeResolution ≤ 10 ^ 9 := by
    cases opts.timeResolution <;> decide
  unfold RangeSpansTick at h
  unfold effectiveReportRange defaultMaxReportRange maxReportRangeCeiling
  split_ifs <;> omega

/-- The watermark lies in an earlier tick of the channel's resolution than the observation
timestamp. The tick after the last one of 64 bits wraps to zero. -/
def SeparateTicks (o : Outcome) (J : JSON) (id : ChannelID) (cd : ChannelDefinition) : Prop :=
  ∃ opts, headerOpts J cd = .ok opts ∧
    (convertTimestamp ((o.validAfterNanoseconds.get? id).getD 0) opts.timeResolution <
        convertTimestamp o.observationTimestampNanoseconds opts.timeResolution ∨
      convertTimestamp o.observationTimestampNanoseconds opts.timeResolution = 2 ^ 64 - 1)

/-- The encoded window is not inverted exactly when the interval crosses a tick of the
channel's resolution. -/
theorem encodedWindow_ordered_iff {o : Outcome} {J : JSON} {cfg : Config} {cache : OptsCache} {S : ReportStage}
    {seqNr : ℕ} {id : ChannelID} {cd : ChannelDefinition} {encoded : Bytes}
    (hobs : o.observationTimestampNanoseconds < 2 ^ 64) (hformat : cd.reportFormat.hasHeader = true)
    (hrange : ∀ opts, headerOpts J cd = .ok opts → RangeSpansTick opts)
    (h : o.Encodes J cfg cache S seqNr id cd encoded) :
    encodedValidFrom encoded ≤ encodedObservationsTimestamp encoded ↔ o.SeparateTicks J id cd := by
  obtain ⟨opts,hopts,hfrom,huntil⟩ := encodeEVM_window_mod hformat h.defined hobs h.encoded
  have hseparate : o.SeparateTicks J id cd ↔
      convertTimestamp ((o.validAfterNanoseconds.get? id).getD 0) opts.timeResolution <
          convertTimestamp o.observationTimestampNanoseconds opts.timeResolution ∨
        convertTimestamp o.observationTimestampNanoseconds opts.timeResolution = 2 ^ 64 - 1 := by
    simp [SeparateTicks,hopts]
  rw [hseparate,hfrom,huntil,← convertTimestamp_clamp_lt_iff_of_resolution_le (hrange opts hopts).resolution_le]
  have hclamp : clampReportRange ((o.validAfterNanoseconds.get? id).getD 0) o.observationTimestampNanoseconds
      opts.maxReportRange ≤ o.observationTimestampNanoseconds := by
    unfold clampReportRange
    dsimp only
    split_ifs <;> omega
  have hstart := convertTimestamp_mono opts.timeResolution hclamp
  have hend := (convertTimestamp_le o.observationTimestampNanoseconds opts.timeResolution).trans_lt hobs
  simp only [validFromTimestamp,Report.fields,Plugin.intervalReport]
  -- only a start in the last tick of 64 bits wraps
  generalize convertTimestamp (clampReportRange _ _ _) _ = start at hstart ⊢
  generalize convertTimestamp o.observationTimestampNanoseconds _ = tick at hstart hend ⊢
  rcases Nat.lt_or_ge (start + 1) (2 ^ 64) with hlt | hge
  · rw [Nat.mod_eq_of_lt hlt]
    omega
  · have hzero : (start + 1) % 2 ^ 64 = 0 := by
      have hwrap : start + 1 = 2 ^ 64 := by omega
      rw [hwrap,Nat.mod_self]
    rw [hzero]
    omega

end Outcome

def exprJSON : JSON := .ofExpressions [(1,[("s1".toList,3)])]

/-- An expression channel in seconds, without a fee and with one 192-bit payload. -/
def exprChannel : ChannelDefinition :=
  ⟨.evmABIEncodeUnpackedExpr,[⟨1,.median⟩,⟨2,.median⟩,⟨3,.calculated⟩],(JSONText.exprOpts 1 [("s1".toList,3)]).bytes,
    false,0,false⟩

/-- A production outcome at the given time whose channel last reported at 10.2 seconds. -/
def exprOutcome (obsTs : ℕ) : Outcome where
  lifeCycleStage := .production
  observationTimestampNanoseconds := obsTs
  channelDefinitions := (∅ : ChannelDefinitions).insert 1 exprChannel
  validAfterNanoseconds := (∅ : SortedMap ChannelID ℕ).insert 1 10200000000
  streamAggregates _ _ := some (.decimal ⟨1,0⟩)

def exprStage : ReportStage where
  configDigest := 0
  donID := 0
  reportCodecs _ := none
  encodeRetirementReport _ := .error "not retired"
  marshalDecimal _ := .error "no telemetry"

def exprConfig : Config := ⟨1,none,1,500000000,false⟩

def exprEncoding (obsTs : ℕ) : Bytes :=
  (encodeEVM exprJSON (Plugin.intervalReport exprStage 2 (exprOutcome obsTs) 1 exprChannel).fields exprChannel
    (.ofDefinitions (exprOutcome obsTs).channelDefinitions)).getD []

lemma exprOutcome_encodes {obsTs : ℕ}
    (hreport : (exprOutcome obsTs).isReportable exprJSON exprConfig .empty 1 = true)
    (hencode : (encodeEVM exprJSON (Plugin.intervalReport exprStage 2 (exprOutcome obsTs) 1 exprChannel).fields
      exprChannel (.ofDefinitions (exprOutcome obsTs).channelDefinitions)).isOk = true) :
    (exprOutcome obsTs).Encodes exprJSON exprConfig .empty exprStage 2 1 exprChannel (exprEncoding obsTs) :=
  ⟨le_rfl,rfl,hreport,Go.eq_ok_getD hencode []⟩

lemma headerOpts_exprChannel : headerOpts exprJSON exprChannel = .ok ⟨⟨0,0⟩,0,0,.seconds⟩ := by decide +kernel

lemma exprChannel_rangeSpansTick : ∀ opts, headerOpts exprJSON exprChannel = .ok opts → Outcome.RangeSpansTick opts := by
  intro opts hopts
  cases headerOpts_exprChannel.symm.trans hopts
  exact .inl le_rfl

/-- At 10.7 seconds the channel is reportable, and its report is encoded as valid from
second 11 for an observation in second 10. -/
theorem window_inverted_within_second :
    (exprOutcome 10700000000).Encodes exprJSON exprConfig .empty exprStage 2 1 exprChannel (exprEncoding 10700000000) ∧
      (∀ opts, headerOpts exprJSON exprChannel = .ok opts → Outcome.RangeSpansTick opts) ∧
      encodedValidFrom (exprEncoding 10700000000) = 11 ∧
      encodedObservationsTimestamp (exprEncoding 10700000000) = 10 :=
  ⟨exprOutcome_encodes (by decide +kernel) (by decide +kernel),exprChannel_rangeSpansTick,by decide +kernel,
    by decide +kernel⟩

/-- At 12 seconds the window is in order. -/
theorem encodedWindow_ordered_exprOutcome :
    encodedValidFrom (exprEncoding 12000000000) ≤ encodedObservationsTimestamp (exprEncoding 12000000000) :=
  (Outcome.encodedWindow_ordered_iff (by decide) rfl exprChannel_rangeSpansTick
    (exprOutcome_encodes (by decide +kernel) (by decide +kernel))).2 ⟨_,headerOpts_exprChannel,.inl (by decide)⟩

end DataStreams.V30
