import DataStreams.ReportCodec.Window
import DataStreams.V31.Reports

/-! The encoder moves the watermark forward to the longest range the opts allow, after
reportability compared ticks. -/
namespace DataStreams.V31
def Report.fields (r : Report) : ReportFields :=
  ⟨r.channelID,r.validAfterNanoseconds,r.observationTimestampNanoseconds,r.values,r.specimen⟩

namespace Precursor
/-- The round found the channel reportable, its codec accepts the definition, and the
report of the channel was encoded. -/
structure Encodes (o : Precursor) (L : Libs) (E : ExprLib) (minReportInterval f : ℕ)
    (support : ReportFormat → ℕ) (seqNr : ℕ) (id : ChannelID) (cd : ChannelDefinition) (encoded : Bytes) :
    Prop where
  defined : o.channelDefinitions.get? id = some cd
  accepted : AcceptedByCodec L E cd
  reportable : o.isReportable L minReportInterval f support o.opts id = true
  encoded : ∃ r, o.channelReport L seqNr id = some (r,cd) ∧ encodeEVM L.json r.fields cd o.opts = .ok encoded

/-- The interval of the channel, at the longest range its opts allow, does not lie within
one tick. -/
def SpansTick (o : Precursor) (J : JSON) (id : ChannelID) (cd : ChannelDefinition) : Prop :=
  ∃ opts, headerOpts J cd = .ok opts ∧
    DataStreams.SpansTick ((o.validAfterNanoseconds.get? id).getD 0) o.observationTimestampNanoseconds
      (effectiveReportRange opts.maxReportRange) opts.timeResolution

variable {o : Precursor} {L : Libs} {E : ExprLib} {minReportInterval f seqNr : ℕ}
  {support : ReportFormat → ℕ} {id : ChannelID} {cd : ChannelDefinition} {encoded : Bytes}

/-- Both decoders of the opts read the same resolution. -/
lemma reportTimeResolution_eq (hJ : L.json.Lawful) (hcd : o.channelDefinitions.get? id = some cd)
    (hformat : cd.reportFormat.hasHeader = true) {opts : HeaderOpts} (hopts : headerOpts L.json cd = .ok opts)
    {res : TimeResolution} (hres : reportTimeResolution L.json (some o.opts) cd id = .ok res) :
    opts.timeResolution = res := by
  have hunpacked : ∀ a, decodeOpts .zero L.json.unmarshalEVMABIEncode cd.opts = .ok a →
      getOptsOrDecode (some o.opts) .seconds L.json.unmarshalTimeResolution cd id = .ok res →
      a.timeResolution = res := by
    intro a ha hb
    rw [Precursor.opts,getOptsOrDecode_ofDefinitions hcd] at hb
    exact decodeOpts_alike (f := EVMABIEncodeOpts.timeResolution) (g := fun res => res) rfl
      hJ.timeResolution ha hb
  unfold headerOpts at hopts
  unfold reportTimeResolution at hres
  cases hf : cd.reportFormat with
  | evmPremiumLegacy =>
    simp only [hf,Go.bind_ok_iff,Except.ok.injEq] at hopts hres
    obtain ⟨a,_,rfl⟩ := hopts
    exact hres
  | evmABIEncodeUnpacked =>
    simp only [hf,Go.bind_ok_iff,Except.ok.injEq] at hopts hres
    obtain ⟨a,ha,rfl⟩ := hopts
    exact hunpacked a ha hres
  | evmABIEncodeUnpackedExpr =>
    simp only [hf,Go.bind_ok_iff,Except.ok.injEq] at hopts hres
    obtain ⟨a,ha,rfl⟩ := hopts
    exact hunpacked a ha hres
  | _ => simp [hf,ReportFormat.hasHeader] at hformat

lemma not_isBackfill_of_hasHeader (hformat : cd.reportFormat.hasHeader = true) : cd.isBackfill = false := by
  unfold ChannelDefinition.isBackfill
  cases hf : cd.reportFormat <;> simp_all [ReportFormat.hasHeader]

/-- The encoded window of a report is not inverted exactly when the interval of the
channel, cut to the longest range its opts allow, does not lie within one tick. -/
theorem encodedWindow_le_iff (hJ : L.json.Lawful) (hobs : o.observationTimestampNanoseconds < 2 ^ 64)
    (hformat : cd.reportFormat.hasHeader = true)
    (h : o.Encodes L E minReportInterval f support seqNr id cd encoded) :
    encodedValidFrom encoded ≤ encodedObservationsTimestamp encoded ↔ o.SpansTick L.json id cd := by
  have hb := not_isBackfill_of_hasHeader hformat
  obtain ⟨r,hr,henc⟩ := h.encoded
  obtain ⟨hid,hra,hro⟩ := channelReport_interval h.defined hb hr
  obtain ⟨_,_,va,hva,hint,_⟩ := (isReportable_iff h.defined hb).1 h.reportable
  obtain ⟨_,hlt,res,hres,htick⟩ := intervalReportable_iff.1 hint
  rw [hva,Option.getD_some] at hra
  have hid' : r.fields.channelID = id := hid
  have hra' : r.fields.validAfterNanoseconds = va := hra
  have hro' : r.fields.observationTimestampNanoseconds = o.observationTimestampNanoseconds := hro
  obtain ⟨opts,hopts,hfrom,huntil⟩ := encodeEVM_window hformat (by rw [hid']; exact h.defined)
    (by rw [hro']; exact hobs) (by rw [hra',hro']; exact hlt) henc
  have hreq := reportTimeResolution_eq hJ h.defined hformat hopts hres
  have hspans : o.SpansTick L.json id cd ↔ DataStreams.SpansTick va o.observationTimestampNanoseconds
      (effectiveReportRange opts.maxReportRange) opts.timeResolution := by
    simp [SpansTick,hopts,hva]
  rw [hspans,← convertTimestamp_clamp_lt_iff hlt (by rwa [hreq]),hfrom,huntil,validFromTimestamp,hra',hro',
    Nat.succ_le_iff]

end Precursor

/-- Opts that limit a report to so many nanoseconds. -/
def rangeOpts (maxReportRange : ℕ) : JSONText := .evmOpts 0 1 [("maxReportRange",.number maxReportRange)]

/-- Opts with a base fee of one dollar. -/
def feeOpts : JSONText := .evmOpts 1 1 []

def premiumLibs : Libs :=
  ⟨.ofPremium [(rangeOpts 0,⟨⟨0,0⟩,0,1,none,0⟩),(rangeOpts 1,⟨⟨0,0⟩,0,1,none,1⟩),(feeOpts,⟨⟨1,0⟩,0,1,none,0⟩)],
    fromTable [],digest⟩

variable (opts : JSONText)
def premiumChannel : ChannelDefinition :=
  ⟨.evmPremiumLegacy,[⟨1,.median⟩,⟨2,.median⟩,⟨3,.quote⟩],opts.bytes,false,0,false⟩

/-- A round at 12.5 seconds that last reported the channel at 10 seconds. -/
def premiumRound : Precursor where
  lifeCycleStage := .production
  observationTimestampNanoseconds := 12500000000
  channelDefinitions := (∅ : ChannelDefinitions).insert 1 (premiumChannel opts)
  channelStateSeqNr := 1
  validAfterNanoseconds := (∅ : SortedMap ChannelID ℕ).insert 1 10000000000
  streamAggregates sid _ := if sid = 3 then some (.quote ⟨⟨1,0⟩,⟨1,0⟩,⟨1,0⟩⟩) else some (.decimal ⟨1,0⟩)
  reportableChannelIDs := [1]

def premiumReport : Report :=
  ⟨2,1,10000000000,12500000000,
    [some (.decimal ⟨1,0⟩),some (.decimal ⟨1,0⟩),some (.quote ⟨⟨1,0⟩,⟨1,0⟩,⟨1,0⟩⟩)],false⟩

def premiumEncoding : Bytes :=
  (encodeEVM premiumLibs.json premiumReport.fields (premiumChannel opts) (premiumRound opts).opts).getD []

lemma premiumRound_encodes {maxReportRange : ℕ} (h : maxReportRange ∈ [0,1]) :
    (premiumRound (rangeOpts maxReportRange)).Encodes premiumLibs rejectingExprs 0 1 (fun _ => 4) 2 1
      (premiumChannel (rangeOpts maxReportRange)) (premiumEncoding (rangeOpts maxReportRange)) := by
  have haccepted : ∀ r ∈ [0,1], AcceptedByCodec premiumLibs rejectingExprs (premiumChannel (rangeOpts r)) := by decide +kernel
  have hreport : ∀ r ∈ [0,1], (premiumRound (rangeOpts r)).isReportable premiumLibs 0 1 (fun _ => 4)
      (premiumRound (rangeOpts r)).opts 1 = true := by decide +kernel
  have hencode : ∀ r ∈ [0,1], (encodeEVM premiumLibs.json premiumReport.fields (premiumChannel (rangeOpts r))
      (premiumRound (rangeOpts r)).opts).isOk = true := by decide +kernel
  exact ⟨rfl,haccepted _ h,hreport _ h,premiumReport,rfl,Go.eq_ok_getD (hencode _ h) []⟩

/-- Opts with a range of one nanosecond are accepted, and the report of a round at 12.5
seconds is encoded as valid from second 13 for an observation in second 12. -/
theorem window_inverted_by_short_range :
    (premiumRound (rangeOpts 1)).Encodes premiumLibs rejectingExprs 0 1 (fun _ => 4) 2 1 (premiumChannel (rangeOpts 1))
        (premiumEncoding (rangeOpts 1)) ∧
      encodedValidFrom (premiumEncoding (rangeOpts 1)) = 13 ∧
      encodedObservationsTimestamp (premiumEncoding (rangeOpts 1)) = 12 :=
  ⟨premiumRound_encodes (by decide),by decide +kernel,by decide +kernel⟩

/-- With the default range the same round encodes a window that is not inverted. -/
theorem encodedWindow_le_premiumRound :
    encodedValidFrom (premiumEncoding (rangeOpts 0)) ≤ encodedObservationsTimestamp (premiumEncoding (rangeOpts 0)) := by
  have hopts : headerOpts premiumLibs.json (premiumChannel (rangeOpts 0)) = .ok ⟨⟨0,0⟩,0,0,.seconds⟩ := by decide +kernel
  exact (Precursor.encodedWindow_le_iff (JSON.lawful_ofPremium _) (by decide) rfl (premiumRound_encodes (by decide))).2
    ⟨_,hopts,spansTick_of_resolution_le (by decide +kernel)⟩

end DataStreams.V31
