import DataStreams.V31.State

/-! The report stage emits the channels the round chose, from the precursor alone (v31). -/
namespace DataStreams.V31
open Option

structure Report where
  seqNr : ℕ
  channelID : ChannelID
  validAfterNanoseconds : ℕ
  observationTimestampNanoseconds : ℕ
  values : List (Option StreamValue)
  specimen : Bool

inductive EmittedReport
  | retirement (report : RetirementReport)
  | channel (stage : LifeCycleStage) (format : ReportFormat) (encoded : Bytes)
  | stagingMarker (seqNr : ℕ)

abbrev ReportEncoders :=
  ReportFormat → Option (Report → ChannelDefinition → OptsCache → Except String Bytes)

namespace Precursor
def emittedRow (o : Precursor) (L : Libs) (id : ChannelID) : Option BackfillCandidate :=
  selectBackfillCandidate L o.channelDefinitions o.validAfterNanoseconds
    o.observationTimestampNanoseconds id o.opts

def isSpecimen (o : Precursor) : Bool := o.lifeCycleStage ≠ .production

/-- The report of one row and the target definition it is encoded with. It spans one tick
of the target's resolution that ends at the row. -/
def backfillReport (o : Precursor) (L : Libs) (seqNr : ℕ) (id : ChannelID) :
    Option (Report × ChannelDefinition) := do
  let row ← o.emittedRow L id
  let target ← o.channelDefinitions.get? row.opts.targetChannelID
  let values ← (buildBackfillStreamValues L target ((row.opts.observations.get? row.rawTS).getD ∅)).toOption
  let resNanos ← (reportTimestampResolutionNanos L.json target).toOption
  some (⟨seqNr,row.opts.targetChannelID,row.tsNanos - resNanos,row.tsNanos,values.map some,o.isSpecimen⟩,target)

def intervalReport (o : Precursor) (L : Libs) (seqNr : ℕ) (id : ChannelID) (cd : ChannelDefinition) :
    Option (Report × ChannelDefinition) := do
  let streams ← (effectiveStreams L.json (some o.opts) cd id).toOption
  some (⟨seqNr,id,(o.validAfterNanoseconds.get? id).getD 0,o.observationTimestampNanoseconds,
    o.reportValues streams,o.isSpecimen⟩,cd)

def channelReport (o : Precursor) (L : Libs) (seqNr : ℕ) (id : ChannelID) :
    Option (Report × ChannelDefinition) := do
  let cd ← o.channelDefinitions.get? id
  if cd.isBackfill then o.backfillReport L seqNr id else o.intervalReport L seqNr id cd

def encodeReport (o : Precursor) (encoders : ReportEncoders) (r : Report) (cd : ChannelDefinition) :
    Option EmittedReport := do
  let encode ← encoders cd.reportFormat
  let encoded ← (encode r cd o.opts).toOption
  some (.channel o.lifeCycleStage cd.reportFormat encoded)

def retirementReport (o : Precursor) (protocolVersion : ℕ) : RetirementReport :=
  ⟨protocolVersion,some o.validAfterNanoseconds⟩

def channelReports (o : Precursor) (L : Libs) (encoders : ReportEncoders) (protocolVersion seqNr : ℕ) :
    List EmittedReport :=
  (if o.lifeCycleStage = .retired then [.retirement (o.retirementReport protocolVersion)] else []) ++
    o.reportableChannelIDs.filterMap (fun id => do
      let (r,cd) ← o.channelReport L seqNr id
      o.encodeReport encoders r cd)

/-- The reports of a round. The staging marker goes last, within the report limit. -/
def reports (o : Precursor) (L : Libs) (encoders : ReportEncoders) (protocolVersion seqNr : ℕ) :
    List EmittedReport :=
  if seqNr ≤ 1 then []
  else
    let emitted := o.channelReports L encoders protocolVersion seqNr
    if o.lifeCycleStage = .staging ∧ emitted.length < maxReportCount then
      emitted ++ [.stagingMarker seqNr]
    else emitted

variable {o : Precursor} {L : Libs} {encoders : ReportEncoders} {protocolVersion seqNr : ℕ}
/-- A retirement report carries the watermarks of its round. -/
lemma retirement_mem_reports {r : RetirementReport}
    (h : EmittedReport.retirement r ∈ o.reports L encoders protocolVersion seqNr) :
    o.lifeCycleStage = .retired ∧ r = o.retirementReport protocolVersion := by
  have hmem : EmittedReport.retirement r ∈ o.channelReports L encoders protocolVersion seqNr := by
    simp only [reports] at h
    split_ifs at h
    · simp at h
    · simpa using h
    · exact h
  simp only [channelReports,List.mem_append,List.mem_filterMap] at hmem
  rcases hmem with hmem | ⟨id,_,hid⟩
  · split_ifs at hmem with hr
    · simp only [List.mem_singleton,EmittedReport.retirement.injEq] at hmem
      exact ⟨hr,hmem⟩
    · simp at hmem
  · simp only [encodeReport,bind_eq_bind,bind_eq_some_iff] at hid
    obtain ⟨_,_,_,_,_,_,heq⟩ := hid
    simp at heq

lemma mem_reports_of_retired (hr : o.lifeCycleStage = .retired) (hseq : 1 < seqNr) :
    EmittedReport.retirement (o.retirementReport protocolVersion) ∈ o.reports L encoders protocolVersion seqNr := by
  rw [reports,if_neg (by omega)]
  simp [hr,channelReports]

lemma channelReport_interval {id : ChannelID} {cd cd' : ChannelDefinition} {r : Report}
    (hcd : o.channelDefinitions.get? id = some cd) (hb : cd.isBackfill = false)
    (h : o.channelReport L seqNr id = some (r,cd')) :
    r.channelID = id ∧ r.validAfterNanoseconds = (o.validAfterNanoseconds.get? id).getD 0 ∧
      r.observationTimestampNanoseconds = o.observationTimestampNanoseconds := by
  simp only [channelReport,hcd,bind_eq_bind,bind_some,hb,Bool.false_eq_true,if_false,
    intervalReport,bind_eq_some_iff,Option.some.injEq,Prod.mk.injEq] at h
  obtain ⟨_,_,rfl,_⟩ := h
  exact ⟨rfl,rfl,rfl⟩

end Precursor
end DataStreams.V31
