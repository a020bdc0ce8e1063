import DataStreams.V31.ValidityWindow

/-! Which encode failures come from the configuration, and which from the data of the round. -/
namespace DataStreams
open List

namespace StreamValue
/-- The zero value of the same shape: it fits every integer type, and a zero price charges no
fee. -/
def quiet : StreamValue → StreamValue
  | .decimal _ => .decimal ⟨0,0⟩
  | .quote _ => .quote ⟨⟨0,0⟩,⟨0,0⟩,⟨0,0⟩⟩
  | .timestamped _ _ => .timestamped 0 (.decimal ⟨0,0⟩)

def quietPrice : StreamValue → StreamValue
  | .quote _ => .quote ⟨⟨0,0⟩,⟨0,0⟩,⟨0,0⟩⟩
  | _ => .decimal ⟨0,0⟩

end StreamValue

lemma ABIElement.scale_zero (e : ABIElement) : e.scale ⟨0,0⟩ = 0 := by
  unfold ABIElement.scale
  split <;> simp [Decimal.bigInt,Decimal.mul,Decimal.ofInt]

variable {packed : Bool}
lemma ABIElement.check_zero {e : ABIElement} {d : Decimal} (h : e.check d packed = .ok ()) :
    e.check ⟨0,0⟩ packed = .ok () := by
  unfold ABIElement.check at h ⊢
  split_ifs at h ⊢
  · rfl
  · rw [e.scale_zero]
    exact checkSolidityInt_zero h

variable {s : ABISpec} {v : StreamValue}
lemma ABISpec.checkValue_quiet
    (h : s.checkValue (some v) packed = .ok ()) : s.checkValue (some v.quiet) packed = .ok () := by
  rw [ABISpec.checkValue_eq_ok] at h ⊢
  rcases h with ⟨e,d,rfl,hv,he⟩ | ⟨e₀,e₁,at_,d,rfl,hv,h₀,h₁⟩
  · cases Option.some.inj hv
    exact .inl ⟨e,_,rfl,rfl,ABIElement.check_zero he⟩
  · cases Option.some.inj hv
    exact .inr ⟨e₀,e₁,0,_,rfl,rfl,ABIElement.check_zero h₀,ABIElement.check_zero h₁⟩

lemma ABISpec.checkValue_quietPrice (hs : s.length ≠ 2)
    (h : s.checkValue (some v) packed = .ok ()) : s.checkValue (some v.quietPrice) packed = .ok () := by
  rw [ABISpec.checkValue_eq_ok] at h ⊢
  rcases h with ⟨e,d,rfl,hv,he⟩ | ⟨e₀,e₁,at_,d,rfl,hv,h₀,h₁⟩
  · cases Option.some.inj hv
    exact .inl ⟨e,_,rfl,rfl,ABIElement.check_zero he⟩
  · simp at hs

lemma priceFits_quietPrice (baseUSDFee : Decimal) (v : StreamValue) : PriceFits baseUSDFee (some v.quietPrice) := by
  have hfee : calculateFee ⟨0,0⟩ baseUSDFee = .ok 0 := by simp [calculateFee,Decimal.isZero]
  refine ⟨⟨0,0⟩,0,?_,hfee,le_rfl,by decide⟩
  cases v <;> rfl

/-- No timestamps that pass the time gates fit a header in seconds: the observation
timestamp would have to lie before the one bound and not before the other. -/
def TimesNeverFit (h : HeaderOpts) (minReportInterval : ℕ) : Prop :=
  h.timeResolution = .seconds ∧ min ((2 ^ 32 - h.expirationWindow) * 10 ^ 9)
      ((2 ^ 32 - 1) * 10 ^ 9 + effectiveReportRange h.maxReportRange) ≤ max minReportInterval (10 ^ 9)

def PassesGates (validAfter obs minReportInterval : ℕ) (res : TimeResolution) : Prop :=
  saturatingAdd validAfter minReportInterval ≤ obs ∧ validAfter < obs ∧
    convertTimestamp validAfter res < convertTimestamp obs res

variable {obs : ℕ}
lemma le_clampReportRange {validAfter : ℕ} (maxReportRange : ℤ) (h : validAfter < obs) :
    obs - effectiveReportRange maxReportRange ≤ clampReportRange validAfter obs maxReportRange := by
  unfold clampReportRange
  dsimp only
  split_ifs <;> omega

lemma clampReportRange_zero (obs : ℕ) (maxReportRange : ℤ) :
    clampReportRange 0 obs maxReportRange = obs - effectiveReportRange maxReportRange := by
  unfold clampReportRange
  dsimp only
  split_ifs <;> omega

variable {h : HeaderOpts} {va minReportInterval : ℕ}
lemma not_windowFits_of_timesNeverFit
    (hnever : TimesNeverFit h minReportInterval) (hg : PassesGates va obs minReportInterval h.timeResolution) :
    ¬ WindowFits h va obs := by
  obtain ⟨hres,hbound⟩ := hnever
  obtain ⟨hmin,hlt,htick⟩ := hg
  intro hfits
  obtain ⟨hfrom,huntil⟩ := hfits hres
  have hclamp := le_clampReportRange h.maxReportRange hlt
  rw [hres] at htick
  simp only [convertTimestamp,resolutionNanos] at htick
  simp only [saturatingAdd] at hmin
  omega

lemma exists_windowFits (hobs : obs < 2 ^ 64)
    (hfit : ¬ TimesNeverFit h minReportInterval) (hg : PassesGates va obs minReportInterval h.timeResolution) :
    ∃ va' obs', obs' < 2 ^ 64 ∧ PassesGates va' obs' minReportInterval h.timeResolution ∧ WindowFits h va' obs' := by
  by_cases hres : h.timeResolution = .seconds
  · have hbound : max minReportInterval (10 ^ 9) < min ((2 ^ 32 - h.expirationWindow) * 10 ^ 9)
        ((2 ^ 32 - 1) * 10 ^ 9 + effectiveReportRange h.maxReportRange) := by
      by_contra hle
      exact hfit ⟨hres,not_lt.1 hle⟩
    refine ⟨0,max minReportInterval (10 ^ 9),by omega,⟨?_,by omega,?_⟩,fun _ => ?_⟩
    · simp only [saturatingAdd]
      omega
    · rw [hres]
      simp only [convertTimestamp,resolutionNanos]
      omega
    · rw [clampReportRange_zero]
      omega
  · exact ⟨va,obs,hobs,hg,fun hs => absurd hs hres⟩

def payloadStreams (format : ReportFormat) (abiLen : ℕ) (streams : List Stream) : List Stream :=
  match format with
  | .evmABIEncodeUnpacked => streams.drop 2
  | .evmABIEncodeUnpackedExpr => streams.drop (streams.length - abiLen)
  | _ => []

lemma abiPayload_map {format : ReportFormat} {n : ℕ} {streams : List Stream} {f : Stream → Option StreamValue}
    {payload : List (Option StreamValue)}
    (hformat : format = .evmABIEncodeUnpacked ∨ format = .evmABIEncodeUnpackedExpr)
    (h : abiPayload format n (streams.map f) = .ok payload) (g : Stream → Option StreamValue) :
    abiPayload format n (streams.map g) = .ok ((payloadStreams format n streams).map g) := by
  rcases hformat with rfl | rfl <;>
  · simp only [abiPayload,length_map] at h ⊢
    split_ifs at h ⊢
    simp [payloadStreams,map_drop]

/-- A price of the report is also part of its payload, as a timestamped value. -/
def PricesTimestamped (J : JSON) (cd : ChannelDefinition) (streams : List Stream) : Prop :=
  ∃ abi, decodeOpts [] J.unmarshalABIPayload cd.opts = .ok abi ∧
    ∃ e ∈ abi.zip (payloadStreams cd.reportFormat abi.length streams), e.1.length = 2 ∧ e.2 ∈ streams.take 2

namespace V31
namespace Precursor
/-- Two rounds under one configuration, whatever their values, watermarks and timestamps. -/
structure SameConfiguration (o o' : Precursor) : Prop where
  lifeCycleStage : o'.lifeCycleStage = o.lifeCycleStage
  channelDefinitions : o'.channelDefinitions = o.channelDefinitions
  timestamp_lt : o'.observationTimestampNanoseconds < 2 ^ 64

/-- `Encode` of the report the report stage builds for a channel. -/
def encoding (o : Precursor) (L : Libs) (seqNr : ℕ) (id : ChannelID) : Go Bytes :=
  match o.channelReport L seqNr id with
  | none => Go.err "no report"
  | some (r,cd) => encodeEVM L.json r.fields cd o.opts

def FailsOnlyByConfiguration (o : Precursor) (L : Libs) (minReportInterval f : ℕ)
    (support : ReportFormat → ℕ) (seqNr : ℕ) (id : ChannelID) : Prop :=
  Go.Returns (o.encoding L seqNr id) ∨
    ∀ o', o.SameConfiguration o' → o'.isReportable L minReportInterval f support o'.opts id = true →
      ¬ Go.Returns (o'.encoding L seqNr id)

def reportFields (o : Precursor) (streams : List Stream) (id : ChannelID) : ReportFields :=
  ⟨id,(o.validAfterNanoseconds.get? id).getD 0,o.observationTimestampNanoseconds,o.reportValues streams,o.isSpecimen⟩

/-- The round's prices and timestamps fit the header, if the format has one. -/
def DataFit (o : Precursor) (J : JSON) (id : ChannelID) (cd : ChannelDefinition) : Prop :=
  cd.reportFormat.hasHeader = true →
    ∃ h, headerOpts J cd = .ok h ∧ ∃ streams, effectiveStreams J (some o.opts) cd id = .ok streams ∧
      HeaderFits h (o.reportFields streams id)

/-- The configuration alone rules out a header: its opts do not decode, the report has no
two prices, no timestamps fit, or a price is always timestamped. -/
def NeverFits (o : Precursor) (J : JSON) (minReportInterval : ℕ) (id : ChannelID) (cd : ChannelDefinition) : Prop :=
  ∀ h, headerOpts J cd = .ok h → ∀ streams, effectiveStreams J (some o.opts) cd id = .ok streams →
    streams.length < 2 ∨ TimesNeverFit h minReportInterval ∨ PricesTimestamped J cd streams

variable {o o' : Precursor} {L : Libs} {E : ExprLib} {minReportInterval f seqNr : ℕ}
  {support : ReportFormat → ℕ} {id : ChannelID} {cd : ChannelDefinition} {streams : List Stream}

lemma encoding_eq (hcd : o.channelDefinitions.get? id = some cd) (hb : cd.isBackfill = false)
    (hs : effectiveStreams L.json (some o.opts) cd id = .ok streams) :
    o.encoding L seqNr id = encodeEVM L.json (o.reportFields streams id) cd o.opts := by
  have hr : o.channelReport L seqNr id = some (⟨seqNr,id,(o.validAfterNanoseconds.get? id).getD 0,
      o.observationTimestampNanoseconds,o.reportValues streams,o.isSpecimen⟩,cd) := by
    simp only [channelReport,hcd,Option.bind_eq_bind,Option.bind_some,hb,Bool.false_eq_true,if_false]
    simp [intervalReport,hs,Except.toOption]
  rw [encoding,hr]
  rfl

lemma hasReportableValues_iff :
    o.hasReportableValues L cd id o.opts = true ↔
      ∃ streams, effectiveStreams L.json (some o.opts) cd id = .ok streams ∧
        (∀ s ∈ streams, (o.streamAggregates s.streamID s.aggregator).isSome = true) ∧
        checkEncodableValues L.json (some o.opts) cd id (o.reportValues streams) = .ok () := by
  unfold hasReportableValues
  cases effectiveStreams L.json (some o.opts) cd id with
  | error e => simp
  | ok streams =>
    have hok : ∀ x : Except String Unit, x.isOk = true ↔ x = .ok () := by
      rintro (e | ⟨⟩) <;> simp [Except.isOk,Except.toBool]
    simp [reportValues,hok]

lemma three_le_of_accepted (hacc : AcceptedByCodec L E cd) (hf : cd.reportFormat = .evmABIEncodeUnpacked)
    (hs : effectiveStreams L.json (some o.opts) cd id = .ok streams) : 3 ≤ streams.length := by
  obtain ⟨codec,hcodec,hverify,_⟩ := hacc
  rw [hf,buildCodec,Option.some.injEq] at hcodec
  subst hcodec
  simp only [reportCodecEVMABIEncodeUnpacked,Go.bind_ok_iff] at hverify
  obtain ⟨opts,_,_,_,hlen⟩ := hverify
  split_ifs at hlen
  simp only [effectiveStreams,ChannelDefinition.hasCalculatedStreams,hf,reduceCtorEq,decide_false,
    Bool.false_eq_true,not_false_eq_true,if_true,Except.ok.injEq] at hs
  subst hs
  omega

lemma reportable_header (hJ : L.json.Lawful) (hcd : o.channelDefinitions.get? id = some cd)
    (hformat : cd.reportFormat.hasHeader = true)
    (hrep : o.isReportable L minReportInterval f support o.opts id = true) {h : HeaderOpts}
    (hh : headerOpts L.json cd = .ok h) :
    PassesGates (o.reportFields streams id).validAfterNanoseconds o.observationTimestampNanoseconds
      minReportInterval h.timeResolution := by
  obtain ⟨_,_,va,hva,hint,_⟩ := (isReportable_iff hcd (not_isBackfill_of_hasHeader hformat)).1 hrep
  obtain ⟨hmin,hlt,res,hres,htick⟩ := intervalReportable_iff.1 hint
  rw [reportTimeResolution_eq hJ hcd hformat hh hres]
  simp only [reportFields,hva,Option.getD_some]
  exact ⟨hmin,hlt,htick⟩

lemma returns_encoding (hJ : L.json.Lawful) (hprod : o.lifeCycleStage = .production)
    (hobs : o.observationTimestampNanoseconds < 2 ^ 64) (hcd : o.channelDefinitions.get? id = some cd)
    (hformat : cd.reportFormat.hasHeader = true) (hacc : AcceptedByCodec L E cd)
    (hrep : o.isReportable L minReportInterval f support o.opts id = true)
    (hs : effectiveStreams L.json (some o.opts) cd id = .ok streams) :
    Go.Returns (o.encoding L seqNr id) ↔
      ∃ h, headerOpts L.json cd = .ok h ∧ HeaderFits h (o.reportFields streams id) := by
  have hb := not_isBackfill_of_hasHeader hformat
  obtain ⟨_,_,va,hva,hint,_,hvals⟩ := (isReportable_iff hcd hb).1 hrep
  obtain ⟨streams',hs',_,hcheck⟩ := hasReportableValues_iff.1 hvals
  rw [hs] at hs'
  cases hs'
  rw [encoding_eq hcd hb hs]
  refine returns_encodeEVM hJ hformat ⟨hcd,?_,hcheck⟩ hobs ?_ ?_
  · simp [reportFields,isSpecimen,hprod]
  · simp only [reportFields,hva,Option.getD_some]
    exact (intervalReportable_iff.1 hint).2.1
  · intro hf
    simpa [reportFields,reportValues] using three_le_of_accepted hacc hf hs

lemma price_mem_take {o : Precursor} {native link : Option StreamValue} {rest : List (Option StreamValue)}
    {s : Stream} (hv : o.reportValues streams = native :: link :: rest) (hs : s ∈ streams.take 2) :
    o.streamAggregates s.streamID s.aggregator = native ∨ o.streamAggregates s.streamID s.aggregator = link := by
  rcases streams with _ | ⟨s₁,_ | ⟨s₂,streams⟩⟩
  · simp [reportValues] at hv
  · simp [reportValues] at hv
  · simp only [reportValues,map_cons,List.cons.injEq] at hv
    simp only [take_succ_cons,take_zero,mem_cons,not_mem_nil,or_false] at hs
    rcases hs with rfl | rfl
    · exact .inl hv.1
    · exact .inr hv.2.1

/-- A timestamped value is no price, so no header fits. -/
lemma not_headerFits_of_pricesTimestamped
    (hformat : cd.reportFormat.hasHeader = true) (hcd : o.channelDefinitions.get? id = some cd)
    (hcheck : checkEncodableValues L.json (some o.opts) cd id (o.reportValues streams) = .ok ())
    (hts : PricesTimestamped L.json cd streams) (h : HeaderOpts) : ¬ HeaderFits h (o.reportFields streams id) := by
  obtain ⟨abi,habi,e,he,hlen,hmem⟩ := hts
  have hunpacked : cd.reportFormat = .evmABIEncodeUnpacked ∨ cd.reportFormat = .evmABIEncodeUnpackedExpr := by
    cases hf : cd.reportFormat <;> simp_all [ReportFormat.hasHeader,payloadStreams]
  obtain ⟨abi',habi',payload,hpayload,hall⟩ := (checkEncodableValues_abi (r := o.reportFields streams id)
    (hunpacked.imp_right .inl) hcd).1 hcheck
  rw [habi] at habi'
  cases habi'
  have hmap := abiPayload_map hunpacked hpayload (fun s => o.streamAggregates s.streamID s.aggregator)
  rw [show streams.map (fun s => o.streamAggregates s.streamID s.aggregator) = o.reportValues streams from rfl,
    hpayload] at hmap
  cases hmap
  have hval := hall (e.1,o.streamAggregates e.2.streamID e.2.aggregator) (by
    rw [zip_map_right]
    exact mem_map.2 ⟨e,he,rfl⟩)
  rcases ABISpec.checkValue_eq_ok.1 hval with ⟨_,_,h₁,_⟩ | ⟨_,_,at_,d,_,hv,_⟩
  · simp only at h₁
    simp [h₁] at hlen
  · rintro ⟨⟨native,link,rest,hvalues,⟨np,_,hnp,_⟩,⟨lp,_,hlp,_⟩⟩,_⟩
    simp only at hv
    rcases price_mem_take hvalues hmem with heq | heq
    · rw [← heq,hv] at hnp
      cases hnp
    · rw [← heq,hv] at hlp
      cases hlp

/-- No data of a configuration that rules out a header are encoded. -/
lemma not_returns_of_neverFits (hJ : L.json.Lawful) (hprod : o.lifeCycleStage = .production)
    (hobs : o.observationTimestampNanoseconds < 2 ^ 64) (hcd : o.channelDefinitions.get? id = some cd)
    (hformat : cd.reportFormat.hasHeader = true) (hacc : AcceptedByCodec L E cd)
    (hrep : o.isReportable L minReportInterval f support o.opts id = true)
    (hnever : o.NeverFits L.json minReportInterval id cd) : ¬ Go.Returns (o.encoding L seqNr id) := by
  obtain ⟨_,_,_,_,_,_,hvals⟩ := (isReportable_iff hcd (not_isBackfill_of_hasHeader hformat)).1 hrep
  obtain ⟨streams,hs,_,hcheck⟩ := hasReportableValues_iff.1 hvals
  rw [returns_encoding hJ hprod hobs hcd hformat hacc hrep hs]
  rintro ⟨h,hh,hfits⟩
  rcases hnever h hh streams hs with hshort | htimes | hts
  · obtain ⟨⟨native,link,rest,hv,_⟩,_⟩ := hfits
    have hlen := congrArg List.length hv
    simp only [reportFields,reportValues,length_map,length_cons] at hlen
    omega
  · exact not_windowFits_of_timesNeverFit htimes (reportable_header hJ hcd hformat hrep hh) hfits.2
  · exact not_headerFits_of_pricesTimestamped hformat hcd hcheck hts h hfits

/-- The same round with zero values and other timestamps. -/
def quieted (o : Precursor) (streams : List Stream) (id : ChannelID) (va obs : ℕ) : Precursor :=
  { o with
    observationTimestampNanoseconds := obs
    validAfterNanoseconds := o.validAfterNanoseconds.insert id va
    streamAggregates := fun sid agg => (o.streamAggregates sid agg).map
      (if ⟨sid,agg⟩ ∈ streams.take 2 then StreamValue.quietPrice else StreamValue.quiet) }

lemma checkEncodableValues_quieted_premium (hf : cd.reportFormat = .evmPremiumLegacy)
    (hcd : o.channelDefinitions.get? id = some cd)
    (hcheck : checkEncodableValues L.json (some o.opts) cd id (o.reportValues streams) = .ok ()) (va obs : ℕ) :
    checkEncodableValues L.json (some o.opts) cd id ((o.quieted streams id va obs).reportValues streams) = .ok () := by
  have hzero : ∀ m : Decimal, ((⟨0,0⟩ : Decimal).mul m).bigInt = 0 := by
    intro m
    simp [Decimal.bigInt,Decimal.mul]
  have hiff := @checkEncodableValues_premium L.json o.channelDefinitions cd (o.reportFields streams id) hf hcd
  obtain ⟨native,link,q,hv,multiplier,hmult,m,hm,h₁,h₂,h₃⟩ := hiff.1 hcheck
  obtain ⟨s₁,s₂,s₃,rfl⟩ : ∃ s₁ s₂ s₃, streams = [s₁,s₂,s₃] := by
    have hlen := congrArg List.length hv
    simp only [reportValues,length_map,length_cons,length_nil] at hlen
    exact length_eq_three.1 hlen
  simp only [reportValues,map_cons,map_nil,List.cons.injEq,and_true] at hv
  have hthird : (o.quieted [s₁,s₂,s₃] id va obs).streamAggregates s₃.streamID s₃.aggregator =
      some (.quote ⟨⟨0,0⟩,⟨0,0⟩,⟨0,0⟩⟩) := by
    simp only [quieted,hv.2.2,Option.map_some]
    split_ifs <;> rfl
  refine hiff.2 ⟨(o.quieted [s₁,s₂,s₃] id va obs).streamAggregates s₁.streamID s₁.aggregator,
    (o.quieted [s₁,s₂,s₃] id va obs).streamAggregates s₂.streamID s₂.aggregator,⟨⟨0,0⟩,⟨0,0⟩,⟨0,0⟩⟩,
    by simp [reportValues,hthird],multiplier,hmult,m,hm,?_⟩
  rw [hzero]
  exact ⟨checkSolidityInt_zero h₁,checkSolidityInt_zero h₂,checkSolidityInt_zero h₃⟩

section Quieted
variable (hcd : o.channelDefinitions.get? id = some cd)
  (hsome : ∀ s ∈ streams, (o.streamAggregates s.streamID s.aggregator).isSome = true)
  (hcheck : checkEncodableValues L.json (some o.opts) cd id (o.reportValues streams) = .ok ())
  (hts : ¬ PricesTimestamped L.json cd streams) (va obs : ℕ)
include hcd hsome hcheck hts

lemma checkEncodableValues_quieted_unpacked
    (hunpacked : cd.reportFormat = .evmABIEncodeUnpacked ∨ cd.reportFormat = .evmABIEncodeUnpackedExpr) :
    checkEncodableValues L.json (some o.opts) cd id ((o.quieted streams id va obs).reportValues streams) = .ok () := by
  have hiff := @checkEncodableValues_abi L.json o.channelDefinitions cd (o.reportFields streams id)
    (hunpacked.imp_right .inl) hcd
  obtain ⟨abi,habi,payload,hpayload,hall⟩ := hiff.1 hcheck
  have hmap := abiPayload_map hunpacked hpayload
  have hpay := (hpayload.symm.trans (hmap _)).trans rfl
  cases hpay
  refine hiff.2 ⟨abi,habi,_,hmap _,?_⟩
  intro e he
  rw [zip_map_right,mem_map] at he
  obtain ⟨e,he,rfl⟩ := he
  have hval := hall (e.1,o.streamAggregates e.2.streamID e.2.aggregator) (by
    rw [zip_map_right]
    exact mem_map.2 ⟨e,he,rfl⟩)
  have hmem : e.2 ∈ streams := by
    have hpm := (of_mem_zip he).2
    rcases hunpacked with hf | hf <;>
    · rw [hf,payloadStreams] at hpm
      exact mem_of_mem_drop hpm
  obtain ⟨v,hv⟩ := Option.isSome_iff_exists.1 (hsome e.2 hmem)
  simp only [hv] at hval
  simp only [Prod.map,id_eq,quieted,hv,Option.map_some]
  split_ifs with hprice
  · exact ABISpec.checkValue_quietPrice (fun hlen => hts ⟨abi,habi,e,he,hlen,hprice⟩) hval
  · exact ABISpec.checkValue_quiet hval

lemma checkEncodableValues_quieted (hformat : cd.reportFormat.hasHeader = true) :
    checkEncodableValues L.json (some o.opts) cd id ((o.quieted streams id va obs).reportValues streams) = .ok () := by
  cases hf : cd.reportFormat with
  | evmPremiumLegacy => exact checkEncodableValues_quieted_premium hf hcd hcheck va obs
  | evmABIEncodeUnpacked => exact checkEncodableValues_quieted_unpacked hcd hsome hcheck hts va obs (.inl hf)
  | evmABIEncodeUnpackedExpr => exact checkEncodableValues_quieted_unpacked hcd hsome hcheck hts va obs (.inr hf)
  | _ => simp [hf,ReportFormat.hasHeader] at hformat

end Quieted

lemma pricesFit_quieted (hsome : ∀ s ∈ streams, (o.streamAggregates s.streamID s.aggregator).isSome = true)
    (hlen : 2 ≤ streams.length) (baseUSDFee : Decimal) (va obs : ℕ) :
    ∃ native link rest, (o.quieted streams id va obs).reportValues streams = native :: link :: rest ∧
      PriceFits baseUSDFee native ∧ PriceFits baseUSDFee link := by
  have hprice : ∀ s ∈ streams.take 2,
      PriceFits baseUSDFee ((o.quieted streams id va obs).streamAggregates s.streamID s.aggregator) := by
    intro s hs
    obtain ⟨v,hv⟩ := Option.isSome_iff_exists.1 (hsome s (mem_of_mem_take hs))
    simp only [quieted,hv,Option.map_some]
    rw [if_pos hs]
    exact priceFits_quietPrice baseUSDFee v
  rcases streams with _ | ⟨s₁,_ | ⟨s₂,rest⟩⟩
  · simp at hlen
  · simp at hlen
  · exact ⟨_,_,_,rfl,hprice s₁ (by simp),hprice s₂ (by simp)⟩

/-- Otherwise zero values at suitable timestamps are encoded. -/
lemma exists_returns_of_not_neverFits (hJ : L.json.Lawful) (hprod : o.lifeCycleStage = .production)
    (hobs : o.observationTimestampNanoseconds < 2 ^ 64) (hcd : o.channelDefinitions.get? id = some cd)
    (hformat : cd.reportFormat.hasHeader = true) (hacc : AcceptedByCodec L E cd)
    (hrep : o.isReportable L minReportInterval f support o.opts id = true)
    (hnever : ¬ o.NeverFits L.json minReportInterval id cd) :
    ∃ o', o.SameConfiguration o' ∧ o'.isReportable L minReportInterval f support o'.opts id = true ∧
      Go.Returns (o'.encoding L seqNr id) := by
  have hb := not_isBackfill_of_hasHeader hformat
  obtain ⟨hret,htomb,va,hva,hint,hsup,hvals⟩ := (isReportable_iff hcd hb).1 hrep
  obtain ⟨streams,hs,hsome,hcheck⟩ := hasReportableValues_iff.1 hvals
  obtain ⟨h,hh,streams',hs',hnot⟩ : ∃ h, headerOpts L.json cd = .ok h ∧ ∃ streams',
      effectiveStreams L.json (some o.opts) cd id = .ok streams' ∧
      ¬ (streams'.length < 2 ∨ TimesNeverFit h minReportInterval ∨ PricesTimestamped L.json cd streams') := by
    simpa only [NeverFits,not_forall,exists_prop] using hnever
  rw [hs] at hs'
  cases hs'
  simp only [not_or,not_lt] at hnot
  obtain ⟨hlen,htimes,hts⟩ := hnot
  have hg := @reportable_header _ _ _ _ _ _ _ streams hJ hcd hformat hrep _ hh
  obtain ⟨va',obs',hobs',hg',hfits⟩ := exists_windowFits hobs htimes hg
  obtain ⟨_,_,res,hres,_⟩ := intervalReportable_iff.1 hint
  have hreq := reportTimeResolution_eq hJ hcd hformat hh hres
  -- zero values at timestamps that fit
  let o' := o.quieted streams id va' obs'
  have hva' : o'.validAfterNanoseconds.get? id = some va' := by simp [o',quieted]
  have hrep' : o'.isReportable L minReportInterval f support o'.opts id = true := by
    refine (isReportable_iff (o := o') hcd hb).2 ⟨hret,htomb,va',hva',?_,hsup,?_⟩
    · rw [hreq] at hg'
      exact intervalReportable_iff.2 ⟨hg'.1,hg'.2.1,res,hres,hg'.2.2⟩
    · refine hasReportableValues_iff.2 ⟨streams,hs,?_,
        checkEncodableValues_quieted hcd hsome hcheck hts va' obs' hformat⟩
      intro s hmem
      simpa [o',quieted] using hsome s hmem
  refine ⟨o',⟨rfl,rfl,hobs'⟩,hrep',?_⟩
  rw [returns_encoding (o := o') hJ hprod hobs' hcd hformat hacc hrep' hs]
  refine ⟨h,hh,pricesFit_quieted hsome hlen h.baseUSDFee va' obs',?_⟩
  change WindowFits h ((o'.validAfterNanoseconds.get? id).getD 0) obs'
  rw [hva']
  exact hfits

lemma failsOnlyByConfiguration_streamlined (hJ : L.json.Lawful) (hprod : o.lifeCycleStage = .production)
    (hcd : o.channelDefinitions.get? id = some cd) (hf : cd.reportFormat = .evmStreamlined)
    (hrep : o.isReportable L minReportInterval f support o.opts id = true) :
    o.FailsOnlyByConfiguration L minReportInterval f support seqNr id := by
  have hb : cd.isBackfill = false := by simp [ChannelDefinition.isBackfill,hf]
  have hiff : ∀ o' : Precursor, o'.lifeCycleStage = .production → o'.channelDefinitions.get? id = some cd →
      o'.isReportable L minReportInterval f support o'.opts id = true →
      (Go.Returns (o'.encoding L seqNr id) ↔
        ∃ opts, decodeOpts .zero L.json.unmarshalEVMStreamlined cd.opts = .ok opts) := by
    intro o' hprod' hcd' hrep'
    obtain ⟨_,_,_,_,_,_,hvals⟩ := (isReportable_iff hcd' hb).1 hrep'
    obtain ⟨streams,hs,_,hcheck⟩ := hasReportableValues_iff.1 hvals
    rw [encoding_eq hcd' hb hs,encodeEVM]
    simp only [hf]
    exact returns_encodeEVMStreamlined hJ hf ⟨hcd',by simp [reportFields,isSpecimen,hprod'],hcheck⟩
  by_cases hopts : ∃ opts, decodeOpts .zero L.json.unmarshalEVMStreamlined cd.opts = .ok opts
  · exact .inl ((hiff o hprod hcd hrep).2 hopts)
  · refine .inr fun o' hsame hrep' hret => hopts ((hiff o' ?_ ?_ hrep').1 hret)
    · rw [hsame.lifeCycleStage,hprod]
    · rw [hsame.channelDefinitions,hcd]

/-- A production round's encode failure is a failure of the configuration exactly when the
round's data fit the header or the configuration rules out a header for all data. -/
theorem failsOnlyByConfiguration_iff (hJ : L.json.Lawful) (hprod : o.lifeCycleStage = .production)
    (hobs : o.observationTimestampNanoseconds < 2 ^ 64) (hcd : o.channelDefinitions.get? id = some cd)
    (hevm : cd.reportFormat.isEVM = true) (hacc : AcceptedByCodec L E cd)
    (hrep : o.isReportable L minReportInterval f support o.opts id = true) :
    o.FailsOnlyByConfiguration L minReportInterval f support seqNr id ↔
      o.DataFit L.json id cd ∨ o.NeverFits L.json minReportInterval id cd := by
  by_cases hformat : cd.reportFormat.hasHeader = true
  · obtain ⟨_,_,_,_,_,_,hvals⟩ := (isReportable_iff hcd (not_isBackfill_of_hasHeader hformat)).1 hrep
    obtain ⟨streams,hs,_,_⟩ := hasReportableValues_iff.1 hvals
    have hdata : Go.Returns (o.encoding L seqNr id) ↔ o.DataFit L.json id cd := by
      rw [returns_encoding hJ hprod hobs hcd hformat hacc hrep hs]
      simp [DataFit,hformat,hs]
    refine or_congr hdata ⟨fun hall => ?_,fun hnever o' hsame hrep' => ?_⟩
    · by_contra hnever
      obtain ⟨o',hsame,hrep',hret'⟩ :=
        exists_returns_of_not_neverFits hJ hprod hobs hcd hformat hacc hrep hnever
      exact hall o' hsame hrep' hret'
    · have hnever' : o'.NeverFits L.json minReportInterval id cd := by
        unfold NeverFits Precursor.opts at hnever ⊢
        rw [hsame.channelDefinitions]
        exact hnever
      exact not_returns_of_neverFits hJ (hsame.lifeCycleStage.trans hprod) hsame.timestamp_lt
        (by rw [hsame.channelDefinitions,hcd]) hformat hacc hrep' hnever'
  · have hf : cd.reportFormat = .evmStreamlined := by simpa [ReportFormat.isEVM,hformat] using hevm
    exact iff_of_true (failsOnlyByConfiguration_streamlined hJ hprod hcd hf hrep)
      (.inl fun hheader => absurd hheader hformat)

end Precursor

lemma feeChannel_accepted : AcceptedByCodec premiumLibs rejectingExprs (premiumChannel feeOpts) := by decide +kernel

def priceRound (price : Decimal) : Precursor :=
  { premiumRound feeOpts with
    streamAggregates := fun sid agg =>
      if sid = 1 then some (.decimal price) else (premiumRound feeOpts).streamAggregates sid agg }

lemma priceRound_one_reportable :
    (priceRound ⟨1,0⟩).isReportable premiumLibs 0 1 (fun _ => 4) (priceRound ⟨1,0⟩).opts 1 = true := by decide +kernel

/-- A native price of `10 ^ -45` makes the fee too large for its word, so the report of a
reportable channel is not encoded; at a price of one it is. -/
theorem tiny_price_fails_by_data :
    AcceptedByCodec premiumLibs rejectingExprs (premiumChannel feeOpts) ∧
      (priceRound ⟨1,-45⟩).isReportable premiumLibs 0 1 (fun _ => 4) (priceRound ⟨1,-45⟩).opts 1 = true ∧
      ¬ (priceRound ⟨1,-45⟩).FailsOnlyByConfiguration premiumLibs 0 1 (fun _ => 4) 2 1 := by
  refine ⟨feeChannel_accepted,by decide +kernel,?_⟩
  rintro (⟨encoded,h⟩ | hall)
  · have hok : ((priceRound ⟨1,-45⟩).encoding premiumLibs 2 1).isOk = false := by decide +kernel
    rw [h] at hok
    cases hok
  · exact hall (priceRound ⟨1,0⟩) ⟨rfl,rfl,by decide⟩ priceRound_one_reportable
      ⟨_,Go.eq_ok_getD (by decide +kernel) []⟩

/-- At a price of one the report is encoded and its data fit. -/
theorem failsOnlyByConfiguration_priceRound :
    (priceRound ⟨1,0⟩).DataFit premiumLibs.json 1 (premiumChannel feeOpts) ∨
      (priceRound ⟨1,0⟩).NeverFits premiumLibs.json 0 1 (premiumChannel feeOpts) :=
  (@Precursor.failsOnlyByConfiguration_iff _ premiumLibs _ _ _ 2 _ _ _ (JSON.lawful_ofPremium _) rfl (by decide) rfl rfl
    feeChannel_accepted priceRound_one_reportable).1 (.inl ⟨_,Go.eq_ok_getD (by decide +kernel) []⟩)

end V31
end DataStreams
