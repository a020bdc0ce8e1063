import DataStreams.ReportCodec.Encodes

/-! The start and the end of a report, in terms of the watermark, the observation timestamp and
the opts. -/
namespace DataStreams
open Nat

lemma resolutionNanos_pos (res : TimeResolution) : 0 < resolutionNanos res := by
  cases res <;> simp [resolutionNanos]

/-- The interval keeps its start, or the latest start the range allows lies in an earlier
tick than its end. -/
def SpansTick (validAfter observationTimestamp maxRange : ℕ) (res : TimeResolution) : Prop :=
  observationTimestamp - validAfter ≤ maxRange ∨
    convertTimestamp (observationTimestamp - maxRange) res < convertTimestamp observationTimestamp res

variable {validAfter obs : ℕ} {res : TimeResolution}
/-- A range of a tick or more never lies within one. -/
lemma spansTick_of_resolution_le {maxRange : ℕ}
    (h : resolutionNanos res ≤ maxRange) : SpansTick validAfter obs maxRange res := by
  by_cases hr : obs - validAfter ≤ maxRange
  · exact .inl hr
  · refine .inr ?_
    have hpos := resolutionNanos_pos res
    unfold convertTimestamp
    calc (obs - maxRange) / resolutionNanos res
        < (obs - maxRange + maxRange) / resolutionNanos res := by
          refine (lt_succ_self _).trans_le ?_
          rw [succ_eq_add_one,← add_div_right _ hpos]
          exact Nat.div_le_div_right (by omega)
      _ = obs / resolutionNanos res := by rw [Nat.sub_add_cancel (by omega)]

variable {maxReportRange : ℤ}
/-- What the clamped start must satisfy, in terms of the interval and the range. -/
lemma convertTimestamp_clamp_lt_iff
    (hlt : validAfter < obs) (htick : convertTimestamp validAfter res < convertTimestamp obs res) :
    convertTimestamp (clampReportRange validAfter obs maxReportRange) res < convertTimestamp obs res ↔
      SpansTick validAfter obs (effectiveReportRange maxReportRange) res := by
  unfold clampReportRange SpansTick
  dsimp only
  rw [if_neg (by omega)]
  by_cases hr : obs - validAfter ≤ effectiveReportRange maxReportRange
  · rw [if_neg (by omega)]
    exact iff_of_true htick (.inl hr)
  · rw [if_pos (by omega),if_neg (by omega)]
    simp [hr]

lemma clampReportRange_of_le (maxReportRange : ℤ) (h : obs ≤ validAfter) :
    clampReportRange validAfter obs maxReportRange = obs := by
  unfold clampReportRange
  dsimp only
  split_ifs <;> omega

lemma convertTimestamp_mono {a b : ℕ} (res : TimeResolution) (h : a ≤ b) :
    convertTimestamp a res ≤ convertTimestamp b res := Nat.div_le_div_right h

/-- With a range of at least a tick, the clamped start lies in an earlier tick than the end
exactly when the start does. -/
lemma convertTimestamp_clamp_lt_iff_of_resolution_le
    (hrange : resolutionNanos res ≤ effectiveReportRange maxReportRange) :
    convertTimestamp (clampReportRange validAfter obs maxReportRange) res < convertTimestamp obs res ↔
      convertTimestamp validAfter res < convertTimestamp obs res := by
  rcases Nat.lt_or_ge validAfter obs with hlt | hle
  · by_cases htick : convertTimestamp validAfter res < convertTimestamp obs res
    · exact iff_of_true ((convertTimestamp_clamp_lt_iff hlt htick).2 (spansTick_of_resolution_le hrange)) htick
    · refine iff_of_false ?_ htick
      have hstart : validAfter ≤ clampReportRange validAfter obs maxReportRange := by
        unfold clampReportRange
        dsimp only
        split_ifs <;> omega
      exact fun h => htick ((convertTimestamp_mono res hstart).trans_lt h)
  · rw [clampReportRange_of_le maxReportRange hle]
    exact iff_of_false (lt_irrefl _) (not_lt.2 (convertTimestamp_mono res hle))

/-- The words of a report that hold its validity window. -/
def encodedValidFrom (encoded : Bytes) : ℕ := wordAt encoded 1

def encodedObservationsTimestamp (encoded : Bytes) : ℕ := wordAt encoded 2

lemma convertTimestamp_le (ts : ℕ) (res : TimeResolution) : convertTimestamp ts res ≤ ts :=
  Nat.div_le_self ts _

variable {J : JSON} {defs : ChannelDefinitions} {cd : ChannelDefinition} {r : ReportFields} {encoded : Bytes}
/-- A report starts at the tick after its clamped start. -/
def validFromTimestamp (h : HeaderOpts) (r : ReportFields) : ℕ :=
  convertTimestamp (clampReportRange r.validAfterNanoseconds r.observationTimestampNanoseconds h.maxReportRange)
    h.timeResolution + 1

lemma encoded_window {feedID validFrom timestamp : ℕ} {words : List ℕ} {rest : Bytes}
    (hfrom : validFrom < 2 ^ 64) (hts : timestamp < 2 ^ 64)
    (he : packWords (feedID :: validFrom :: timestamp :: words) ++ rest = encoded) :
    encodedValidFrom encoded = validFrom ∧ encodedObservationsTimestamp encoded = timestamp := by
  have hsmall : ∀ n, n < 2 ^ 64 → n % 256 ^ 32 = n := fun n hn => mod_eq_of_lt (hn.trans (by decide))
  subst he
  rw [encodedValidFrom,encodedObservationsTimestamp,wordAt_packWords (n := validFrom) rfl,
    wordAt_packWords (n := timestamp) rfl,hsmall _ hfrom,hsmall _ hts]
  exact ⟨rfl,rfl⟩

variable (hformat : cd.reportFormat.hasHeader = true) (hdef : defs.get? r.channelID = some cd) (hobs : r.observationTimestampNanoseconds < 2 ^ 64)
include hformat hdef hobs

/-- The words of the window are the timestamps modulo 64 bits. -/
lemma encodeEVM_window_mod (h : encodeEVM J r cd (.ofDefinitions defs) = .ok encoded) :
    ∃ opts, headerOpts J cd = .ok opts ∧ encodedValidFrom encoded = validFromTimestamp opts r % 2 ^ 64 ∧
      encodedObservationsTimestamp encoded =
        convertTimestamp r.observationTimestampNanoseconds opts.timeResolution := by
  have hts : ∀ res, convertTimestamp r.observationTimestampNanoseconds res < 2 ^ 64 :=
    fun res => (convertTimestamp_le _ res).trans_lt hobs
  have hunpacked : ∀ {format checkOpts}, encodeUnpacked J format checkOpts r (.ofDefinitions defs) = .ok encoded →
      ∃ opts, decodeOpts .zero J.unmarshalEVMABIEncode cd.opts = .ok opts ∧
        encodedValidFrom encoded = validFromTimestamp opts.header r % 2 ^ 64 ∧
        encodedObservationsTimestamp encoded =
          convertTimestamp r.observationTimestampNanoseconds opts.timeResolution := by
    intro format checkOpts h
    obtain ⟨_,_,_,_,_,_,_,_,_,opts,ho,_,rf,hrf,header,hh,_,_,payload,_,he⟩ := encodeUnpacked_eq_ok.1 h
    rw [OptsCache.getOpts_ofDefinitions hdef] at ho
    obtain ⟨_,_,_,_,rfl⟩ := baseReportFields_eq_ok.1 hrf
    obtain ⟨_,_,rfl⟩ := buildHeader_eq_ok.1 hh
    exact ⟨opts,ho,encoded_window (mod_lt _ (by decide)) (hts _) he⟩
  unfold encodeEVM at h
  cases hf : cd.reportFormat with
  | evmPremiumLegacy =>
    rw [hf] at h
    obtain ⟨_,_,_,_,_,opts,ho,_,_,vas,ots,ht,hfits,_,_,_,_,hb⟩ := encodeEVMPremiumLegacy_eq_ok.1 h
    rw [OptsCache.getOpts_ofDefinitions hdef] at ho
    obtain ⟨_,rfl,rfl⟩ := extractTimestamps_eq_ok.1 ht
    obtain ⟨_,_,he⟩ := buildReport_eq_ok.1 hb
    refine ⟨opts.header,by simp [headerOpts,hf,ho],?_⟩
    have hfrom : validFromTimestamp opts.header r < 2 ^ 64 := hfits.1.trans (by decide)
    rw [mod_eq_of_lt hfrom]
    exact encoded_window hfrom (hts _) ((List.append_nil _).trans he)
  | evmABIEncodeUnpacked =>
    rw [hf] at h
    obtain ⟨opts,ho,hw⟩ := hunpacked h
    exact ⟨opts.header,by simp [headerOpts,hf,ho],hw⟩
  | evmABIEncodeUnpackedExpr =>
    rw [hf] at h
    obtain ⟨opts,ho,hw⟩ := hunpacked h
    exact ⟨opts.header,by simp [headerOpts,hf,ho],hw⟩
  | _ => simp [hf,ReportFormat.hasHeader] at hformat

/-- A watermark before the observation timestamp leaves room for the next tick. -/
lemma encodeEVM_window
    (hva : r.validAfterNanoseconds < r.observationTimestampNanoseconds)
    (h : encodeEVM J r cd (.ofDefinitions defs) = .ok encoded) :
    ∃ opts, headerOpts J cd = .ok opts ∧ encodedValidFrom encoded = validFromTimestamp opts r ∧
      encodedObservationsTimestamp encoded =
        convertTimestamp r.observationTimestampNanoseconds opts.timeResolution := by
  obtain ⟨opts,hopts,hfrom,hts⟩ := encodeEVM_window_mod hformat hdef hobs h
  refine ⟨opts,hopts,?_,hts⟩
  have hclamp := clampReportRange_lt opts.maxReportRange hva
  have hle := convertTimestamp_le (clampReportRange r.validAfterNanoseconds
    r.observationTimestampNanoseconds opts.maxReportRange) opts.timeResolution
  rw [hfrom,mod_eq_of_lt]
  unfold validFromTimestamp
  omega

end DataStreams
