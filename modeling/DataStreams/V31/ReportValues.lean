import DataStreams.V31.State

/-! An expression report carries the observed streams and then one calculated stream for each
expression. -/
namespace DataStreams
open List

lemma calculatedStreamIDsOf_nonzero {abi : List CalculatedStreamABI} (h : ∀ a ∈ abi, a.expressionStreamID ≠ 0) :
    calculatedStreamIDsOf abi = (abi.map CalculatedStreamABI.expressionStreamID,false) := by
  induction abi with
  | nil => rfl
  | cons a rest ih =>
    have hrest := ih (fun b hb => h b (mem_cons_of_mem a hb))
    rw [calculatedStreamIDsOf,if_neg (h a mem_cons_self),hrest]
    rfl

def ChannelDefinition.observedStreams (cd : ChannelDefinition) : List Stream :=
  cd.streams.filter (fun s => s.aggregator ≠ .calculated)

def calculatedStreams (abi : List CalculatedStreamABI) : List Stream :=
  abi.map (fun a => ⟨a.expressionStreamID,.calculated⟩)

@[simp] lemma length_calculatedStreams (abi : List CalculatedStreamABI) : (calculatedStreams abi).length = abi.length :=
  length_map _

lemma observedStreams_append_calculated (cd : ChannelDefinition) (abi : List CalculatedStreamABI) :
    ({ cd with streams := cd.observedStreams ++ calculatedStreams abi } : ChannelDefinition).observedStreams =
      cd.observedStreams := by
  have hnone : (calculatedStreams abi).filter (fun s => s.aggregator ≠ .calculated) = [] := by
    rw [filter_eq_nil_iff]
    intro s hs
    obtain ⟨a,-,rfl⟩ := mem_map.1 hs
    simp
  rw [ChannelDefinition.observedStreams,filter_append,hnone,append_nil,
    ChannelDefinition.observedStreams,filter_filter]
  simp

section Expression
variable {J : JSON} {cache : Option OptsCache} {cd : ChannelDefinition} {id : ChannelID}
  {abi : List CalculatedStreamABI}

structure Declares (J : JSON) (cache : Option OptsCache) (cd : ChannelDefinition) (id : ChannelID)
    (abi : List CalculatedStreamABI) : Prop where
  format : cd.reportFormat = .evmABIEncodeUnpackedExpr
  decodes : getOptsOrDecode cache [] J.unmarshalCalculatedStream cd id = .ok abi
  nonempty : abi ≠ []
  nonzero : ∀ a ∈ abi, a.expressionStreamID ≠ 0

variable (h : Declares J cache cd id abi)
include h

lemma Declares.effectiveStreams_eq :
    effectiveStreams J cache cd id = .ok (cd.observedStreams ++ calculatedStreams abi) := by
  have hcalculated : cd.hasCalculatedStreams = true := decide_eq_true h.format
  have hdecode : decodeCalculatedStreamOpts J cache cd id = .ok abi := by
    rw [decodeCalculatedStreamOpts,h.decodes,Go.ok_bind,if_neg h.nonempty]
  rw [effectiveStreams,if_neg (not_not.2 hcalculated),hdecode,Go.ok_bind,calculatedStreamIDsOf_nonzero h.nonzero]
  simp only [calculatedStreams,ChannelDefinition.observedStreams,map_map,Function.comp_def]

lemma Declares.withStreams (streams : List Stream) :
    Declares J cache { cd with streams := streams } id abi :=
  ⟨h.format,h.decodes,h.nonempty,h.nonzero⟩

lemma Declares.abiPayload_map (value : Stream → Option StreamValue) :
    abiPayload .evmABIEncodeUnpackedExpr abi.length ((cd.observedStreams ++ calculatedStreams abi).map value) =
      .ok ((calculatedStreams abi).map value) := by
  have hlen : ((cd.observedStreams ++ calculatedStreams abi).map value).length =
      (cd.observedStreams.map value).length + abi.length := by
    rw [length_map,length_append,length_calculatedStreams,length_map]
  have hne : ¬(abi.length = 0 ∨ ((cd.observedStreams ++ calculatedStreams abi).map value).length < abi.length) := by
    rw [length_eq_zero_iff]
    rintro (hnil | hlt)
    · exact h.nonempty hnil
    · omega
  rw [abiPayload,if_neg hne,hlen,Nat.add_sub_cancel,map_append,drop_left]

end Expression

namespace V31
variable {L : Libs} {cache : Option OptsCache} {cd : ChannelDefinition} {id : ChannelID}
  {abi : List CalculatedStreamABI} {o : Precursor}

lemma Precursor.isSome_of_isReportable {opts : OptsCache} (hdeclares : Declares L.json (some opts) cd id abi)
    (hcd : o.channelDefinitions.get? id = some cd) {minReportInterval f : ℕ} {support : ReportFormat → ℕ}
    (h : o.isReportable L minReportInterval f support opts id = true) {s : Stream}
    (hs : s ∈ calculatedStreams abi) : (o.streamAggregates s.streamID s.aggregator).isSome = true := by
  have hbackfill : cd.isBackfill = false := by
    rw [ChannelDefinition.isBackfill,hdeclares.format]
    rfl
  have hvalues : o.hasReportableValues L cd id opts = true := by
    rw [isReportable,hcd] at h
    simp only [hbackfill,Bool.false_eq_true,if_false] at h
    split_ifs at h
    split at h
    · cases h
    · rw [Bool.and_eq_true] at h
      exact h.2
  rw [hasReportableValues,hdeclares.effectiveStreams_eq] at hvalues
  simp only [Bool.and_eq_true,all_eq_true,reportValues] at hvalues
  exact hvalues.1 _ (mem_map_of_mem (mem_append_right _ hs))

/-- Whatever inline calculated streams a definition carries, its effective streams are the
observed ones and then the declared ones, deriving them again changes nothing, and the
payload of the report is the declared ones' values. -/
theorem effectiveStreams_lineUp (hdeclares : Declares L.json cache cd id abi) :
    ∃ streams, effectiveStreams L.json cache cd id = .ok streams ∧
      effectiveStreams L.json cache { cd with streams := streams } id = .ok streams ∧
      cd.observedStreams <+: streams ∧
      streams.drop (streams.length - abi.length) = calculatedStreams abi ∧
      ∀ o : Precursor,
        abiPayload cd.reportFormat abi.length (o.reportValues streams) =
            .ok (abi.map (fun a => o.streamAggregates a.expressionStreamID .calculated)) ∧
        (o.channelDefinitions.get? id = some cd → ∀ opts, cache = some opts → ∀ minReportInterval f support,
          o.isReportable L minReportInterval f support opts id = true →
          ∀ a ∈ abi, (o.streamAggregates a.expressionStreamID .calculated).isSome = true) := by
  refine ⟨cd.observedStreams ++ calculatedStreams abi,hdeclares.effectiveStreams_eq,?_,prefix_append _ _,?_,?_⟩
  · rw [(hdeclares.withStreams _).effectiveStreams_eq,observedStreams_append_calculated]
  · rw [length_append,length_calculatedStreams,Nat.add_sub_cancel,drop_left]
  · intro o
    constructor
    · rw [hdeclares.format,Precursor.reportValues,hdeclares.abiPayload_map]
      simp only [calculatedStreams,map_map,Function.comp_def]
    · intro hcd opts hcache minReportInterval f support h a ha
      rw [hcache] at hdeclares
      exact Precursor.isSome_of_isReportable hdeclares hcd h (mem_map_of_mem ha)

/-- A definition that older code left with one inline calculated stream between its observed
ones. -/
def staleExpressionChannel : ChannelDefinition where
  reportFormat := .evmABIEncodeUnpackedExpr
  streams := [⟨1,.median⟩,⟨70,.calculated⟩,⟨2,.quote⟩]
  opts := (JSONText.exprOpts 1 [(['s','1'],70),(['s','1'],71)]).bytes
  tombstone := false
  source := 0
  disableNilStreamValues := false

def staleExpressionABI : List CalculatedStreamABI := [⟨int192,['s','1'],70⟩,⟨int192,['s','1'],71⟩]

def staleExpressionLibs : Libs := ⟨.ofExpressions [(1,[(['s','1'],70),(['s','1'],71)])],fromTable [],digest⟩

theorem effectiveStreams_lineUp_stale :
    Declares staleExpressionLibs.json none staleExpressionChannel 5 staleExpressionABI ∧
      ∃ streams, effectiveStreams staleExpressionLibs.json none staleExpressionChannel 5 = .ok streams ∧
        staleExpressionChannel.observedStreams <+: streams := by
  have hdeclares : Declares staleExpressionLibs.json none staleExpressionChannel 5 staleExpressionABI :=
    ⟨rfl,by decide +kernel,by decide,by decide⟩
  obtain ⟨streams,heffective,-,hobserved,-⟩ := effectiveStreams_lineUp hdeclares
  exact ⟨hdeclares,streams,heffective,hobserved⟩

end V31
end DataStreams
