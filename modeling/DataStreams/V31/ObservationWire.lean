import DataStreams.V31.BlobMemo
import DataStreams.V31.PayloadCodec
import DataStreams.V31.RoundTrip
import DataStreams.Protocol.StreamValueWire

/-! What a peer decodes is the observation that was sent, with the values of its blobs (v31). -/
namespace DataStreams.V31
open List Go SortedMap

/-- The value is encoded, and the receiver's own decoding takes it. -/
def peersAccept (W : WireLibs) (decimal : DecimalEncoder) (v : StreamValue) : Bool :=
  (streamValueToProto decimal v >>= fun pb => streamValueFromProtoAllowNil W (some pb)).isOk

/-- Every value that peers would reject is unset. -/
def dropUnobservable (W : WireLibs) (decimal : DecimalEncoder)
    (values : StreamValues) : StreamValues :=
  values.mapVal (fun _ v => v.filter (peersAccept W decimal))

def streamValuesToProto (decimal : DecimalEncoder) (listed : List (StreamID × Option StreamValue)) :
    Except String (SortedMap StreamID (Option StreamValueProto)) := do
  let pbs ← (listed.filterMap (fun e => e.2.map (fun v => (e.1,v)))).mapM (fun e => do
    .ok (e.1,some (← streamValueToProto decimal e.2)))
  .ok (SortedMap.ofList pbs)

def encodeBlobPayload (zstd : Bytes → Bytes) (maxBlobPayloadBytes : ℕ) (raw : Bytes) : Except String Bytes :=
  encodeFramedPayload zstd raw payloadCodecZstd maxObservationDecompressedBytes maxBlobPayloadBytes "blob payload"

def marshalStreamValues (decimal : DecimalEncoder) (zstd : Bytes → Bytes) (maxBlobPayloadBytes : ℕ)
    (listed : List (StreamID × Option StreamValue)) (cycleStartSeqNr : ℕ) : Except String (Option Bytes) := do
  let pb ← streamValuesToProto decimal listed
  if pb.size = 0 then .ok none
  else do
    let payload ← encodeBlobPayload zstd maxBlobPayloadBytes (marshalBlobPayload ⟨cycleStartSeqNr,pb⟩)
    .ok (some payload)

structure Listing (obs : Observation) where
  removals : List ChannelID
  updates : List DefinitionEntry
  formats : List ReportFormat
  removals_perm : removals.Perm obs.removeChannelIDs.keys
  updates_perm : updates.Perm obs.updateChannelDefinitions.entries
  formats_nodup : formats.Nodup
  formats_eq : formats.toFinset = obs.supportedReportFormats

def sortedFormatsToWire (formats : List ReportFormat) : List ReportFormat :=
  formats.insertionSort (fun a b => a.code ≤ b.code)

def listedMessage (obs : Observation) (listing : Listing obs) : ObservationProto where
  attestedPredecessorRetirement := obs.attestedPredecessorRetirement
  shouldRetire := obs.shouldRetire
  unixTimestampNanoseconds := obs.observationTimestampNanoseconds
  unixTimestampNanosecondsLegacy := 0
  removeChannelIDs := listing.removals.insertionSort (· ≤ ·)
  updateChannelDefinitions := (SortedMap.ofList listing.updates).mapVal (fun _ cd => some cd)
  streamValues := ∅
  supportedReportFormats := sortedFormatsToWire listing.formats
  predecessorSigners := obs.predecessorSigners
  predecessorF := obs.predecessorF

def encodeListed (obs : Observation) (listing : Listing obs) (handles : List Bytes) : Bytes :=
  frameObservation handles (marshalObservation (listedMessage obs listing))

variable {obs : Observation}
lemma listedMessage_eq (listing : Listing obs) :
    listedMessage obs listing = observationToProto obs (sortedFormatsToWire listing.formats) := by
  have hsorted : obs.removeChannelIDs.keys.Pairwise (· ≤ ·) := obs.removeChannelIDs.keys_sorted.imp le_of_lt
  have hremovals : listing.removals.insertionSort (· ≤ ·) = obs.removeChannelIDs.keys := by
    apply ((perm_insertionSort _ _).trans listing.removals_perm).eq_of_pairwise (fun a b _ _ => le_antisymm)
    · exact pairwise_insertionSort _ _
    · exact hsorted
  have hupdates : SortedMap.ofList listing.updates = obs.updateChannelDefinitions := by
    have hnodup := (listing.updates_perm.map Prod.fst).nodup_iff.2 obs.updateChannelDefinitions.keys_nodup
    rw [SortedMap.ofList_perm hnodup listing.updates_perm,SortedMap.ofList_entries]
  rw [listedMessage,observationToProto,hremovals,hupdates]

lemma codes_sortedFormatsToWire {formats formats' : List ReportFormat} (h : formats.Perm formats') :
    (sortedFormatsToWire formats).map ReportFormat.code = (sortedFormatsToWire formats').map ReportFormat.code := by
  have hsorted : ∀ l, ((sortedFormatsToWire l).map ReportFormat.code).Pairwise (· ≤ ·) := by
    intro l
    rw [pairwise_map]
    have : Std.Total (fun a b : ReportFormat => a.code ≤ b.code) := ⟨fun a b => Nat.le_total a.code b.code⟩
    have : IsTrans ReportFormat (fun a b => a.code ≤ b.code) := ⟨fun _ _ _ => Nat.le_trans⟩
    exact pairwise_insertionSort (fun a b : ReportFormat => a.code ≤ b.code) l
  have hperm : ((sortedFormatsToWire formats).map ReportFormat.code).Perm
      ((sortedFormatsToWire formats').map ReportFormat.code) :=
    ((perm_insertionSort _ _).trans (h.trans (perm_insertionSort _ _).symm)).map _
  exact hperm.eq_of_pairwise (fun a b _ _ => le_antisymm) (hsorted _) (hsorted _)

/-- The bytes of an observation do not depend on how its maps are listed. -/
lemma encodeListed_eq (listing listing' : Listing obs) (handles : List Bytes) :
    encodeListed obs listing handles = encodeListed obs listing' handles := by
  have hformats : listing.formats.Perm listing'.formats := by
    rw [perm_ext_iff_of_nodup listing.formats_nodup listing'.formats_nodup]
    intro f
    rw [← mem_toFinset,← mem_toFinset,listing.formats_eq,listing'.formats_eq]
  have hcodes : (sortedFormatsToWire listing.formats).flatMap (fun f => putUvarint f.code) =
      (sortedFormatsToWire listing'.formats).flatMap (fun f => putUvarint f.code) := by
    have hmap := congrArg (List.flatMap putUvarint) (codes_sortedFormatsToWire hformats)
    rwa [flatMap_map,flatMap_map] at hmap
  rw [encodeListed,encodeListed,listedMessage_eq,listedMessage_eq,marshalObservation,marshalObservation]
  simp only [observationToProto,hcodes]

def TimestampsFit : StreamValue → Prop
  | .timestamped t v => t < 2 ^ 64 ∧ TimestampsFit v
  | _ => True

section Values
variable {W : WireLibs} {decimal : DecimalEncoder} {values : StreamValues}
  {listed : List (StreamID × Option StreamValue)} {pb : SortedMap StreamID (Option StreamValueProto)} {id : StreamID}
  {v : StreamValue}

/-- A decoded value is the one that was encoded. -/
lemma eq_of_unmarshalNested (hW : W.ReadsValues decimal) {v : StreamValue} :
    ∀ {levels : ℕ} {b : Bytes} {v' : StreamValue}, TimestampsFit v → v.marshalBinary decimal = .ok b →
      b.length < 2 ^ 64 → unmarshalNested W levels (some ⟨v.type,b⟩) = .ok v' → v' = v := by
  induction v with
  | decimal d =>
    intro levels b v' _ hb _ h
    rw [StreamValue.type,unmarshalNested_decimal] at h
    obtain ⟨d',hd',⟨⟩⟩ := bind_ok_iff.1 h
    have hread := (unmarshalBinaryDecimal_eq_ok.1 hd').1
    rw [hW.decimal hb] at hread
    rw [Except.ok.inj hread]
  | quote q =>
    intro levels b v' _ hb hlen h
    obtain ⟨bid,benchmark,ask,hbid,hbench,hask,rfl⟩ := marshalBinary_quote hb
    rw [StreamValue.type,unmarshalNested_quote] at h
    obtain ⟨q',hq',⟨⟩⟩ := bind_ok_iff.1 h
    simp only [unmarshalBinaryQuote,hW.quote hlen,ok_bind,bind_ok_iff,unmarshalBinaryDecimal_eq_ok,
      hW.decimal hbid,hW.decimal hbench,hW.decimal hask,Except.ok.injEq] at hq'
    obtain ⟨_,⟨rfl,_⟩,_,⟨rfl,_⟩,_,⟨rfl,_⟩,rfl⟩ := hq'
    rfl
  | timestamped t v ih =>
    intro levels b v' hfit hb hlen h
    obtain ⟨sv,hsv,rfl⟩ := marshalBinary_timestamped hb
    cases levels with
    | zero =>
      rw [StreamValue.type.eq_3,unmarshalNested] at h
      simp only [hW.timestamped hfit.1 hlen,ok_bind] at h
      cases h
    | succ levels =>
      have hsvlen : sv.length < 2 ^ 64 := (length_le_marshalTimestamped t ⟨v.type,sv⟩).trans_lt hlen
      rw [StreamValue.type.eq_3,unmarshalNested_timestamped,hW.timestamped hfit.1 hlen] at h
      obtain ⟨_,⟨⟩,h⟩ := bind_ok_iff.1 h
      obtain ⟨inner,hinner,⟨⟩⟩ := bind_ok_iff.1 h
      rw [ih hfit.2 hsv hsvlen hinner]

lemma get?_dropUnobservable (id : StreamID) :
    (dropUnobservable W decimal values).get? id = some (some v) ↔
      values.get? id = some (some v) ∧ peersAccept W decimal v = true := by
  rw [dropUnobservable,get?_mapVal,Option.map_eq_some_iff]
  constructor
  · rintro ⟨w,hw,hfilter⟩
    obtain ⟨hsome,haccept⟩ := Option.filter_eq_some_iff.1 hfilter
    rw [hsome] at hw
    exact ⟨hw,haccept⟩
  · rintro ⟨hv,haccept⟩
    exact ⟨some v,hv,Option.filter_eq_some_iff.2 ⟨rfl,haccept⟩⟩

lemma exists_of_peersAccept (h : peersAccept W decimal v = true) :
    ∃ sv v', streamValueToProto decimal v = .ok sv ∧ unmarshalObservedProtoStreamValue W (some sv) = .ok v' := by
  unfold peersAccept at h
  cases hsv : streamValueToProto decimal v with
  | error e =>
    rw [hsv] at h
    cases h
  | ok sv =>
    rw [hsv,ok_bind] at h
    cases hdecode : streamValueFromProtoAllowNil W (some sv) with
    | error e =>
      rw [hdecode] at h
      cases h
    | ok w =>
      obtain ⟨v',hv',_⟩ := bind_ok_iff.1 hdecode
      exact ⟨sv,v',rfl,hv'⟩

lemma streamValueFromProtoAllowNil_of_peersAccept (hW : W.ReadsValues decimal) (hfit : TimestampsFit v)
    (h : peersAccept W decimal v = true) {sv : StreamValueProto} (hsv : streamValueToProto decimal v = .ok sv)
    (hlen : sv.value.length < 2 ^ 64) : streamValueFromProtoAllowNil W (some sv) = .ok (some v) := by
  obtain ⟨_,v',hsv',hv'⟩ := exists_of_peersAccept h
  rw [hsv] at hsv'
  cases hsv'
  have heq : v' = v := by
    obtain ⟨decoded,hdecoded,hchecked⟩ := bind_ok_iff.1 hv'
    obtain ⟨_,_,⟨⟩⟩ := bind_ok_iff.1 hchecked
    obtain ⟨b,hb,⟨⟩⟩ := bind_ok_iff.1 hsv
    exact eq_of_unmarshalNested hW hfit hb hlen hdecoded
  rw [heq] at hv'
  exact bind_ok_iff.2 ⟨v,hv',rfl⟩

lemma get?_streamValuesToProto (hperm : listed.Perm values.entries) (h : streamValuesToProto decimal listed = .ok pb)
    {w : Option StreamValueProto} : pb.get? id = some w ↔
      ∃ v sv, values.get? id = some (some v) ∧ streamValueToProto decimal v = .ok sv ∧ w = some sv := by
  obtain ⟨pbs,hpbs,⟨⟩⟩ := bind_ok_iff.1 h
  obtain ⟨hall,honly⟩ := mapM_ok hpbs
  have hset : ∀ e : StreamID × StreamValue, e ∈ listed.filterMap (fun e => e.2.map (fun v => (e.1,v))) ↔
      values.get? e.1 = some (some e.2) := by
    intro e
    rw [get?_eq_some_iff,← hperm.mem_iff,mem_filterMap]
    constructor
    · rintro ⟨⟨i,o⟩,hmem,hmap⟩
      obtain ⟨v,rfl,rfl⟩ := Option.map_eq_some_iff.1 hmap
      exact hmem
    · intro hmem
      exact ⟨(e.1,some e.2),hmem,rfl⟩
  have hkeys : pbs.map Prod.fst = (listed.filterMap (fun e => e.2.map (fun v => (e.1,v)))).map Prod.fst := by
    apply map_mapM_ok _ hpbs
    intro a b hab
    obtain ⟨_,_,⟨⟩⟩ := bind_ok_iff.1 hab
    rfl
  have hnodup : (pbs.map Prod.fst).Nodup := by
    rw [hkeys]
    have hsub : ((listed.filterMap (fun e => e.2.map (fun v => (e.1,v)))).map Prod.fst).Sublist (listed.map Prod.fst) := by
      have hfst : (listed.filterMap (fun e => e.2.map (fun v => (e.1,v)))).map Prod.fst =
          (listed.filter (fun e => e.2.isSome)).map Prod.fst := by
        rw [← filterMap_eq_filter,map_filterMap,map_filterMap]
        apply filterMap_congr
        rintro ⟨i,o⟩ _
        cases o <;> rfl
      rw [hfst]
      exact filter_sublist.map _
    exact ((hperm.map Prod.fst).nodup_iff.2 values.keys_nodup).sublist hsub
  rw [get?_ofList_eq_some_iff hnodup]
  constructor
  · intro hmem
    obtain ⟨a,ha,hab⟩ := honly (id,w) hmem
    obtain ⟨sv,hsv,heq⟩ := bind_ok_iff.1 hab
    cases heq
    exact ⟨a.2,sv,(hset a).1 ha,hsv,rfl⟩
  · rintro ⟨v,sv,hv,hsv,rfl⟩
    obtain ⟨b,hb,hab⟩ := hall (id,v) ((hset (id,v)).2 hv)
    obtain ⟨sv',hsv',heq⟩ := bind_ok_iff.1 hab
    rw [hsv] at hsv'
    cases hsv'
    cases heq
    exact hb

lemma streamValuesToProto_dropUnobservable (hperm : listed.Perm (dropUnobservable W decimal values).entries) :
    ∃ pb, streamValuesToProto decimal listed = .ok pb ∧
      streamValuesToProto decimal (dropUnobservable W decimal values).entries = .ok pb := by
  have hreturns : ∀ l : List (StreamID × Option StreamValue), l.Perm (dropUnobservable W decimal values).entries →
      ∃ pb, streamValuesToProto decimal l = .ok pb := by
    intro l hl
    have hsteps : ∀ e ∈ l.filterMap (fun e => e.2.map (fun v => (e.1,v))), ∃ r,
        (do .ok (e.1,some (← streamValueToProto decimal e.2)) : Except String (StreamID × Option StreamValueProto)) = .ok r := by
      intro e he
      obtain ⟨⟨i,o⟩,hmem,hmap⟩ := mem_filterMap.1 he
      obtain ⟨v,rfl,rfl⟩ := Option.map_eq_some_iff.1 hmap
      have hget := get?_eq_some_iff.2 (hl.mem_iff.1 hmem)
      obtain ⟨sv,_,hsv,_⟩ := exists_of_peersAccept ((get?_dropUnobservable _).1 hget).2
      exact ⟨_,bind_ok_iff.2 ⟨sv,hsv,rfl⟩⟩
    obtain ⟨pbs,hpbs⟩ := mapM_returns hsteps
    exact ⟨_,bind_ok_iff.2 ⟨pbs,hpbs,rfl⟩⟩
  obtain ⟨pb,hpb⟩ := hreturns listed hperm
  obtain ⟨pb',hpb'⟩ := hreturns _ (List.Perm.refl _)
  have heq : pb = pb' := by
    ext id w
    rw [get?_streamValuesToProto hperm hpb,get?_streamValuesToProto (List.Perm.refl _) hpb']
  exact ⟨pb,hpb,heq ▸ hpb'⟩

lemma marshalStreamValues_eq (zstd : Bytes → Bytes) (maxBlobPayloadBytes cycleStartSeqNr : ℕ)
    (hperm : listed.Perm (dropUnobservable W decimal values).entries) :
    marshalStreamValues decimal zstd maxBlobPayloadBytes listed cycleStartSeqNr =
      marshalStreamValues decimal zstd maxBlobPayloadBytes (dropUnobservable W decimal values).entries cycleStartSeqNr := by
  obtain ⟨pb,hpb,hpb'⟩ := streamValuesToProto_dropUnobservable hperm
  rw [marshalStreamValues,marshalStreamValues,hpb,hpb']

lemma unmarshalStreamValues_eq {V : Type} {f : Option StreamValueProto → Except String V} {g : StreamID → V}
    (h : ∀ id w, pb.get? id = some w → f w = .ok (g id)) :
    unmarshalStreamValues f pb = .ok (pb.mapVal (fun id _ => g id)) := by
  have hsteps : pb.entries.mapM (fun e => do .ok (e.1,← f e.2) : StreamID × Option StreamValueProto → Except String (StreamID × V)) =
      .ok (pb.entries.map (fun e => (e.1,g e.1))) := by
    have hmap := @mapM_map_ok String _ _ pb.entries _
      (fun e : StreamID × Option StreamValueProto => (do .ok (e.1,← f e.2) : Except String (StreamID × V))) id
      (fun e => (e.1,g e.1))
      (fun e he => bind_ok_iff.2 ⟨g e.1,h e.1 e.2 (get?_eq_some_iff.2 he),rfl⟩)
    rwa [map_id] at hmap
  rw [unmarshalStreamValues,hsteps,ok_bind,← entries_mapVal pb (fun id _ => g id),SortedMap.ofList_entries]

end Values

def carriedValues (W : WireLibs) (decimal : DecimalEncoder) (values : StreamValues) :
    StreamValues :=
  (dropUnobservable W decimal values).filter (fun _ v => v.isSome)

/-- The message in a blob, before it is framed. -/
def rawPayload (W : WireLibs) (decimal : DecimalEncoder) (cycleStartSeqNr : ℕ)
    (values : StreamValues) : Bytes :=
  match streamValuesToProto decimal (dropUnobservable W decimal values).entries with
  | .error _ => []
  | .ok pb => marshalBlobPayload ⟨cycleStartSeqNr,pb⟩

/-- The values a node gathered for a cycle were broadcast under a handle, and peers fetch the
blob. The protobuf library reads back its message. -/
structure Broadcast (W : WireLibs) (fetcher : BlobFetcher) (decimal : DecimalEncoder)
    (zstd : Bytes → Bytes) (maxBlobPayloadBytes cycleStartSeqNr : ℕ)
    (blob : Bytes × StreamValues) : Prop where
  timestamps : ∀ id v, blob.2.get? id = some (some v) → TimestampsFit v
  handle : W.unmarshalBlobHandle blob.1 = .ok () ∧ blob.1.length < 2 ^ 64
  fetched : ∃ payload, marshalStreamValues decimal zstd maxBlobPayloadBytes (dropUnobservable W decimal blob.2).entries
      cycleStartSeqNr = .ok (some payload) ∧ fetchBlob fetcher blob.1 = .ok payload
  message : ∀ pb, streamValuesToProto decimal (dropUnobservable W decimal blob.2).entries = .ok pb →
    W.unmarshalBlobPayload (marshalBlobPayload ⟨cycleStartSeqNr,pb⟩) = .ok ⟨cycleStartSeqNr,pb⟩

variable {W : WireLibs} {fetcher : BlobFetcher} {decimal : DecimalEncoder} {zstd : Bytes → Bytes}
  {maxBlobPayloadBytes c budget : ℕ} {blob : Bytes × StreamValues}
  {blobs : List (Bytes × StreamValues)}

lemma length_value_le {p : BlobPayloadProto} {id : StreamID} {sv : StreamValueProto}
    (h : p.streamValues.get? id = some (some sv)) : sv.value.length ≤ (marshalBlobPayload p).length := by
  have hvalue := length_le_protoOptionalBytes 2 sv.value
  have hin : (protoOptionalBytes 2 sv.value).length ≤
      (protoMapEntry 2 id (protoVarint 1 sv.type.code ++ protoOptionalBytes 2 sv.value)).length := by
    simp only [protoMapEntry,protoBytes,length_append]
    omega
  have hentry : (protoMapEntry 2 id (protoVarint 1 sv.type.code ++ protoOptionalBytes 2 sv.value)).length ≤
      (p.streamValues.entries.flatMap (fun e => protoMapEntry 2 e.1
        (e.2.elim [] (fun v => protoVarint 1 v.type.code ++ protoOptionalBytes 2 v.value)))).length := by
    rw [flatMap_def]
    apply List.Sublist.length_le
    apply sublist_flatten_of_mem
    exact mem_map.2 ⟨(id,some sv),get?_eq_some_iff.1 h,rfl⟩
  simp only [marshalBlobPayload,length_append]
  omega

lemma length_marshalBlobPayload_pos {p : BlobPayloadProto} (h : 1 ≤ p.cycleStartSeqNr) :
    0 < (marshalBlobPayload p).length := by
  have hkey : 0 < (putUvarint (8 * 1)).length := by decide
  rw [marshalBlobPayload,protoVarint,if_neg (by omega)]
  simp only [length_append]
  omega

/-- Peers decode the values a blob was broadcast with. -/
lemma Broadcast.decodeBlob (hb : Broadcast W fetcher decimal zstd maxBlobPayloadBytes c blob)
    (hvalues : W.ReadsValues decimal) (hzstd : ReadsZstd W zstd) (hc : 1 ≤ c)
    (hbudget : (rawPayload W decimal c blob.2).length ≤ budget) :
    V31.decodeBlob W fetcher budget blob.1 =
      .ok ⟨carriedValues W decimal blob.2,(rawPayload W decimal c blob.2).length,c⟩ := by
  obtain ⟨payload,hmarshal,hfetch⟩ := hb.fetched
  obtain ⟨pb,hpb,hmarshal⟩ := bind_ok_iff.1 hmarshal
  have hraw : rawPayload W decimal c blob.2 = marshalBlobPayload ⟨c,pb⟩ := by rw [rawPayload,hpb]
  split_ifs at hmarshal with hsize
  · cases hmarshal
  obtain ⟨_,hframed,⟨⟩⟩ := bind_ok_iff.1 hmarshal
  obtain ⟨hle,_,rfl⟩ := encodeFramedPayload_eq_ok.1 hframed
  rw [hraw] at hbudget ⊢
  have hpos := @length_marshalBlobPayload_pos ⟨c,pb⟩ hc
  have hdecoded := @decodeFramedPayload_shorterPayload W zstd (marshalBlobPayload ⟨c,pb⟩)
    (min budget maxObservationDecompressedBytes) "blob payload" hzstd (by omega) (by omega) (by omega)
  have hlong : (marshalBlobPayload ⟨c,pb⟩).length < 2 ^ 64 := hle.trans_lt (by decide)
  have hentries : unmarshalStreamValues (streamValueFromProtoAllowNil W) pb =
      .ok (pb.mapVal (fun id _ => ((dropUnobservable W decimal blob.2).get? id).join)) := by
    apply unmarshalStreamValues_eq
    intro id w hw
    obtain ⟨v,sv,hv,hsv,rfl⟩ := (get?_streamValuesToProto (List.Perm.refl _) hpb).1 hw
    obtain ⟨hgathered,haccept⟩ := (get?_dropUnobservable id).1 hv
    have hlen := (@length_value_le ⟨c,pb⟩ id sv hw).trans_lt hlong
    rw [streamValueFromProtoAllowNil_of_peersAccept hvalues (hb.timestamps id v hgathered) haccept hsv hlen,hv]
    rfl
  have hcarried : pb.mapVal (fun id _ => ((dropUnobservable W decimal blob.2).get? id).join) =
      carriedValues W decimal blob.2 := by
    ext id w
    rw [get?_mapVal,carriedValues,get?_filter,Option.map_eq_some_iff,Option.filter_eq_some_iff]
    constructor
    · rintro ⟨u,hu,rfl⟩
      obtain ⟨v,_,hv,_,rfl⟩ := (get?_streamValuesToProto (List.Perm.refl _) hpb).1 hu
      rw [hv]
      exact ⟨rfl,rfl⟩
    · rintro ⟨hw,hsome⟩
      obtain ⟨v,rfl⟩ := Option.isSome_iff_exists.1 hsome
      obtain ⟨sv,_,hsv,_⟩ := exists_of_peersAccept ((get?_dropUnobservable id).1 hw).2
      refine ⟨some sv,(get?_streamValuesToProto (List.Perm.refl _) hpb).2 ⟨v,sv,hw,hsv,rfl⟩,?_⟩
      rw [hw]
      rfl
  have hentry : decodeBlobEntry W (marshalBlobPayload ⟨c,pb⟩) =
      .ok ⟨carriedValues W decimal blob.2,(marshalBlobPayload ⟨c,pb⟩).length,c⟩ := by
    rw [decodeBlobEntry,hb.message pb hpb,ok_bind,if_neg (by dsimp only; omega),hentries,hcarried]
    rfl
  rw [V31.decodeBlob,hfetch]
  simp only [Go.ofExcept,ok_bind]
  rw [hdecoded,ok_bind,hentry]

def mergedValues (W : WireLibs) (decimal : DecimalEncoder)
    (blobs : List (Bytes × StreamValues)) (values : StreamValues) :
    StreamValues :=
  blobs.foldl (fun values blob => values.overlay (carriedValues W decimal blob.2)) values

/-- The blobs of an observation are merged in order. -/
lemma foldlM_mergeBlob (hvalues : W.ReadsValues decimal) (hzstd : ReadsZstd W zstd) (hc : 1 ≤ c)
    (hblobs : ∀ blob ∈ blobs, Broadcast W fetcher decimal zstd maxBlobPayloadBytes c blob) {obs : Observation}
    (hcycle : obs.cycleStartSeqNr = 0 ∨ obs.cycleStartSeqNr = c)
    (hbudget : (blobs.map (fun blob => (rawPayload W decimal c blob.2).length)).sum ≤ budget) :
    ∃ left, (blobs.map Prod.fst).foldlM (mergeBlob W fetcher) (obs,budget) = .ok
      ({ obs with
        streamValues := mergedValues W decimal blobs obs.streamValues
        cycleStartSeqNr := if blobs = [] then obs.cycleStartSeqNr else c },left) := by
  induction blobs generalizing obs budget with
  | nil => exact ⟨budget,rfl⟩
  | cons blob blobs ih =>
    rw [map_cons,sum_cons] at hbudget
    have hdecoded := (hblobs blob mem_cons_self).decodeBlob hvalues hzstd hc
      (show (rawPayload W decimal c blob.2).length ≤ budget by omega)
    have hsame : ¬ (obs.cycleStartSeqNr ≠ 0 ∧ obs.cycleStartSeqNr ≠ c) := by
      rintro ⟨hzero,hother⟩
      exact hcycle.elim hzero hother
    have hmerged : mergeBlob W fetcher (obs,budget) blob.1 = .ok
        ({ obs with
          cycleStartSeqNr := c
          streamValues := obs.streamValues.overlay (carriedValues W decimal blob.2) },
          budget - (rawPayload W decimal c blob.2).length) := by
      rw [mergeBlob_eq,hdecoded,ok_bind,mergeEntry,if_neg hsame]
    obtain ⟨left,hrest⟩ := @ih (budget - (rawPayload W decimal c blob.2).length)
      (fun b hb => hblobs b (mem_cons_of_mem _ hb))
      { obs with
        cycleStartSeqNr := c
        streamValues := obs.streamValues.overlay (carriedValues W decimal blob.2) } (.inr rfl) (by omega)
    refine ⟨left,?_⟩
    rw [map_cons,foldlM_cons,hmerged,ok_bind,hrest,if_neg (cons_ne_nil _ _)]
    simp only [ite_self]
    rfl

def lastCarried (W : WireLibs) (decimal : DecimalEncoder)
    (blobs : List (Bytes × StreamValues)) (id : StreamID) : Option StreamValue :=
  blobs.reverse.findSome? (fun blob => ((dropUnobservable W decimal blob.2).get? id).join)

lemma get?_carriedValues (values : StreamValues) (id : StreamID) :
    (carriedValues W decimal values).get? id = (((dropUnobservable W decimal values).get? id).join).map some := by
  rw [carriedValues,get?_filter]
  cases (dropUnobservable W decimal values).get? id with
  | none => rfl
  | some v => cases v <;> rfl

lemma get?_mergedValues (blobs : List (Bytes × StreamValues)) (id : StreamID) :
    (mergedValues W decimal blobs ∅).get? id = (lastCarried W decimal blobs id).map some := by
  induction blobs using List.reverseRecOn with
  | nil => rfl
  | append_singleton blobs blob ih =>
    rw [mergedValues,foldl_append,foldl_cons,foldl_nil,get?_overlay,get?_carriedValues,
      lastCarried,reverse_append,reverse_singleton,singleton_append,findSome?_cons]
    cases ((dropUnobservable W decimal blob.2).get? id).join with
    | none => exact ih
    | some v => rfl

structure Observation.WithinLimits (obs : Observation) : Prop where
  removals : obs.removeChannelIDs.size ≤ maxObservationRemoveChannelIDsLength
  updates : obs.updateChannelDefinitions.size ≤ maxObservationUpdateChannelDefinitionsLength
  formats : obs.supportedReportFormats.card ≤ maxObservationSupportedReportFormatsLength
  attested : validateAttestedPredecessorRetirement obs.attestedPredecessorRetirement = .ok ()
  predecessor : validatePredecessorConfig obs.predecessorSigners obs.predecessorF = .ok ()
  /-- It is one byte. -/
  predecessorF_lt : obs.predecessorF < 256

/-- An observation within its limits, sent with up to four blobs of one cycle that fit the
decompression budget together, is decoded as it was, with the last value its blobs carry for every
stream. The bytes do not depend on how the maps of the sender are listed. -/
theorem observation_roundTrip {W : WireLibs} {fetcher : BlobFetcher} {decimal : DecimalEncoder}
    {zstd : Bytes → Bytes} {maxBlobPayloadBytes c : ℕ} (hvalues : W.ReadsValues decimal) (hzstd : ReadsZstd W zstd)
    {obs : Observation} (hobs : obs.WithinLimits) (listing : Listing obs)
    (hmessage : W.unmarshalObservation (marshalObservation (listedMessage obs listing)) = .ok (listedMessage obs listing))
    {blobs : List (Bytes × StreamValues)} (hcount : blobs.length ≤ maxObservationBlobHandles)
    (hc : 1 ≤ c) (hblobs : ∀ blob ∈ blobs, Broadcast W fetcher decimal zstd maxBlobPayloadBytes c blob)
    (hbudget : (blobs.map (fun blob => (rawPayload W decimal c blob.2).length)).sum ≤ maxObservationDecompressedBytes) :
    (∃ received, fetchBlobsAndDecodeObservation W fetcher (encodeListed obs listing (blobs.map Prod.fst)) = .ok
        { obs with streamValues := received, cycleStartSeqNr := if blobs = [] then 0 else c } ∧
      ∀ id, received.get? id = (lastCarried W decimal blobs id).map some) ∧
    (∀ listing' handles, encodeListed obs listing handles = encodeListed obs listing' handles) ∧
    ∀ values listed, listed.Perm (dropUnobservable W decimal values).entries →
      marshalStreamValues decimal zstd maxBlobPayloadBytes listed c =
        marshalStreamValues decimal zstd maxBlobPayloadBytes (dropUnobservable W decimal values).entries c := by
  refine ⟨⟨mergedValues W decimal blobs ∅,?_,get?_mergedValues blobs⟩,fun _ _ => encodeListed_eq _ _ _,
    fun _ _ hperm => marshalStreamValues_eq _ _ _ hperm⟩
  have hformats : (sortedFormatsToWire listing.formats).toFinset = obs.supportedReportFormats := by
    rw [← listing.formats_eq]
    exact toFinset_eq_of_perm _ _ (perm_insertionSort _ _)
  have hlength : (sortedFormatsToWire listing.formats).length ≤ maxObservationSupportedReportFormatsLength := by
    rw [sortedFormatsToWire,length_insertionSort,← toFinset_card_of_nodup listing.formats_nodup,listing.formats_eq]
    exact hobs.formats
  have hfields := observationFromProto_observationToProto hobs.removals hobs.updates hlength hobs.attested hobs.predecessor
  rw [← listedMessage_eq,hformats,Nat.mod_eq_of_lt hobs.predecessorF_lt] at hfields
  have hhandles : ∀ b ∈ blobs.map Prod.fst, W.unmarshalBlobHandle b = .ok () ∧ b.length < 2 ^ 64 := by
    intro b hb
    obtain ⟨blob,hblob,rfl⟩ := mem_map.1 hb
    exact (hblobs blob hblob).handle
  have hframe := decodeFrame_frameObservation (marshalObservation (listedMessage obs listing))
    (by rwa [length_map]) hhandles
  obtain ⟨left,hmerged⟩ := @foldlM_mergeBlob W fetcher decimal zstd maxBlobPayloadBytes c
    maxObservationDecompressedBytes blobs hvalues hzstd hc hblobs
    { obs with streamValues := ∅, cycleStartSeqNr := 0 } (.inl rfl) hbudget
  rw [fetchBlobsAndDecodeObservation,encodeListed,if_neg (by simp [frameObservation]),hframe]
  simp only [ok_bind,hmessage,Go.ofExcept,hfields]
  rw [hmerged]
  rfl

def removalVote : Observation :=
  { Observation.empty with
    observationTimestampNanoseconds := 10
    removeChannelIDs := .setOf [7]
    supportedReportFormats := {.json} }

def removalListing : Listing removalVote where
  removals := [7]
  updates := []
  formats := [.json]
  removals_perm := by decide
  updates_perm := by decide
  formats_nodup := by decide
  formats_eq := by decide

def votedBlobs : List (Bytes × StreamValues) :=
  [([1],.ofList [(1,some (.decimal ⟨15,-1⟩)),(3,none)]),([2],.ofList [(1,some (.decimal ⟨2,0⟩))])]

def votedPayload (values : StreamValues) : BlobPayloadProto where
  cycleStartSeqNr := 3
  streamValues :=
    match streamValuesToProto marshalDecimal values.entries with
    | .ok pb => pb
    | .error _ => ∅

/-- Compression that gains nothing. -/
def votedWire : WireLibs :=
  { wireOf [listedMessage removalVote removalListing] (votedBlobs.map (fun blob => votedPayload blob.2)) [] with
    unmarshalDecimal := readDecimal
    unmarshalQuote := readQuote
    unmarshalTimestamped := readTimestamped
    zstdContentSize := fun b => .ok (some b.length)
    zstdDecodeAll := .ok }

def votedFetcher : BlobFetcher :=
  some (fromTable (votedBlobs.map (fun blob => (blob.1,payloadCodecRaw :: marshalBlobPayload (votedPayload blob.2)))))

lemma broadcast_votedBlobs :
    ∀ blob ∈ votedBlobs, Broadcast votedWire votedFetcher marshalDecimal id 1000 3 blob := by
  have hdecimals : ∀ blob ∈ votedBlobs, ∀ e ∈ blob.2.entries, e.2.all (fun v => v.type = .decimal) := by decide
  have hpayloads : ∀ blob ∈ votedBlobs, marshalStreamValues marshalDecimal id 1000
      (dropUnobservable votedWire marshalDecimal blob.2).entries 3 =
        .ok (some (payloadCodecRaw :: marshalBlobPayload (votedPayload blob.2))) := by decide +kernel
  have hfetched : ∀ blob ∈ votedBlobs, fetchBlob votedFetcher blob.1 =
      .ok (payloadCodecRaw :: marshalBlobPayload (votedPayload blob.2)) := by decide +kernel
  have hpb : ∀ blob ∈ votedBlobs, streamValuesToProto marshalDecimal (dropUnobservable votedWire marshalDecimal blob.2).entries =
      .ok (votedPayload blob.2).streamValues := by decide +kernel
  have hread : ∀ blob ∈ votedBlobs, votedWire.unmarshalBlobPayload (marshalBlobPayload (votedPayload blob.2)) =
      .ok (votedPayload blob.2) := by decide +kernel
  have hshort : ∀ blob ∈ votedBlobs, blob.1.length < 2 ^ 64 := by decide
  intro blob hblob
  refine ⟨?_,⟨rfl,hshort blob hblob⟩,⟨_,hpayloads blob hblob,hfetched blob hblob⟩,?_⟩
  · intro id v hv
    have htype := hdecimals blob hblob (id,some v) (get?_eq_some_iff.1 hv)
    cases v with
    | timestamped t v => cases htype
    | decimal d => trivial
    | quote q => trivial
  · intro pb h
    rw [hpb blob hblob] at h
    cases h
    exact hread blob hblob

theorem observation_roundTrip_removalVote : ∃ received, fetchBlobsAndDecodeObservation votedWire votedFetcher
        (encodeListed removalVote removalListing (votedBlobs.map Prod.fst)) = .ok
          { removalVote with streamValues := received, cycleStartSeqNr := 3 } ∧
      received.get? 1 = some (some (.decimal ⟨2,0⟩)) ∧ received.get? 3 = none := by
  obtain ⟨⟨received,hdecoded,hreceived⟩,_⟩ := observation_roundTrip (readsValues_of_readers rfl rfl rfl)
    (show ReadsZstd votedWire id from ⟨fun _ _ _ => rfl,fun _ _ _ => rfl⟩)
    (show removalVote.WithinLimits from ⟨by decide,by decide,by decide,rfl,rfl,by decide⟩) removalListing (by decide +kernel)
    (show votedBlobs.length ≤ maxObservationBlobHandles by decide) (show 1 ≤ 3 by decide) broadcast_votedBlobs
    (by decide +kernel)
  exact ⟨received,hdecoded,(hreceived 1).trans (by decide +kernel),(hreceived 3).trans (by decide +kernel)⟩

end DataStreams.V31
