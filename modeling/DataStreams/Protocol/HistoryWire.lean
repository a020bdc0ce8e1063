import DataStreams.Protocol.HistoryReadBack
import DataStreams.Protocol.WireSizes

/-! The header and the chunks of a history as protobuf messages. -/
namespace DataStreams
open List WireField

/-- The numbers of a header fit their fields. -/
structure StreamHistoryHeader.OnWire (h : StreamHistoryHeader) : Prop where
  requiredCount_lt : h.requiredCount < 2 ^ 32
  firstSequence_lt : h.firstSequence < 2 ^ 64
  counts_lt : ∀ n ∈ h.counts, n < 2 ^ 32
  chunkFirst_lt : ∀ t ∈ h.chunkFirst, t < 2 ^ 64
  last_lt : h.last < 2 ^ 64
  size_lt : (marshalHistoryHeader h).length < 2 ^ 64

/-- A record as it is written: it has a value, of one of the types of values. -/
structure HistoryRecordProto.OnWire (r : HistoryRecordProto) : Prop where
  observedAt_lt : r.observedAtNanoseconds < 2 ^ 64
  value : ∃ (v : StreamValue) (b : Bytes), r.value = some ⟨v.type,b⟩

structure HistoryChunkProto.OnWire (c : HistoryChunkProto) : Prop where
  sequence_lt : c.sequence < 2 ^ 64
  records : ∀ r ∈ c.records, r.OnWire
  size_lt : (marshalHistoryChunk c).length < 2 ^ 64

variable {h : StreamHistoryHeader}
lemma length_marshalHistoryHeader_le (hcounts : h.counts.length ≤ maxHistoryChunkSlots)
    (hfirst : h.chunkFirst.length ≤ maxHistoryChunkSlots) : (marshalHistoryHeader h).length ≤ 400 := by
  have hpack : ∀ {ns : List ℕ}, ns.length ≤ maxHistoryChunkSlots → (packUvarints ns).length ≤ 180 := by
    intro ns hns
    have hle := length_packUvarints_le ns
    have hslots : maxHistoryChunkSlots = 18 := by decide
    omega
  have hsmall : ∀ {b : Bytes}, b.length ≤ 180 → b.length < 128 ^ (1 + 1) := fun hb => hb.trans_lt (by decide)
  have h1 : (protoVarint 1 h.requiredCount).length ≤ 11 := length_protoVarint_le_eleven (by decide)
  have h2 : (protoVarint 2 h.firstSequence).length ≤ 11 := length_protoVarint_le_eleven (by decide)
  have h3 := length_protoOptionalBytes_le (show 3 < 16 by decide) (hsmall (hpack hcounts))
  have h4 := length_protoOptionalBytes_le (show 4 < 16 by decide) (hsmall (hpack hfirst))
  have h5 : (protoVarint 5 h.last).length ≤ 11 := length_protoVarint_le_eleven (by decide)
  have hc := hpack hcounts
  have hf := hpack hfirst
  simp only [marshalHistoryHeader,length_append]
  omega

variable {c : HistoryChunkProto}
lemma length_marshalHistoryChunk_le {bound : ℕ} (hbound : bound < 128 ^ (2 + 1))
    (hcount : c.records.length ≤ maxHistoryChunkRecords)
    (hsize : ∀ r ∈ c.records, (marshalHistoryRecord r).length ≤ bound) :
    (marshalHistoryChunk c).length ≤ 11 + maxHistoryChunkRecords * (bound + 4) := by
  have hsequence : (protoVarint 1 c.sequence).length ≤ 11 := length_protoVarint_le_eleven (by decide)
  have hrecord : ∀ r ∈ c.records, (protoBytes 2 (marshalHistoryRecord r)).length ≤ bound + 4 := by
    intro r hr
    have hle := length_protoBytes_le (show 2 < 16 by decide) ((hsize r hr).trans_lt hbound)
    have hr := hsize r hr
    omega
  rw [marshalHistoryChunk,length_append]
  calc _ ≤ 11 + c.records.length * (bound + 4) := Nat.add_le_add hsequence (length_flatMap_le hrecord)
    _ ≤ 11 + maxHistoryChunkRecords * (bound + 4) := Nat.add_le_add_left (Nat.mul_le_mul_right _ hcount) _

namespace PairHistory
variable {decimal : DecimalEncoder} (p : PairHistory)
lemma length_counts_le : p.header.counts.length ≤ maxHistoryChunkSlots := by
  have hcount : p.header.counts.length = chunkCount p.records - p.dropped := length_counts_headerOf
  have hlt := p.chunkCount_lt
  have hle := p.dropped_le
  omega

lemma length_chunkFirst_le : p.header.chunkFirst.length ≤ maxHistoryChunkSlots := by
  have hlength : p.header.chunkFirst.length = p.header.counts.length := by
    rw [header,chunkFirst_headerOf,headerOf,length_map,length_map]
  exact hlength.trans_le p.length_counts_le

variable {p}
variable {i : ℕ}
lemma chunk_ne_nil (hi : i ∈ p.sequences) : (p.chunk i).records ≠ [] :=
  (Blocks.block_ne_nil_iff chunkRecords_pos).2 (mem_chunkIndices.1 hi).2

lemma length_chunk_le (i : ℕ) : (p.chunk i).records.length ≤ maxHistoryChunkRecords :=
  (Blocks.length_block).trans_le (Nat.min_le_left _ _)

lemma chunk_sublist (i : ℕ) : (p.chunk i).records.Sublist p.records :=
  (take_sublist _ _).trans (drop_sublist _ _)

lemma sequence_lt (hlt : ∀ r ∈ p.records, r.observedAtNanoseconds < 2 ^ 64) (hi : i ∈ p.sequences) :
    i < 2 ^ 64 := by
  have hlength := length_le_of_increasing p.increasing hlt
  have hcount := lt_chunkCount.1 (mem_chunkIndices.1 hi).2
  simp only [maxHistoryChunkRecords] at hcount
  omega

lemma onWire_header (hlt : ∀ r ∈ p.records, r.observedAtNanoseconds < 2 ^ 64) : p.header.OnWire where
  requiredCount_lt := by
    have hdepth := p.depth_le
    simp only [maxHistoryRecordsPerPair] at hdepth
    show p.depth < 2 ^ 32
    omega
  firstSequence_lt := by
    have hlength := length_le_of_increasing p.increasing hlt
    have hdropped := p.dropped_lt
    simp only [maxHistoryChunkRecords] at hdropped
    show p.dropped < 2 ^ 64
    omega
  counts_lt n hn := by
    obtain ⟨i,_,rfl⟩ := mem_map.1 hn
    exact (length_chunk_le i).trans_lt (by decide)
  chunkFirst_lt t ht := by
    obtain ⟨i,hi,rfl⟩ := mem_map.1 (chunkFirst_headerOf ▸ ht)
    rw [first_chunkOf (lt_chunkCount.1 (mem_chunkIndices.1 hi).2)]
    exact hlt _ (get_mem _ _)
  last_lt := by
    show (p.records.getLast?.map StreamHistoryRecord.observedAtNanoseconds).getD 0 < 2 ^ 64
    cases hlast : p.records.getLast? with
    | none => decide
    | some r => exact hlt r (mem_of_getLast? hlast)
  size_lt := (length_marshalHistoryHeader_le p.length_counts_le p.length_chunkFirst_le).trans_lt (by decide)

/-- A chunk of storable records has a message, and its size is bounded. -/
lemma exists_chunk_proto (hstorable : ∀ r ∈ p.records, r.Storable decimal) (hi : i ∈ p.sequences) :
    ∃ pb, (p.chunk i).toProto decimal = .ok pb ∧ pb.OnWire ∧
      (marshalHistoryChunk pb).length ≤ 11 + maxHistoryChunkRecords * (maxHistoryRecordBytes + 4) := by
  have hmem : ∀ r ∈ (p.chunk i).records, r.Storable decimal := fun r hr => hstorable r ((chunk_sublist i).subset hr)
  obtain ⟨pbs,hpbs⟩ := mapM_returns fun r hr => (hmem r hr).exists_proto.imp fun _ h => h.1
  have hcount : pbs.length ≤ maxHistoryChunkRecords := (Go.length_mapM_ok hpbs).trans_le (length_chunk_le i)
  have hrecord : ∀ pb ∈ pbs, pb.OnWire ∧ (marshalHistoryRecord pb).length ≤ maxHistoryRecordBytes := by
    intro pb hpb
    obtain ⟨r,hr,hproto⟩ := (Go.mapM_ok hpbs).2 pb hpb
    obtain ⟨pb',hpb',hsize⟩ := (hmem r hr).exists_proto
    obtain rfl := Except.ok.inj (hpb'.symm.trans hproto)
    obtain ⟨value,hvalue,rfl⟩ := historyRecordToProto_eq_ok hproto
    rw [streamValueToProto,Go.bind_ok_iff] at hvalue
    obtain ⟨b,_,hvalue⟩ := hvalue
    exact ⟨⟨(hmem r hr).observedAt_lt,r.value,b,congrArg some (Except.ok.inj hvalue).symm⟩,hsize⟩
  have hsize : (marshalHistoryChunk ⟨i,pbs⟩).length ≤ _ :=
    length_marshalHistoryChunk_le (by decide) hcount fun pb hpb => (hrecord pb hpb).2
  refine ⟨⟨i,pbs⟩,?_,⟨?_,fun pb hpb => (hrecord pb hpb).1,hsize.trans_lt (by decide)⟩,hsize⟩
  · rw [StreamHistoryChunk.toProto,hpbs]
    rfl
  · exact sequence_lt (fun r hr => (hstorable r hr).observedAt_lt) hi

end PairHistory

def readHistoryHeaderProto (b : Bytes) : Except String StreamHistoryHeader :=
  match WireField.readAll b with
  | none => .error "malformed input"
  | some fields =>
    match unpackUvarints (WireField.bytesAt 3 fields).flatten,unpackUvarints (WireField.bytesAt 4 fields).flatten with
    | some counts,some chunkFirst =>
      .ok ⟨WireField.numberAt 1 fields,WireField.numberAt 2 fields,counts,chunkFirst,WireField.numberAt 5 fields⟩
    | _,_ => .error "malformed input"

def readHistoryRecordProto (b : Bytes) : Except String HistoryRecordProto :=
  match WireField.readAll b with
  | none => .error "malformed input"
  | some fields => .ok ⟨WireField.numberAt 1 fields,(WireField.bytesAt 2 fields).head?.bind readStreamValue⟩

def readHistoryChunkProto (b : Bytes) : Except String HistoryChunkProto :=
  match WireField.readAll b with
  | none => .error "malformed input"
  | some fields => do
    let records ← (WireField.bytesAt 2 fields).mapM readHistoryRecordProto
    .ok ⟨WireField.numberAt 1 fields,records⟩

lemma readHistoryHeaderProto_marshal (hw : h.OnWire) :
    readHistoryHeaderProto (marshalHistoryHeader h) = .ok h := by
  have hsize := hw.size_lt
  have hcounts := length_le_protoOptionalBytes 3 (packUvarints h.counts)
  have hfirst := length_le_protoOptionalBytes 4 (packUvarints h.chunkFirst)
  simp only [marshalHistoryHeader,length_append] at hsize
  have hfields : marshalHistoryHeader h = (WireField.optVarint 1 h.requiredCount ++ WireField.optVarint 2 h.firstSequence ++
      WireField.optBytes 3 (packUvarints h.counts) ++ WireField.optBytes 4 (packUvarints h.chunkFirst) ++
      WireField.optVarint 5 h.last).flatMap WireField.encode := by
    simp [marshalHistoryHeader]
  have hrange : ∀ a ∈ WireField.optVarint 1 h.requiredCount ++ WireField.optVarint 2 h.firstSequence ++
      WireField.optBytes 3 (packUvarints h.counts) ++ WireField.optBytes 4 (packUvarints h.chunkFirst) ++
      WireField.optVarint 5 h.last, a.InRange := by
    intro a ha
    simp only [mem_append,or_assoc] at ha
    rcases ha with ha | ha | ha | ha | ha
    · exact inRange_of_mem_optVarint (by decide) (hw.requiredCount_lt.trans (by decide)) ha
    · exact inRange_of_mem_optVarint (by decide) hw.firstSequence_lt ha
    · exact inRange_of_mem_optBytes (by decide) (by omega) ha
    · exact inRange_of_mem_optBytes (by decide) (by omega) ha
    · exact inRange_of_mem_optVarint (by decide) hw.last_lt ha
  have hunpackCounts := unpackUvarints_packUvarints fun n hn => (hw.counts_lt n hn).trans (by decide)
  have hunpackFirst := unpackUvarints_packUvarints hw.chunkFirst_lt
  rw [readHistoryHeaderProto,hfields,readAll_flatMap hrange]
  simp [hunpackCounts,hunpackFirst]

variable {r : HistoryRecordProto}
lemma readHistoryRecordProto_marshal (hw : r.OnWire)
    (hsize : (marshalHistoryRecord r).length < 2 ^ 64) : readHistoryRecordProto (marshalHistoryRecord r) = .ok r := by
  obtain ⟨t,value⟩ := r
  obtain ⟨v,b,hvalue⟩ := hw.value
  obtain rfl : value = some ⟨v.type,b⟩ := hvalue
  have hsame : marshalHistoryRecord ⟨t,some ⟨v.type,b⟩⟩ = marshalTimestamped t ⟨v.type,b⟩ := rfl
  obtain ⟨fields,hread,hnumber,hvalue⟩ := readAll_marshalTimestamped hw.observedAt_lt (hsame ▸ hsize)
  simp only [readHistoryRecordProto,hsame,hread,hnumber,hvalue]

lemma length_le_of_mem_records (hr : r ∈ c.records) :
    (marshalHistoryRecord r).length ≤ (marshalHistoryChunk c).length := by
  have hmem : (protoBytes 2 (marshalHistoryRecord r)).length ∈
      c.records.map (fun r => (protoBytes 2 (marshalHistoryRecord r)).length) := mem_map_of_mem hr
  have hsum := single_le_sum (fun _ _ => Nat.zero_le _) _ hmem
  rw [← length_flatMap] at hsum
  have hrecord : (marshalHistoryRecord r).length ≤ (protoBytes 2 (marshalHistoryRecord r)).length := by
    simp only [protoBytes,length_append]
    omega
  rw [marshalHistoryChunk,length_append]
  omega

lemma readHistoryChunkProto_marshal (hw : c.OnWire) : readHistoryChunkProto (marshalHistoryChunk c) = .ok c := by
  have hsize : ∀ r ∈ c.records, (marshalHistoryRecord r).length < 2 ^ 64 :=
    fun r hr => (length_le_of_mem_records hr).trans_lt hw.size_lt
  have hfields : marshalHistoryChunk c = (WireField.optVarint 1 c.sequence ++
      c.records.map (fun r => WireField.bytes 2 (marshalHistoryRecord r))).flatMap WireField.encode := by
    simp [marshalHistoryChunk,flatMap_map,protoBytes,WireField.encode]
  have hrange : ∀ a ∈ WireField.optVarint 1 c.sequence ++
      c.records.map (fun r => WireField.bytes 2 (marshalHistoryRecord r)), a.InRange := by
    intro a ha
    rcases mem_append.1 ha with ha | ha
    · exact inRange_of_mem_optVarint (by decide) hw.sequence_lt ha
    · obtain ⟨r,hr,rfl⟩ := mem_map.1 ha
      exact ⟨by decide,hsize r hr⟩
  have hrecords : (c.records.map marshalHistoryRecord).mapM readHistoryRecordProto = .ok c.records := by
    rw [mapM_map_ok fun r hr => readHistoryRecordProto_marshal (hw.records r hr) (hsize r hr),map_id']
  rw [readHistoryChunkProto,hfields,readAll_flatMap hrange]
  simp [hrecords]

end DataStreams
