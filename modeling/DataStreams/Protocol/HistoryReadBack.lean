import DataStreams.Protocol.RingRefinement

/-! A stored history passes the checks of loading, so it is never taken for a corrupt one. -/
namespace DataStreams
open List Go Option

/-- A record that can be stored: its value is read back, and it is small enough. -/
structure StreamHistoryRecord.Storable (decimal : DecimalEncoder) (r : StreamHistoryRecord) : Prop where
  observedAt_lt : r.observedAtNanoseconds < 2 ^ 64
  decodable : r.value.Decodable
  size_le : ∃ size, historyRecordSize decimal r = .ok size ∧ size ≤ maxHistoryRecordBytes

variable {W : WireLibs} {decimal : DecimalEncoder} {r : StreamHistoryRecord} {pb : HistoryRecordProto}
lemma historyRecordToProto_eq_ok (h : historyRecordToProto decimal r = .ok pb) :
    ∃ value, streamValueToProto decimal r.value = .ok value ∧ pb = ⟨r.observedAtNanoseconds,some value⟩ := by
  rw [historyRecordToProto,bind_ok_iff] at h
  obtain ⟨value,hvalue,h⟩ := h
  cases h
  exact ⟨value,hvalue,rfl⟩

lemma StreamHistoryRecord.Storable.exists_proto (h : r.Storable decimal) :
    ∃ pb, historyRecordToProto decimal r = .ok pb ∧ (marshalHistoryRecord pb).length ≤ maxHistoryRecordBytes := by
  obtain ⟨size,hsize,hle⟩ := h.size_le
  rw [historyRecordSize,bind_ok_iff] at hsize
  obtain ⟨pb,hpb,hsize⟩ := hsize
  cases hsize
  exact ⟨pb,hpb,hle⟩

lemma length_value_le (v : StreamValueProto) (t : ℕ) :
    v.value.length ≤ (marshalHistoryRecord ⟨t,some v⟩).length := by
  have hvalue := length_le_protoOptionalBytes 2 v.value
  simp only [marshalHistoryRecord,elim_some,marshalStreamValue,protoBytes,length_append]
  omega

lemma unmarshal_historyRecord (hW : W.ReadsValues decimal) (h : r.Storable decimal)
    (hpb : historyRecordToProto decimal r = .ok pb) (hle : (marshalHistoryRecord pb).length ≤ maxHistoryRecordBytes) :
    unmarshalProtoStreamValue W pb.value = .ok r.value := by
  obtain ⟨value,hvalue,rfl⟩ := historyRecordToProto_eq_ok hpb
  refine unmarshalProtoStreamValue_toProto hW h.decodable hvalue ?_
  calc value.value.length ≤ _ := length_value_le value r.observedAtNanoseconds
    _ ≤ maxHistoryRecordBytes := hle
    _ < 2 ^ 64 := by decide

lemma chunkRecordsFromProto_toProto (hW : W.ReadsValues decimal) {sequence : ℕ} {records : List StreamHistoryRecord} :
    ∀ {i : ℕ} {prev : Option ℕ} {pbs : List HistoryRecordProto}, records.mapM (historyRecordToProto decimal) = .ok pbs →
      (∀ r ∈ records, r.Storable decimal) →
      records.Pairwise (fun a b => a.observedAtNanoseconds < b.observedAtNanoseconds) →
      (∀ t ∈ prev, ∀ r ∈ records, t < r.observedAtNanoseconds) →
      chunkRecordsFromProto W sequence i prev pbs = .ok records := by
  -- by induction on the records; the timestamp before the rest is that of the first
  induction records with
  | nil =>
    intro i prev pbs hpbs _ _ _
    cases hpbs
    rfl
  | cons r records ih =>
    intro i prev pbs hpbs hstorable hincreasing hprev
    rw [mapM_cons,bind_ok_iff] at hpbs
    obtain ⟨pb,hpb,hpbs⟩ := hpbs
    rw [bind_ok_iff] at hpbs
    obtain ⟨rest,hrest,hpbs⟩ := hpbs
    cases hpbs
    obtain ⟨hfirst,htail⟩ := pairwise_cons.1 hincreasing
    have hr := hstorable r mem_cons_self
    obtain ⟨pb',hpb',hle⟩ := hr.exists_proto
    cases hpb.symm.trans hpb'
    have hvalue := unmarshal_historyRecord hW hr hpb hle
    have hobserved : pb.observedAtNanoseconds = r.observedAtNanoseconds := by
      obtain ⟨value,_,rfl⟩ := historyRecordToProto_eq_ok hpb
      rfl
    have hnewer : ¬ prev.any (fun p => pb.observedAtNanoseconds ≤ p) = true := by
      rw [any_eq_true_iff_get]
      rintro ⟨hsome,hle⟩
      have hlt := hprev _ (get_mem hsome) r mem_cons_self
      rw [hobserved,decide_eq_true_eq] at hle
      omega
    have hnext := @ih (i + 1) (some r.observedAtNanoseconds) _ hrest
      (fun s hs => hstorable s (mem_cons_of_mem _ hs)) htail (by
        intro t ht s hs
        cases ht
        exact hfirst s hs)
    rw [chunkRecordsFromProto,if_neg hnewer,if_neg (not_lt.2 hle),hvalue,hobserved,hnext]
    rfl

lemma streamHistoryChunkFromProto_toProto (hW : W.ReadsValues decimal) {c : StreamHistoryChunk} {pb : HistoryChunkProto}
    (hpb : c.toProto decimal = .ok pb) (hstorable : ∀ r ∈ c.records, r.Storable decimal)
    (hincreasing : c.records.Pairwise (fun a b => a.observedAtNanoseconds < b.observedAtNanoseconds))
    (hne : c.records ≠ []) (hle : c.records.length ≤ maxHistoryChunkRecords) :
    streamHistoryChunkFromProto W pb = .ok c := by
  rw [StreamHistoryChunk.toProto,bind_ok_iff] at hpb
  obtain ⟨pbs,hpbs,hpb⟩ := hpb
  cases hpb
  have hlength : pbs.length = c.records.length := by
    have hunits := map_mapM_ok (g := fun _ => ()) (k := fun _ => ()) (fun _ _ _ => rfl) hpbs
    simpa using congrArg List.length hunits
  rw [streamHistoryChunkFromProto]
  simp only [hlength]
  rw [if_neg (fun h0 => hne (length_eq_zero_iff.1 h0)),if_neg (not_lt.2 hle),
    chunkRecordsFromProto_toProto hW hpbs hstorable hincreasing (fun _ ht => absurd ht (by simp))]
  rfl

section Headers
variable {d f : ℕ} {records : List StreamHistoryRecord}
lemma first_chunkOf {i : ℕ} (h : maxHistoryChunkRecords * i < records.length) :
    (chunkOf records i).first = (records.get ⟨maxHistoryChunkRecords * i,h⟩).observedAtNanoseconds := by
  rw [StreamHistoryChunk.first,chunkOf,Blocks.block,head?_take,if_neg (by decide),head?_drop,
    getElem?_eq_getElem h]
  rfl

lemma first_lt_first {i j : ℕ}
    (hincreasing : records.Pairwise (fun a b => a.observedAtNanoseconds < b.observedAtNanoseconds)) (hij : i < j)
    (hj : j < chunkCount records) : (chunkOf records i).first < (chunkOf records j).first := by
  have hj' := lt_chunkCount.1 hj
  have hlt : maxHistoryChunkRecords * i < maxHistoryChunkRecords * j := Nat.mul_lt_mul_of_pos_left hij chunkRecords_pos
  rw [first_chunkOf (hlt.trans hj'),first_chunkOf hj']
  exact pairwise_iff_get.1 hincreasing _ _ hlt

lemma chunkFirst_headerOf_eq_cons (h : f < chunkCount records) :
    (headerOf d records f).chunkFirst = (chunkOf records f).first :: (headerOf d records (f + 1)).chunkFirst := by
  rw [chunkFirst_headerOf,chunkFirst_headerOf,chunkIndices,Blocks.indices_eq_cons h,map_cons]

variable (hincreasing : records.Pairwise (fun a b => a.observedAtNanoseconds < b.observedAtNanoseconds))
include hincreasing

lemma checkChunks_headerOf {k : ℕ}
    {prev : Option ℕ} (hprev : ∀ t ∈ prev, ∀ i ∈ chunkIndices records f, t < (chunkOf records i).first) :
    checkChunks k prev ((headerOf d records f).counts.zip (headerOf d records f).chunkFirst) = .ok () := by
  -- by induction on the number of chunks that are left
  induction hn : chunkCount records - f generalizing f k prev with
  | zero =>
    rw [counts_headerOf_eq_nil_iff.2 (Nat.sub_eq_zero_iff_le.1 hn)]
    rfl
  | succ n ih =>
    have hf : f < chunkCount records := by omega
    have hlength := lt_chunkCount.1 hf
    have hpos : min maxHistoryChunkRecords (records.length - maxHistoryChunkRecords * f) ≠ 0 := by
      have := chunkRecords_pos
      omega
    have hsealed : ¬ ((headerOf d records (f + 1)).counts.zip (headerOf d records (f + 1)).chunkFirst ≠ [] ∧
        min maxHistoryChunkRecords (records.length - maxHistoryChunkRecords * f) ≠ maxHistoryChunkRecords) := by
      rintro ⟨hrest,hshort⟩
      have hnext : f + 1 < chunkCount records := by
        by_contra hge
        exact hrest (by rw [counts_headerOf_eq_nil_iff.2 (not_lt.1 hge)]; rfl)
      have hlt := lt_chunkCount.1 hnext
      rw [Nat.mul_succ] at hlt
      omega
    have hnewer : ¬ prev.any (fun p => (chunkOf records f).first ≤ p) = true := by
      rw [any_eq_true_iff_get]
      rintro ⟨hsome,hle⟩
      have hlt := hprev _ (get_mem hsome) f (mem_chunkIndices.2 ⟨le_rfl,hf⟩)
      exact absurd hlt (not_lt.2 (of_decide_eq_true hle))
    rw [counts_headerOf_eq_cons hf,chunkFirst_headerOf_eq_cons hf,zip_cons_cons,checkChunks,if_neg hpos,
      if_neg (not_lt.2 (min_le_left _ _)),if_neg hsealed,if_neg hnewer]
    refine ih ?_ (by omega)
    intro t ht i hi
    cases ht
    have hi' := mem_chunkIndices.1 hi
    exact first_lt_first hincreasing hi'.1 hi'.2

lemma checkNewest_headerOf
    (hf : f < chunkCount records) :
    checkNewest ((headerOf d records f).counts.getLast?.getD 0) ((headerOf d records f).chunkFirst.getLast?.getD 0)
      (headerOf d records f).last = .ok () := by
  have hne := ne_nil_of_lt_chunkCount hf
  have hlast : chunkCount records - 1 < chunkCount records := by omega
  have hcount : (headerOf d records f).counts.getLast?.getD 0 = newestCount records := by
    rw [counts_eq_append hf,getLast?_concat]
    rfl
  have hfirst : (headerOf d records f).chunkFirst.getLast?.getD 0 = (chunkOf records (chunkCount records - 1)).first := by
    rw [chunkFirst_headerOf,chunkIndices,Blocks.indices_eq_append hf,map_append,map_singleton,getLast?_concat]
    rfl
  have hend : (headerOf d records f).last = (records.getLast hne).observedAtNanoseconds := by
    rw [headerOf,getLast?_eq_getLast_of_ne_nil hne]
    rfl
  have hle : (chunkOf records (chunkCount records - 1)).first ≤ (records.getLast hne).observedAtNanoseconds ∧
      (newestCount records = 1 → (chunkOf records (chunkCount records - 1)).first =
        (records.getLast hne).observedAtNanoseconds) := by
    have hlt := lt_chunkCount.1 hlast
    rw [first_chunkOf hlt,getLast_eq_getElem]
    constructor
    · rcases Nat.lt_or_ge (maxHistoryChunkRecords * (chunkCount records - 1)) (records.length - 1) with h | h
      · exact (pairwise_iff_get.1 hincreasing ⟨_,hlt⟩ ⟨records.length - 1,by omega⟩ h).le
      · have heq : maxHistoryChunkRecords * (chunkCount records - 1) = records.length - 1 := by omega
        simp only [heq]
        exact le_rfl
    · intro hone
      have heq : maxHistoryChunkRecords * (chunkCount records - 1) = records.length - 1 := by
        rw [newestCount] at hone
        omega
      simp only [heq]
      rfl
  rw [hcount,hfirst,hend,checkNewest,if_neg (fun h => h.2 (hle.2 h.1)),if_neg (not_lt.2 hle.1)]

end Headers

lemma length_le_of_increasing {bound : ℕ} {records : List StreamHistoryRecord}
    (hincreasing : records.Pairwise (fun a b => a.observedAtNanoseconds < b.observedAtNanoseconds))
    (hlt : ∀ r ∈ records, r.observedAtNanoseconds < bound) : records.length ≤ bound := by
  have hnodup : (records.map StreamHistoryRecord.observedAtNanoseconds).Nodup :=
    (pairwise_map.2 hincreasing).imp fun h => h.ne
  have hsub : records.map StreamHistoryRecord.observedAtNanoseconds ⊆ List.range bound := by
    intro t ht
    obtain ⟨r,hr,rfl⟩ := mem_map.1 ht
    exact mem_range.2 (hlt r hr)
  simpa using (hnodup.subperm hsub).length_le

/-- The checks on reading accept every header that is written. -/
lemma streamHistoryHeaderFromProto_header (p : PairHistory) (hdepth : p.depth ≠ 0)
    (hlt : ∀ r ∈ p.records, r.observedAtNanoseconds < 2 ^ 64) :
    streamHistoryHeaderFromProto p.header = .ok p.header := by
  have hlengths : p.header.counts.length = p.header.chunkFirst.length := by
    rw [PairHistory.header,chunkFirst_headerOf,headerOf,length_map,length_map]
  have hcount : p.header.counts.length = chunkCount p.records - p.dropped := length_counts_headerOf
  have hslots : p.header.counts.length < maxHistoryChunkSlots := by
    have hfree := p.chunkCount_lt
    have hle := p.dropped_le
    omega
  have hrequired : ¬ (p.header.requiredCount : ℤ) > maxHistoryRecordsPerPair := not_lt.2 p.depth_le
  unfold streamHistoryHeaderFromProto
  rw [if_neg hrequired,if_neg (not_not.2 hlengths),if_neg (not_lt.2 hslots.le)]
  by_cases hnil : p.records = []
  · have hdropped : p.dropped = 0 := p.dropped_lt.resolve_right (by rw [hnil]; exact Nat.not_lt_zero _)
    have hheader : p.header = headerOf p.depth [] 0 := by rw [PairHistory.header,hnil,hdropped]
    have hempty : (headerOf p.depth [] 0).counts.length = 0 := rfl
    rw [hheader,if_pos hempty,if_neg (by simp [headerOf])]
  · have hf := p.dropped_lt_chunkCount hnil
    have hsequences : ¬ p.header.firstSequence > 2 ^ 64 - 1 - p.header.counts.length := by
      have hlength := length_le_of_increasing p.increasing hlt
      have hchunks : chunkCount p.records ≤ 2 ^ 58 := chunkCount_le.2 hlength
      rw [hcount,show p.header.firstSequence = p.dropped from rfl]
      omega
    have hretention : checkRetention p.header.requiredCount p.header.counts.sum (p.header.counts.head?.getD 0) = .ok () := by
      have hcovered := p.covered
      have htotal : p.header.counts.sum = p.records.length - maxHistoryChunkRecords * p.dropped := total_headerOf
      have holdest : ¬ p.records.length - maxHistoryChunkRecords * p.dropped -
          min maxHistoryChunkRecords (p.records.length - maxHistoryChunkRecords * p.dropped) ≥ p.depth := by
        simp only [maxHistoryChunkRecords] at *
        omega
      have hbound : ¬ p.records.length - maxHistoryChunkRecords * p.dropped ≥ p.depth + maxHistoryChunkRecords := by
        simp only [maxHistoryChunkRecords] at *
        omega
      rw [htotal,PairHistory.header,counts_headerOf_eq_cons hf,head?_cons,getD_some,
        show (headerOf p.depth p.records p.dropped).requiredCount = p.depth from rfl,checkRetention,if_neg holdest,
        if_neg hbound]
    have hchunks : checkChunks 0 none (p.header.counts.zip p.header.chunkFirst) = .ok () :=
      checkChunks_headerOf p.increasing (fun _ ht => by cases ht)
    have hnewest : checkNewest (p.header.counts.getLast?.getD 0) (p.header.chunkFirst.getLast?.getD 0) p.header.last =
        .ok () :=
      checkNewest_headerOf p.increasing hf
    rw [if_neg (by rw [hcount]; omega),if_neg hsequences,hchunks,hnewest,hretention]
    rfl

end DataStreams
