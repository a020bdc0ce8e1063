import DataStreams.Protocol.PairHistory

/-! A window follows the history of its pair, and the slots it deletes and writes turn one
stored history into the next. -/
namespace DataStreams
open List SortedMap Blocks Option Nat

variable {d f : ℕ} {records : List StreamHistoryRecord} {r : StreamHistoryRecord}
lemma chunkRecords_pos : 0 < maxHistoryChunkRecords := by decide

abbrev chunkCount (records : List StreamHistoryRecord) : ℕ := Blocks.count maxHistoryChunkRecords records

abbrev chunkIndices (records : List StreamHistoryRecord) (f : ℕ) : List ℕ :=
  Blocks.indices maxHistoryChunkRecords records f

def chunkOf (records : List StreamHistoryRecord) (i : ℕ) : StreamHistoryChunk :=
  ⟨i,Blocks.block maxHistoryChunkRecords records i⟩

variable {i : ℕ}
lemma mem_chunkIndices : i ∈ chunkIndices records f ↔ f ≤ i ∧ i < chunkCount records := mem_indices

lemma chunkFirst_headerOf :
    (headerOf d records f).chunkFirst = (chunkIndices records f).map (fun i => (chunkOf records i).first) := rfl

@[simp] lemma length_counts_headerOf : (headerOf d records f).counts.length = chunkCount records - f := by
  rw [headerOf,length_map,length_indices]

@[simp] lemma total_headerOf : (headerOf d records f).total = records.length - maxHistoryChunkRecords * f :=
  sum_length_block chunkRecords_pos records f

lemma counts_headerOf_eq_nil_iff : (headerOf d records f).counts = [] ↔ chunkCount records ≤ f := by
  rw [headerOf,map_eq_nil_iff,indices_eq_nil_iff]

lemma counts_headerOf_eq_cons (h : f < chunkCount records) :
    (headerOf d records f).counts = min maxHistoryChunkRecords (records.length - maxHistoryChunkRecords * f) ::
      (headerOf d records (f + 1)).counts := by
  rw [headerOf,indices_eq_cons h,map_cons,length_block]
  rfl

lemma dropOldest_headerOf :
    { headerOf d records f with
      firstSequence := f + 1
      counts := (headerOf d records f).counts.tail
      chunkFirst := (headerOf d records f).chunkFirst.tail } = headerOf d records (f + 1) := by
  simp only [headerOf,← map_tail,tail_indices]

lemma headerOf_nil : headerOf d [] 0 = { StreamHistoryHeader.empty with requiredCount := d } := rfl

lemma lt_chunkCount : i < chunkCount records ↔ maxHistoryChunkRecords * i < records.length :=
  lt_count_iff chunkRecords_pos

lemma chunkCount_le : chunkCount records ≤ i ↔ records.length ≤ maxHistoryChunkRecords * i :=
  count_le_iff chunkRecords_pos

lemma div_chunkRecords (records : List StreamHistoryRecord) :
    (records.length % maxHistoryChunkRecords = 0 ∧ records.length / maxHistoryChunkRecords = chunkCount records) ∨
      (records.length % maxHistoryChunkRecords ≠ 0 ∧
        records.length / maxHistoryChunkRecords + 1 = chunkCount records) :=
  div_length_eq chunkRecords_pos

def newestCount (records : List StreamHistoryRecord) : ℕ :=
  records.length - maxHistoryChunkRecords * (chunkCount records - 1)

lemma newestCount_lt_iff (h : records ≠ []) :
    newestCount records < maxHistoryChunkRecords ↔ records.length % maxHistoryChunkRecords ≠ 0 := by
  have hpos := length_pos_of_ne_nil h
  have hdiv := div_chunkRecords records
  simp only [newestCount,maxHistoryChunkRecords] at *
  omega

lemma length_newest (h : records ≠ []) :
    (Blocks.block maxHistoryChunkRecords records (chunkCount records - 1)).length = newestCount records := by
  have hpos := length_pos_of_ne_nil h
  have hdiv := div_chunkRecords records
  rw [length_block,newestCount]
  simp only [maxHistoryChunkRecords] at *
  omega

lemma ne_nil_of_lt_chunkCount (h : i < chunkCount records) : records ≠ [] := by
  rintro rfl
  exact absurd (lt_chunkCount.1 h) (Nat.not_lt_zero _)

lemma counts_eq_append (h : f < chunkCount records) :
    (headerOf d records f).counts = ((List.range' f (chunkCount records - 1 - f)).map
      (fun i => (Blocks.block maxHistoryChunkRecords records i).length)) ++ [newestCount records] := by
  rw [headerOf,indices_eq_append h,map_append,map_singleton,length_newest (ne_nil_of_lt_chunkCount h)]

lemma block_append_of_lt (h : i < records.length / maxHistoryChunkRecords) :
    Blocks.block maxHistoryChunkRecords (records ++ [r]) i = Blocks.block maxHistoryChunkRecords records i :=
  block_append_of_ne chunkRecords_pos h.ne

lemma last_headerOf_append : (headerOf d (records ++ [r]) f).last = r.observedAtNanoseconds := by
  rw [headerOf,getLast?_concat]
  rfl

/-- A record past a full chunk starts a new one. -/
lemma headerOf_append_new (h : records.length % maxHistoryChunkRecords = 0) (hf : f ≤ chunkCount records) :
    headerOf d (records ++ [r]) f = { headerOf d records f with
      counts := (headerOf d records f).counts ++ [1]
      chunkFirst := (headerOf d records f).chunkFirst ++ [r.observedAtNanoseconds]
      last := r.observedAtNanoseconds } := by
  have hdiv := ((div_chunkRecords records).resolve_right fun h0 => h0.1 h).2
  have hindices : Blocks.indices maxHistoryChunkRecords (records ++ [r]) f = chunkIndices records f ++ [chunkCount records] :=
    indices_append_of_mod_eq_zero chunkRecords_pos h hf
  have hself : Blocks.block maxHistoryChunkRecords (records ++ [r]) (chunkCount records) = [r] := by
    have hpast : records.length ≤ maxHistoryChunkRecords * chunkCount records := chunkCount_le.1 le_rfl
    rw [← hdiv,block_append_self chunkRecords_pos,hdiv,Blocks.block,drop_eq_nil_of_le hpast,take_nil,nil_append]
  have hold : ∀ i ∈ chunkIndices records f, Blocks.block maxHistoryChunkRecords (records ++ [r]) i =
      Blocks.block maxHistoryChunkRecords records i :=
    fun i hi => block_append_of_lt (hdiv ▸ (mem_chunkIndices.1 hi).2)
  have hcounts : (headerOf d (records ++ [r]) f).counts = (headerOf d records f).counts ++ [1] := by
    rw [headerOf,hindices,map_append,map_singleton,hself]
    exact congrArg (· ++ [1]) (map_congr_left fun i hi => congrArg List.length (hold i hi))
  have hfirst : (headerOf d (records ++ [r]) f).chunkFirst =
      (headerOf d records f).chunkFirst ++ [r.observedAtNanoseconds] := by
    rw [chunkFirst_headerOf,chunkFirst_headerOf,chunkIndices,hindices,map_append,map_singleton,chunkOf,hself]
    refine congrArg (· ++ [r.observedAtNanoseconds]) (map_congr_left fun i hi => ?_)
    rw [chunkOf,chunkOf,hold i hi]
  exact StreamHistoryHeader.ext rfl rfl hcounts hfirst last_headerOf_append

/-- Otherwise it goes into the newest chunk. -/
lemma headerOf_append_room (h : records.length % maxHistoryChunkRecords ≠ 0) (hf : f < chunkCount records) :
    headerOf d (records ++ [r]) f = { headerOf d records f with
      counts := (headerOf d records f).counts.dropLast ++ [newestCount records + 1]
      last := r.observedAtNanoseconds } := by
  have hdiv := ((div_chunkRecords records).resolve_left fun h0 => h h0.1).2
  have hindices : Blocks.indices maxHistoryChunkRecords (records ++ [r]) f = chunkIndices records f :=
    indices_append_of_mod_ne_zero chunkRecords_pos h
  have hnewest : chunkCount records - 1 = records.length / maxHistoryChunkRecords := by omega
  have hself : Blocks.block maxHistoryChunkRecords (records ++ [r]) (chunkCount records - 1) =
      Blocks.block maxHistoryChunkRecords records (chunkCount records - 1) ++ [r] := by
    rw [hnewest]
    exact block_append_self chunkRecords_pos
  have hold : ∀ i ∈ List.range' f (chunkCount records - 1 - f), Blocks.block maxHistoryChunkRecords (records ++ [r]) i =
      Blocks.block maxHistoryChunkRecords records i := by
    intro i hi
    rw [mem_range'_1] at hi
    exact block_append_of_lt (by omega)
  have hcounts : (headerOf d (records ++ [r]) f).counts =
      (headerOf d records f).counts.dropLast ++ [newestCount records + 1] := by
    rw [counts_eq_append hf,dropLast_concat,headerOf,hindices,chunkIndices,indices_eq_append hf,
      map_append,map_singleton,hself,length_append,length_newest (ne_nil_of_lt_chunkCount hf)]
    exact congrArg (· ++ [newestCount records + 1]) (map_congr_left fun i hi => congrArg List.length (hold i hi))
  have hfirst : (headerOf d (records ++ [r]) f).chunkFirst = (headerOf d records f).chunkFirst := by
    rw [chunkFirst_headerOf,chunkFirst_headerOf,chunkIndices,hindices]
    refine map_congr_left fun i hi => ?_
    rw [mem_chunkIndices] at hi
    rw [chunkOf,chunkOf]
    by_cases hin : i = chunkCount records - 1
    · -- its first record is the old one, because it had one
      obtain ⟨a,rest,hcons⟩ := exists_cons_of_ne_nil ((block_ne_nil_iff chunkRecords_pos).2 hi.2)
      rw [hin] at hcons ⊢
      rw [hself,hcons]
      rfl
    · rw [block_append_of_lt (by omega)]
  exact StreamHistoryHeader.ext rfl rfl hcounts hfirst last_headerOf_append

lemma oldest_needed_iff (hd : d ≠ 0) (hf : f < chunkCount records) :
    (headerOf d records f).total - min maxHistoryChunkRecords (records.length - maxHistoryChunkRecords * f) < d ↔
      redundantChunks records.length d ≤ f := by
  rw [lt_count_iff chunkRecords_pos] at hf
  rw [total_headerOf]
  simp only [redundantChunks,maxHistoryChunkRecords] at *
  omega

/-- What the reads of a pair's keys return. -/
structure PairStore where
  header : Except HistoryError (Option StreamHistoryHeader)
  slot : ℕ → Except HistoryError (Option StreamHistoryChunk)

def PairStore.apply (σ : PairStore) (set : RingWriteSet) : PairStore where
  header := set.header.elim σ.header (fun h => .ok (some h))
  slot s :=
    if s ∈ set.deletedSlots then .ok none
    else if set.chunk.map StreamHistoryChunk.slot = some s then .ok set.chunk
    else σ.slot s

def PairStore.remove (σ : PairStore) (slots : List ℕ) : PairStore where
  header := .ok none
  slot s := if s ∈ slots then .ok none else σ.slot s

lemma PairStore.slot_apply (σ : PairStore) (set : RingWriteSet) (s : ℕ) : (σ.apply set).slot s =
    if s ∈ set.deletedSlots then .ok none
    else if set.chunk.map StreamHistoryChunk.slot = some s then .ok set.chunk
    else σ.slot s := rfl

lemma PairStore.slot_remove (σ : PairStore) (slots : List ℕ) (s : ℕ) :
    (σ.remove slots).slot s = if s ∈ slots then .ok none else σ.slot s := rfl

/-- The stored keys are the header and the retained chunks of a history, each in its slot.
A history of depth zero has none. -/
structure PairStore.Represents (σ : PairStore) (p : PairHistory) : Prop where
  header : σ.header = .ok (if p.depth = 0 then none else some p.header)
  chunk : ∀ i ∈ p.sequences, σ.slot (historyChunkSlot i) = .ok (some (p.chunk i))
  rest : ∀ s, (∀ i ∈ p.sequences, historyChunkSlot i ≠ s) → σ.slot s = .ok none

namespace RingWindow
structure At (w : RingWindow) (σ : PairStore) (d : ℕ) (records : List StreamHistoryRecord) (f : ℕ) : Prop where
  header : w.header = headerOf d records f
  first_le : f ≤ chunkCount records
  chunks : ∀ i c, w.chunks.get? i = some c → i ∈ chunkIndices records f ∧ c = chunkOf records i
  /-- The chunk to be written is the newest one, and loaded. -/
  dirty : w.dirtyChunk = none ∨ f < chunkCount records ∧
    w.dirtyChunk = some (chunkOf records (chunkCount records - 1)) ∧
    w.chunks.get? (chunkCount records - 1) = w.dirtyChunk
  /-- Chunks that are not written are stored already and stay. -/
  kept : ∀ i ∈ chunkIndices records f, (∀ c, w.dirtyChunk = some c → c.sequence ≠ i) →
    σ.slot (historyChunkSlot i) = .ok (some (chunkOf records i)) ∧ historyChunkSlot i ∉ w.deleted
  /-- Every other slot that holds something is deleted. -/
  rest : ∀ s, (∀ i ∈ chunkIndices records f, historyChunkSlot i ≠ s) → σ.slot s ≠ .ok none → s ∈ w.deleted

def FitsRing (records : List StreamHistoryRecord) (f : ℕ) : Prop := chunkCount records ≤ f + maxHistoryChunkSlots

lemma slot_inj {records : List StreamHistoryRecord} {f i j : ℕ} (h : FitsRing records f)
    (hi : i ∈ chunkIndices records f) (hj : j ∈ chunkIndices records f)
    (heq : historyChunkSlot i = historyChunkSlot j) : i = j := by
  rw [mem_chunkIndices] at hi hj
  unfold FitsRing at h
  exact eq_of_mod_eq le_rfl (f := f) ⟨hi.1,by omega⟩ ⟨hj.1,by omega⟩ heq

variable {w : RingWindow} {σ : PairStore}
lemma At.dropOldest (h : w.At σ d records f) (hf : f < chunkCount records) (hfits : FitsRing records f)
    (hdirty : w.dirtyChunk = none ∨ f + 1 < chunkCount records) : w.dropOldest.At σ d records (f + 1) := by
  have hfirst : w.header.firstSequence = f := by rw [h.header]; rfl
  have hmem : ∀ {i}, i ∈ chunkIndices records (f + 1) → i ∈ chunkIndices records f ∧ i ≠ f := by
    intro i hi
    rw [mem_chunkIndices] at hi ⊢
    omega
  have hoff : f ∈ chunkIndices records f := mem_chunkIndices.2 ⟨le_rfl,hf⟩
  refine ⟨?_,hf,?_,?_,?_,?_⟩
  · rw [RingWindow.dropOldest,← dropOldest_headerOf,hfirst,h.header]
  · intro i c hc
    rw [RingWindow.dropOldest,hfirst,get?_erase] at hc
    split_ifs at hc with hif
    obtain ⟨hi,rfl⟩ := h.chunks i c hc
    rw [mem_chunkIndices] at hi ⊢
    exact ⟨by omega,rfl⟩
  · rcases h.dirty with hnone | ⟨hlt,hsome⟩
    · exact .inl hnone
    · refine hdirty.imp id fun hlt' => ⟨hlt',hsome.1,?_⟩
      rw [RingWindow.dropOldest,hfirst,get?_erase,if_neg (by omega)]
      exact hsome.2
  · intro i hi hne
    obtain ⟨hi',hif⟩ := hmem hi
    obtain ⟨hstored,hstays⟩ := h.kept i hi' hne
    refine ⟨hstored,?_⟩
    rw [RingWindow.dropOldest,hfirst,mem_append,mem_singleton,not_or]
    exact ⟨hstays,fun heq => hif (slot_inj hfits hi' hoff heq)⟩
  · intro s hs hheld
    rw [RingWindow.dropOldest,hfirst,mem_append,mem_singleton]
    by_cases hsf : historyChunkSlot f = s
    · exact .inr hsf.symm
    · refine .inl (h.rest s ?_ hheld)
      intro i hi
      by_cases hif : i = f
      · rw [hif]
        exact hsf
      · refine hs i ?_
        rw [mem_chunkIndices] at hi ⊢
        omega

lemma FitsRing.mono {f' : ℕ} (h : FitsRing records f) (hle : f ≤ f') : FitsRing records f' := by
  unfold FitsRing at *
  omega

/-- Eviction drops the chunks that the required depth can do without. -/
lemma At.evictFrom (h : w.At σ d records f) (hd : d ≠ 0) (hf : f < chunkCount records)
    (hfits : FitsRing records f) {fuel : ℕ} (hfuel : chunkCount records ≤ f + fuel) :
    (w.evictFrom fuel).At σ d records (max f (redundantChunks records.length d)) := by
  -- each pass drops one chunk, and the newest one is always needed
  have hnewest : redundantChunks records.length d < chunkCount records := by
    have hcount : 0 < records.length := by
      rw [lt_count_iff chunkRecords_pos] at hf
      omega
    rw [lt_count_iff chunkRecords_pos]
    simp only [redundantChunks,maxHistoryChunkRecords]
    omega
  induction fuel generalizing w f with
  | zero => omega
  | succ fuel ih =>
    have hrequired : (headerOf d records f).requiredCount = d := rfl
    rw [RingWindow.evictFrom,h.header,counts_headerOf_eq_cons hf,hrequired]
    dsimp only
    by_cases hneeded : redundantChunks records.length d ≤ f
    · rw [if_pos ((oldest_needed_iff hd hf).2 hneeded),max_eq_left hneeded]
      exact h
    · rw [if_neg fun hlt => hneeded ((oldest_needed_iff hd hf).1 hlt)]
      have hdrop := h.dropOldest hf hfits (.inr (by omega))
      have hnext := ih hdrop (by omega) (hfits.mono (le_succ f)) (by omega)
      rw [max_eq_right (by omega : f + 1 ≤ redundantChunks records.length d)] at hnext
      rwa [max_eq_right (by omega : f ≤ redundantChunks records.length d)]

lemma At.clear (h : w.At σ d records f) (hf : chunkCount records ≤ f) (hdirty : w.dirtyChunk = none) :
    w.clear.At σ d [] 0 := by
  have hnone : ∀ i, i ∉ chunkIndices records f := by
    intro i hi
    rw [mem_chunkIndices] at hi
    omega
  have hnil : ∀ i, i ∉ chunkIndices [] 0 := fun i hi => absurd (mem_chunkIndices.1 hi).2 (Nat.not_lt_zero i)
  refine ⟨?_,Nat.zero_le _,?_,.inl hdirty,?_,?_⟩
  · rw [RingWindow.clear,h.header,headerOf_nil]
    rfl
  · exact fun i c hc => absurd (h.chunks i c hc).1 (hnone i)
  · exact fun i hi => absurd hi (hnil i)
  · exact fun s _ hheld => h.rest s (fun i hi => absurd hi (hnone i)) hheld

/-- Without a required depth it drops them all. -/
lemma At.evictFrom_zero (h : w.At σ 0 records f) (hfits : FitsRing records f) (hdirty : w.dirtyChunk = none)
    {fuel : ℕ} (hfuel : chunkCount records ≤ f + fuel) : (w.evictFrom fuel).At σ 0 [] 0 := by
  induction fuel generalizing w f with
  | zero =>
    have hcounts : w.header.counts = [] := by
      rw [h.header,counts_headerOf_eq_nil_iff]
      exact hfuel
    rw [RingWindow.evictFrom,if_pos hcounts]
    exact h.clear hfuel hdirty
  | succ fuel ih =>
    by_cases hf : f < chunkCount records
    · rw [RingWindow.evictFrom,h.header,counts_headerOf_eq_cons hf]
      dsimp only
      rw [show (headerOf 0 records f).requiredCount = 0 from rfl,if_neg (Nat.not_lt_zero _)]
      exact ih (h.dropOldest hf hfits (.inl hdirty)) (hfits.mono (le_succ f)) hdirty (by omega)
    · have hcounts : w.header.counts = [] := by
        rw [h.header,counts_headerOf_eq_nil_iff]
        omega
      rw [RingWindow.evictFrom,hcounts]
      exact h.clear (by omega) hdirty

lemma At.evict_nil (h : w.At σ d [] 0) (hdirty : w.dirtyChunk = none) : w.evict.At σ d [] 0 := by
  have hcounts : w.header.counts = [] := by
    rw [h.header]
    rfl
  rw [RingWindow.evict,hcounts,length_nil,RingWindow.evictFrom,if_pos hcounts]
  exact h.clear (Nat.zero_le _) hdirty

lemma At.fuel (h : w.At σ d records f) : chunkCount records ≤ f + w.header.counts.length := by
  rw [h.header,length_counts_headerOf]
  omega

lemma evictFrom_frame (fuel : ℕ) (w : RingWindow) :
    (w.evictFrom fuel).dirtyChunk = w.dirtyChunk ∧ (w.evictFrom fuel).stored = w.stored ∧
      (w.headerDirty = true → (w.evictFrom fuel).headerDirty = true) ∧ w.deleted ⊆ (w.evictFrom fuel).deleted := by
  induction fuel generalizing w with
  | zero =>
    rw [evictFrom]
    split_ifs
    · exact ⟨rfl,rfl,id,List.Subset.refl _⟩
    · exact ⟨rfl,rfl,id,List.Subset.refl _⟩
  | succ fuel ih =>
    rw [evictFrom]
    split
    · exact ⟨rfl,rfl,id,List.Subset.refl _⟩
    · split_ifs
      · exact ⟨rfl,rfl,id,List.Subset.refl _⟩
      · obtain ⟨hdirty,hstored,hheader,hdeleted⟩ := ih w.dropOldest
        exact ⟨hdirty,hstored,fun _ => hheader rfl,List.Subset.trans (subset_append_left _ _) hdeleted⟩

end RingWindow

namespace PairHistory
variable (p : PairHistory)
lemma dropped_le : p.dropped ≤ chunkCount p.records := by
  rcases p.dropped_lt with h | h
  · rw [h]
    exact Nat.zero_le _
  · exact (lt_chunkCount.2 h).le

lemma dropped_lt_chunkCount (h : p.records ≠ []) : p.dropped < chunkCount p.records := by
  rw [lt_chunkCount]
  rcases p.dropped_lt with h0 | h0
  · rw [h0]
    exact length_pos_of_ne_nil h
  · exact h0

lemma chunkCount_lt : chunkCount p.records < p.dropped + maxHistoryChunkSlots := by
  have hcovered := p.covered
  have hdepth := p.depth_le
  have hle : chunkCount p.records ≤ p.dropped + 17 := by
    rw [chunkCount_le]
    simp only [maxHistoryChunkRecords,maxHistoryRecordsPerPair] at *
    omega
  exact Nat.lt_of_le_of_lt hle (Nat.add_lt_add_left (by decide) _)

lemma fitsRing : RingWindow.FitsRing p.records p.dropped := p.chunkCount_lt.le

lemma eq_none (h : p.depth = 0) : p = none := by
  have hrecords := p.records_eq_nil h
  refine ext h hrecords ?_
  have hdropped := p.dropped_lt
  rw [hrecords] at hdropped
  exact hdropped.resolve_right (Nat.not_lt_zero _)

lemma setDepth_self (hd : (p.depth : ℤ) ≤ maxHistoryRecordsPerPair) : p.setDepth p.depth hd = p := by
  by_cases h0 : p.depth = 0
  · rw [setDepth,dif_pos h0]
    exact (p.eq_none h0).symm
  · rw [setDepth,dif_neg h0]
    refine ext rfl rfl (max_eq_left ?_)
    have hcovered := p.covered
    simp only [redundantChunks,maxHistoryChunkRecords] at *
    omega

end PairHistory

namespace RingWindow
/-- The window is the working copy of a history. A window that is not marked as changed has
nothing to write. -/
structure Tracks (w : RingWindow) (σ : PairStore) (p : PairHistory) : Prop where
  isAt : w.At σ p.depth p.records p.dropped
  clean : w.headerDirty = false →
    σ.header = .ok (if p.depth = 0 then none else some p.header) ∧ w.dirtyChunk = none ∧ w.deleted = []

variable {w : RingWindow} {σ : PairStore} {p : PairHistory}
lemma tracks_newRingWindow (h : σ.Represents p) :
    (newRingWindow (if p.depth = 0 then none else some p.header)).Tracks σ p := by
  have hheader : (newRingWindow (if p.depth = 0 then none else some p.header)).header = p.header := by
    split_ifs with h0
    · rw [p.eq_none h0]
      rfl
    · rfl
  refine ⟨⟨hheader,p.dropped_le,?_,.inl rfl,?_,?_⟩,?_⟩
  · exact fun i c hc => absurd hc (by simp [newRingWindow])
  · exact fun i hi _ => ⟨h.chunk i hi,not_mem_nil⟩
  · exact fun s hs hheld => absurd (h.rest s hs) hheld
  · exact fun _ => ⟨h.header,rfl,rfl⟩

/-- Setting the depth of a window sets that of the history. -/
lemma Tracks.setRequiredCount (h : w.Tracks σ p) (hdirty : w.dirtyChunk = none)
    (hd : (d : ℤ) ≤ maxHistoryRecordsPerPair) :
    ∃ w', w.setRequiredCount d = .ok w' ∧ w'.Tracks σ (p.setDepth d hd) ∧ w'.dirtyChunk = none ∧
      w'.stored = w.stored := by
  have hrequired : w.header.requiredCount = p.depth := by rw [h.isAt.header]; rfl
  unfold RingWindow.setRequiredCount
  rw [if_neg (not_lt.2 hd),hrequired]
  by_cases heq : p.depth = d
  · subst heq
    rw [if_pos rfl,p.setDepth_self]
    exact ⟨w,rfl,h,hdirty,rfl⟩
  · rw [if_neg heq]
    -- the window at the same chunk with the new depth, before eviction
    let w₁ : RingWindow := { w with header := { w.header with requiredCount := d }, headerDirty := true }
    have hat : w₁.At σ d p.records p.dropped :=
      ⟨by rw [show w₁.header = { w.header with requiredCount := d } from rfl,h.isAt.header]; rfl,
        h.isAt.first_le,h.isAt.chunks,h.isAt.dirty,h.isAt.kept,h.isAt.rest⟩
    obtain ⟨hdirty',hstored',hheader',_⟩ := evictFrom_frame w₁.header.counts.length w₁
    refine ⟨_,rfl,⟨?_,?_⟩,hdirty'.trans hdirty,hstored'⟩
    · by_cases h0 : d = 0
      · subst h0
        rw [PairHistory.setDepth,dif_pos rfl]
        exact hat.evictFrom_zero p.fitsRing hdirty hat.fuel
      · rw [PairHistory.setDepth,dif_neg h0]
        by_cases hrec : p.records = []
        · have hdropped : p.dropped = 0 := p.dropped_lt.resolve_right (by rw [hrec]; exact Nat.not_lt_zero _)
          rw [hrec,hdropped] at hat
          simp only [hrec,hdropped]
          rw [show max 0 (redundantChunks ([] : List StreamHistoryRecord).length d) = 0 by simp [redundantChunks]]
          exact hat.evict_nil hdirty
        · exact hat.evictFrom h0 (p.dropped_lt_chunkCount hrec) p.fitsRing hat.fuel
    · exact fun hclean => absurd ((hheader' rfl).symm.trans hclean) (by decide)

lemma chunkOf_append_self :
    chunkOf (records ++ [r]) (records.length / maxHistoryChunkRecords) =
      ⟨records.length / maxHistoryChunkRecords,
        (chunkOf records (records.length / maxHistoryChunkRecords)).records ++ [r]⟩ := by
  rw [chunkOf,block_append_self chunkRecords_pos]
  rfl

lemma chunkOf_append_of_ne
    (h : i ≠ records.length / maxHistoryChunkRecords) : chunkOf (records ++ [r]) i = chunkOf records i := by
  rw [chunkOf,block_append_of_ne chunkRecords_pos h]
  rfl

variable {header : StreamHistoryHeader}
lemma At.pushed (h : w.At σ d records f)
    (hdirty : w.dirtyChunk = none) (hf : f ≤ records.length / maxHistoryChunkRecords)
    (hheader : header = headerOf d (records ++ [r]) f) :
    { w with
      header := header
      chunks := w.chunks.insert (records.length / maxHistoryChunkRecords)
        (chunkOf (records ++ [r]) (records.length / maxHistoryChunkRecords))
      headerDirty := true
      dirtyChunk := some (chunkOf (records ++ [r]) (records.length / maxHistoryChunkRecords))
      stored := true }.At σ d (records ++ [r]) f := by
  have hcount : chunkCount (records ++ [r]) = records.length / maxHistoryChunkRecords + 1 :=
    count_append_singleton chunkRecords_pos
  have hdiv := div_chunkRecords records
  have hmem : ∀ i, i ≠ records.length / maxHistoryChunkRecords →
      (i ∈ chunkIndices (records ++ [r]) f ↔ i ∈ chunkIndices records f) := by
    intro i hi
    rw [mem_chunkIndices,mem_chunkIndices,hcount]
    omega
  have hself : records.length / maxHistoryChunkRecords ∈ chunkIndices (records ++ [r]) f := by
    rw [mem_chunkIndices,hcount]
    omega
  refine ⟨hheader,by omega,?_,.inr ⟨by omega,by rw [hcount]; rfl,?_⟩,?_,?_⟩
  · intro i c hc
    rw [get?_insert] at hc
    split_ifs at hc with hi
    · cases hc
      rw [hi]
      exact ⟨hself,rfl⟩
    · obtain ⟨hi',rfl⟩ := h.chunks i c hc
      exact ⟨(hmem i hi).2 hi',(chunkOf_append_of_ne hi).symm⟩
  · rw [hcount]
    exact get?_insert_self _ _ _
  · intro i hi hne
    have hi' : i ≠ records.length / maxHistoryChunkRecords := (hne _ rfl).symm
    rw [chunkOf_append_of_ne hi']
    exact h.kept i ((hmem i hi').1 hi) fun c hc => absurd (hdirty.symm.trans hc) (by simp)
  · intro s hs hheld
    refine h.rest s (fun i hi => ?_) hheld
    by_cases hi' : i = records.length / maxHistoryChunkRecords
    · rw [hi']
      exact hs _ hself
    · exact hs i ((hmem i hi').2 hi)

lemma Tracks.pushed (h : w.Tracks σ p) (hdirty : w.dirtyChunk = none)
    (hdepth : p.depth ≠ 0) (hnewer : p.Accepts r) (hheader : header = headerOf p.depth (p.records ++ [r]) p.dropped) :
    (evict { w with
      header := header
      chunks := w.chunks.insert (p.records.length / maxHistoryChunkRecords)
        (chunkOf (p.records ++ [r]) (p.records.length / maxHistoryChunkRecords))
      headerDirty := true
      dirtyChunk := some (chunkOf (p.records ++ [r]) (p.records.length / maxHistoryChunkRecords))
      stored := true }).Tracks σ (p.push r) := by
  have hf : p.dropped ≤ p.records.length / maxHistoryChunkRecords := by
    have hdropped := p.dropped_lt
    simp only [maxHistoryChunkRecords] at *
    omega
  have hat := h.isAt.pushed hdirty hf hheader
  have hcount : chunkCount (p.records ++ [r]) = p.records.length / maxHistoryChunkRecords + 1 :=
    count_append_singleton chunkRecords_pos
  have hfits : FitsRing (p.records ++ [r]) p.dropped := by
    have hlt := p.chunkCount_lt
    have hdiv := div_chunkRecords p.records
    unfold FitsRing
    omega
  have hevicted := hat.evictFrom hdepth (by omega) hfits hat.fuel
  rw [PairHistory.push,dif_pos ⟨hdepth,hnewer⟩]
  refine ⟨?_,?_⟩
  · rw [length_append,length_singleton] at hevicted
    exact hevicted
  · intro hclean
    exact absurd (((evictFrom_frame _ _).2.2.1 rfl).symm.trans hclean) (by decide)

lemma Tracks.counts_eq_nil_iff (h : w.Tracks σ p) : w.header.counts = [] ↔ p.records = [] := by
  rw [h.isAt.header,counts_headerOf_eq_nil_iff]
  constructor
  · intro hle
    by_contra hne
    exact absurd (p.dropped_lt_chunkCount hne) (not_lt.2 hle)
  · intro hnil
    rw [hnil]
    exact Nat.zero_le _

lemma Tracks.accepts_iff (h : w.Tracks σ p) :
    ¬ (w.header.counts ≠ [] ∧ r.observedAtNanoseconds ≤ w.header.last) ↔ p.Accepts r := by
  have hlast : w.header.last = p.last := by rw [h.isAt.header]; rfl
  rw [hlast,Ne,h.counts_eq_nil_iff,PairHistory.Accepts,not_and_or,not_not,not_le]

lemma Tracks.pushNew (h : w.Tracks σ p) (hdirty : w.dirtyChunk = none) (hdepth : p.depth ≠ 0) (hnewer : p.Accepts r)
    (hfull : p.records.length % maxHistoryChunkRecords = 0) :
    ∃ w', w.pushNew r = .ok w' ∧ w'.Tracks σ (p.push r) := by
  have hdiv := ((div_chunkRecords p.records).resolve_right fun h0 => h0.1 hfull).2
  have hfree : ¬ w.header.counts.length ≥ maxHistoryChunkSlots := by
    have hlt := p.chunkCount_lt
    have hle := p.dropped_le
    rw [h.isAt.header,length_counts_headerOf]
    omega
  have hsequence : w.header.firstSequence + w.header.counts.length = p.records.length / maxHistoryChunkRecords := by
    have hle := p.dropped_le
    rw [h.isAt.header,length_counts_headerOf,hdiv,show (headerOf p.depth p.records p.dropped).firstSequence = p.dropped from rfl]
    omega
  have hnothing : (chunkOf p.records (p.records.length / maxHistoryChunkRecords)).records = [] := by
    by_contra hne
    have hlt := (block_ne_nil_iff chunkRecords_pos).1 hne
    exact absurd hdiv hlt.ne
  have htail : (⟨w.header.firstSequence + w.header.counts.length,[] ++ [r]⟩ : StreamHistoryChunk) =
      chunkOf (p.records ++ [r]) (p.records.length / maxHistoryChunkRecords) := by
    rw [chunkOf_append_self,hnothing,hsequence]
  refine ⟨_,if_neg hfree,?_⟩
  rw [RingWindow.push,htail,hsequence]
  refine h.pushed hdirty hdepth hnewer ?_
  rw [headerOf_append_new hfull p.dropped_le,h.isAt.header]

lemma Tracks.pushNewest {tail : StreamHistoryChunk} (h : w.Tracks σ p) (hdirty : w.dirtyChunk = none)
    (hdepth : p.depth ≠ 0) (hnewer : p.Accepts r) (hroom : p.records.length % maxHistoryChunkRecords ≠ 0)
    (htail : w.chunks.get? (w.header.firstSequence + (w.header.counts.length - 1)) = some tail) :
    (w.push (w.header.counts.dropLast ++ [newestCount p.records + 1]) w.header.chunkFirst
      (w.header.firstSequence + (w.header.counts.length - 1)) tail.records r).Tracks σ (p.push r) := by
  have hne : p.records ≠ [] := by
    rintro hnil
    rw [hnil] at hroom
    exact hroom rfl
  have hlt := p.dropped_lt_chunkCount hne
  have hdiv := ((div_chunkRecords p.records).resolve_left fun h0 => hroom h0.1).2
  have hsequence : w.header.firstSequence + (w.header.counts.length - 1) =
      p.records.length / maxHistoryChunkRecords := by
    rw [h.isAt.header,length_counts_headerOf,show (headerOf p.depth p.records p.dropped).firstSequence = p.dropped from rfl]
    omega
  rw [hsequence] at htail ⊢
  have hchunk : (⟨p.records.length / maxHistoryChunkRecords,tail.records ++ [r]⟩ : StreamHistoryChunk) =
      chunkOf (p.records ++ [r]) (p.records.length / maxHistoryChunkRecords) := by
    rw [chunkOf_append_self,← (h.isAt.chunks _ _ htail).2]
  rw [RingWindow.push,hchunk]
  refine h.pushed hdirty hdepth hnewer ?_
  rw [headerOf_append_room hroom hlt,h.isAt.header]

/-- Placing a record in a window pushes it on the history. -/
lemma Tracks.place (h : w.Tracks σ p) (hdirty : w.dirtyChunk = none) (hloaded : ∀ i ∈ w.appendPlan, w.loaded i = true)
    (hdepth : p.depth ≠ 0) (hnewer : p.Accepts r) : ∃ w', w.place r = .ok w' ∧ w'.Tracks σ (p.push r) := by
  unfold RingWindow.place
  by_cases hnil : p.records = []
  · rw [h.counts_eq_nil_iff.2 hnil]
    exact h.pushNew hdirty hdepth hnewer (by rw [hnil]; rfl)
  have hgetLast : w.header.counts.getLast? = some (newestCount p.records) := by
    rw [h.isAt.header,counts_eq_append (p.dropped_lt_chunkCount hnil),getLast?_concat]
  rw [hgetLast]
  dsimp only
  by_cases hroom : p.records.length % maxHistoryChunkRecords = 0
  · rw [if_neg fun hlt => (newestCount_lt_iff hnil).1 hlt hroom]
    exact h.pushNew hdirty hdepth hnewer hroom
  · have hlt := (newestCount_lt_iff hnil).2 hroom
    have hplan : w.header.firstSequence + (w.header.counts.length - 1) ∈ w.appendPlan := by
      have hrequired : w.header.requiredCount = p.depth := by rw [h.isAt.header]; rfl
      rw [RingWindow.appendPlan,hrequired,if_neg hdepth,hgetLast]
      dsimp only
      rw [if_neg (not_le.2 hlt)]
      exact mem_singleton_self _
    obtain ⟨tail,htail⟩ := isSome_iff_exists.1 (hloaded _ hplan)
    rw [if_pos hlt,htail]
    exact ⟨_,rfl,h.pushNewest hdirty hdepth hnewer hroom htail⟩

variable {decimal : DecimalEncoder} {size : ℕ}
lemma Tracks.append (h : w.Tracks σ p)
    (hstored : w.stored = false) (hdirty : w.dirtyChunk = none) (hloaded : ∀ i ∈ w.appendPlan, w.loaded i = true)
    (hsize : historyRecordSize decimal r = .ok size) (hsmall : size ≤ maxHistoryRecordBytes) :
    ∃ w', w.append decimal r = .ok (decide (p.depth ≠ 0 ∧ p.Accepts r),w') ∧ w'.Tracks σ (p.push r) := by
  have hrequired : w.header.requiredCount = p.depth := by rw [h.isAt.header]; rfl
  unfold RingWindow.append
  rw [hstored,if_neg (by decide),hrequired]
  by_cases hkeeps : p.depth ≠ 0 ∧ p.Accepts r
  · obtain ⟨w',hplace,htracks⟩ := h.place hdirty hloaded hkeeps.1 hkeeps.2
    rw [if_neg hkeeps.1,if_neg (h.accepts_iff.2 hkeeps.2),hsize]
    dsimp only
    rw [if_neg (not_lt.2 hsmall),hplace,decide_eq_true hkeeps]
    exact ⟨w',rfl,htracks⟩
  · refine ⟨w,?_,by rwa [PairHistory.push,dif_neg hkeeps]⟩
    rw [decide_eq_false hkeeps]
    by_cases hdepth : p.depth = 0
    · rw [if_pos hdepth]
    · rw [if_neg hdepth,if_pos (not_not.1 fun hnot => hkeeps ⟨hdepth,h.accepts_iff.1 hnot⟩)]

lemma Tracks.append_tooLarge (h : w.Tracks σ p)
    (hstored : w.stored = false) (hsize : historyRecordSize decimal r = .ok size)
    (hlarge : maxHistoryRecordBytes < size) :
    w.append decimal r = if p.depth ≠ 0 ∧ p.Accepts r then .error (.tooLarge size) else .ok (false,w) := by
  have hrequired : w.header.requiredCount = p.depth := by rw [h.isAt.header]; rfl
  unfold RingWindow.append
  rw [hstored,if_neg (by decide),hrequired]
  by_cases hdepth : p.depth = 0
  · rw [if_pos hdepth,if_neg fun hp => hp.1 hdepth]
  by_cases hnewer : p.Accepts r
  · rw [if_neg hdepth,if_neg (h.accepts_iff.2 hnewer),hsize,if_pos (⟨hdepth,hnewer⟩ : p.depth ≠ 0 ∧ p.Accepts r)]
    dsimp only
    rw [if_pos hlarge]
  · rw [if_neg hdepth,if_pos (not_not.1 fun hnot => hnewer (h.accepts_iff.1 hnot)),if_neg fun hp => hnewer hp.2]

def LoadedFrom (w w' : RingWindow) : Prop := ∃ chunks, w' = { w with chunks := chunks }

lemma LoadedFrom.refl (w : RingWindow) : w.LoadedFrom w := ⟨w.chunks,rfl⟩

lemma LoadedFrom.trans {w w' w'' : RingWindow} (h : w.LoadedFrom w') (h' : w'.LoadedFrom w'') : w.LoadedFrom w'' := by
  obtain ⟨chunks,rfl⟩ := h
  obtain ⟨chunks',rfl⟩ := h'
  exact ⟨chunks',rfl⟩

lemma loadedFrom_insert (w : RingWindow) (i : ℕ) (c : StreamHistoryChunk) :
    w.LoadedFrom { w with chunks := w.chunks.insert i c } :=
  ⟨_,rfl⟩

lemma Tracks.mem_sequences_of_appendPlan (h : w.Tracks σ p) (hi : i ∈ w.appendPlan) : i ∈ p.sequences := by
  unfold RingWindow.appendPlan at hi
  split_ifs at hi
  · exact absurd hi not_mem_nil
  cases hlast : w.header.counts.getLast? with
  | none => exact absurd (hlast ▸ hi) not_mem_nil
  | some count =>
    have hne : w.header.counts ≠ [] := ne_nil_of_mem (mem_of_getLast? hlast)
    simp only [hlast] at hi
    split_ifs at hi
    · exact absurd hi not_mem_nil
    have hlt : p.dropped < chunkCount p.records := by
      rw [h.isAt.header,Ne,counts_headerOf_eq_nil_iff,not_le] at hne
      exact hne
    rw [mem_singleton.1 hi,h.isAt.header,length_counts_headerOf]
    refine mem_chunkIndices.2 ⟨Nat.le_add_right _ _,?_⟩
    show p.dropped + _ < _
    omega

lemma Tracks.slot_of_not_loaded (h : w.Tracks σ p) (hi : i ∈ p.sequences) (hnot : w.loaded i = false) :
    σ.slot (historyChunkSlot i) = .ok (some (p.chunk i)) := by
  refine (h.isAt.kept i hi ?_).1
  rintro c hc rfl
  rcases h.isAt.dirty with hnone | ⟨_,hsome,hget⟩
  · exact absurd (hnone.symm.trans hc) (by simp)
  · have hsequence : c.sequence = chunkCount p.records - 1 := by
      rw [hc,some_inj] at hsome
      rw [hsome]
      rfl
    rw [RingWindow.loaded,hsequence,hget,hc] at hnot
    cases hnot

lemma index_headerOf (hi : i ∈ chunkIndices records f) :
    (headerOf d records f).index i = some (i - f) ∧
      (headerOf d records f).counts.getD (i - f) 0 = (chunkOf records i).records.length ∧
      (headerOf d records f).chunkFirst.getD (i - f) 0 = (chunkOf records i).first := by
  rw [mem_chunkIndices] at hi
  have hfirst : (headerOf d records f).firstSequence = f := rfl
  have hget : (chunkIndices records f)[i - f]? = some i := by
    rw [Blocks.getElem?_indices (show f + (i - f) < chunkCount records by omega),Nat.add_sub_cancel' hi.1]
  refine ⟨?_,?_,?_⟩
  · rw [StreamHistoryHeader.index,hfirst,length_counts_headerOf,if_neg (by omega),if_neg (by omega)]
  · rw [headerOf,getD_eq_getElem?_getD,getElem?_map,hget]
    rfl
  · rw [chunkFirst_headerOf,getD_eq_getElem?_getD,getElem?_map,hget]
    rfl

lemma getLast?_newest (h : records ≠ []) :
    (chunkOf records (chunkCount records - 1)).records.getLast? = records.getLast? := by
  have hpos := length_pos_of_ne_nil h
  have hdiv := div_chunkRecords records
  rw [chunkOf,Blocks.block,take_of_length_le,getLast?_drop,if_neg]
  · simp only [maxHistoryChunkRecords] at *
    omega
  · rw [length_drop]
    simp only [maxHistoryChunkRecords] at *
    omega

lemma Tracks.provide (h : w.Tracks σ p) (hi : i ∈ p.sequences) :
    w.provide (p.chunk i) = .ok { w with chunks := w.chunks.insert i (p.chunk i) } := by
  obtain ⟨hindex,hcount,hfirst⟩ := index_headerOf (d := p.depth) hi
  obtain ⟨hlo,hhi⟩ := mem_chunkIndices.1 hi
  have hne : (p.chunk i).records ≠ [] := (block_ne_nil_iff chunkRecords_pos).2 hhi
  have hlast : i - p.dropped + 1 = (headerOf p.depth p.records p.dropped).counts.length →
      ((p.chunk i).records.getLast hne).observedAtNanoseconds = (headerOf p.depth p.records p.dropped).last := by
    intro hnewest
    rw [length_counts_headerOf] at hnewest
    have hi' : i = chunkCount p.records - 1 := by omega
    have hgetLast : (p.chunk i).records.getLast? = p.records.getLast? := by
      rw [hi']
      exact getLast?_newest (ne_nil_of_lt_chunkCount hhi)
    rw [headerOf,← hgetLast,getLast?_eq_getLast_of_ne_nil hne]
    rfl
  have hhead : (p.chunk i).records.head? = some ((p.chunk i).records.head hne) := head?_eq_some_head hne
  have hstart : ((p.chunk i).records.head hne).observedAtNanoseconds =
      (headerOf p.depth p.records p.dropped).chunkFirst.getD (i - p.dropped) 0 := by
    rw [hfirst,StreamHistoryChunk.first,show (chunkOf p.records i).records = (p.chunk i).records from rfl,hhead]
    rfl
  unfold RingWindow.provide
  rw [h.isAt.header,show (p.chunk i).sequence = i from rfl,hindex]
  dsimp only
  rw [if_neg (fun hcontra => hcontra hcount.symm),hhead,getLast?_eq_getLast_of_ne_nil hne]
  dsimp only
  rw [if_neg (fun hcontra => hcontra hstart),if_neg (fun hcontra => hcontra.2 (hlast hcontra.1))]

lemma Tracks.loadChunk (h : w.Tracks σ p) (hi : i ∈ p.sequences) (hnot : w.loaded i = false) :
    { w with chunks := w.chunks.insert i (p.chunk i) }.Tracks σ p := by
  refine ⟨⟨h.isAt.header,h.isAt.first_le,?_,?_,h.isAt.kept,h.isAt.rest⟩,h.clean⟩
  · intro j c hc
    rw [get?_insert] at hc
    split_ifs at hc with hj
    · cases hc
      rw [hj]
      exact ⟨hi,rfl⟩
    · exact h.isAt.chunks j c hc
  · refine h.isAt.dirty.imp id fun ⟨hlt,hsome,hget⟩ => ⟨hlt,hsome,?_⟩
    have hne : chunkCount p.records - 1 ≠ i := by
      rintro rfl
      rw [RingWindow.loaded,hget,hsome] at hnot
      cases hnot
    rw [get?_insert_of_ne _ _ hne]
    exact hget

lemma drop_counts_headerOf {k : ℕ} :
    (headerOf d records f).counts.drop k = (headerOf d records (f + k)).counts := by
  rw [headerOf,headerOf,← map_drop,Blocks.indices,Blocks.indices,drop_range',Nat.mul_one,Nat.sub_sub]

variable {n : ℕ}
lemma chunksCovering_spec {counts : List ℕ} {acc : ℕ} (h : n ≤ acc + counts.sum) :
    chunksCovering counts acc n ≤ counts.length ∧ n ≤ acc + (counts.take (chunksCovering counts acc n)).sum := by
  induction counts generalizing acc with
  | nil => exact ⟨le_rfl,h⟩
  | cons count older ih =>
    rw [chunksCovering]
    split_ifs with hcovers
    · exact ⟨by simp,by simpa using hcovers⟩
    · rw [sum_cons,← Nat.add_assoc] at h
      obtain ⟨hle,hsum⟩ := ih h
      exact ⟨by simpa using hle,by rw [take_succ_cons,sum_cons,← Nat.add_assoc]; exact hsum⟩

/-- A read is refused for too few records or plans chunks that hold enough. -/
lemma Tracks.readPlan (h : w.Tracks σ p) (hn : 0 < n) :
    (p.retained < n ∧ w.readPlan n = .error (.insufficient p.retained n)) ∨
      ∃ g, p.dropped ≤ g ∧ w.readPlan n = .ok (chunkIndices p.records g) ∧
        n ≤ p.records.length - maxHistoryChunkRecords * g := by
  have htotal : w.header.total = p.retained := by rw [h.isAt.header,total_headerOf]; rfl
  unfold RingWindow.readPlan
  rw [if_neg hn.ne',htotal]
  by_cases hshort : p.retained < n
  · exact .inl ⟨hshort,if_pos hshort⟩
  · rw [if_neg hshort]
    have hsum : n ≤ 0 + w.header.counts.reverse.sum := by
      rw [Nat.zero_add,sum_reverse]
      exact (not_lt.1 hshort).trans htotal.ge
    obtain ⟨hle,htake⟩ := chunksCovering_spec hsum
    set taken := chunksCovering w.header.counts.reverse 0 n with htaken
    rw [length_reverse,h.isAt.header,length_counts_headerOf] at hle
    refine .inr ⟨p.dropped + (chunkCount p.records - p.dropped - taken),Nat.le_add_right _ _,?_,?_⟩
    · have hdropped := p.dropped_le
      rw [h.isAt.header,length_counts_headerOf,chunkIndices,Blocks.indices]
      refine congrArg Except.ok ?_
      rw [show (headerOf p.depth p.records p.dropped).firstSequence = p.dropped from rfl]
      congr 1
      show taken = chunkCount p.records - _
      omega
    · rw [Nat.zero_add,take_reverse,sum_reverse,h.isAt.header,length_counts_headerOf,drop_counts_headerOf] at htake
      exact htake.trans (total_headerOf (d := p.depth)).le

variable {sequences : List ℕ}
lemma foldlM_joinChunk {acc : List StreamHistoryRecord}
    (hchunks : ∀ i ∈ sequences, ∃ c, w.chunks.get? i = some c ∧ c.records = (p.chunk i).records ∧ c.records ≠ [])
    (hincreasing : (acc ++ sequences.flatMap (fun i => (p.chunk i).records)).Pairwise
      (fun a b => a.observedAtNanoseconds < b.observedAtNanoseconds)) :
    sequences.foldlM w.joinChunk acc = .ok (acc ++ sequences.flatMap (fun i => (p.chunk i).records)) := by
  induction sequences generalizing acc with
  | nil => rw [flatMap_nil,append_nil]; rfl
  | cons i sequences ih =>
    obtain ⟨c,hget,hrecords,hne⟩ := hchunks i mem_cons_self
    rw [flatMap_cons,← append_assoc] at hincreasing ⊢
    have hjoin : w.joinChunk acc i = .ok (acc ++ (p.chunk i).records) := by
      have hhead : c.records.head? = some (c.records.head hne) := head?_eq_some_head hne
      unfold RingWindow.joinChunk
      rw [hget]
      dsimp only
      rw [hhead,← hrecords]
      cases hlast : acc.getLast? with
      | none => rfl
      | some prev =>
        have hlt : prev.observedAtNanoseconds < (c.records.head hne).observedAtNanoseconds := by
          have hsplit := (pairwise_append.1 (pairwise_append.1 hincreasing).1).2.2
          refine hsplit prev (mem_of_getLast? hlast) _ ?_
          rw [← hrecords]
          exact head_mem hne
        dsimp only
        rw [if_neg (not_le.2 hlt)]
    rw [foldlM_cons,hjoin]
    exact ih (fun j hj => hchunks j (mem_cons_of_mem _ hj)) hincreasing

/-- With the planned chunks loaded, a window reads the newest records of the history. -/
lemma Tracks.newest (h : w.Tracks σ p) (hplan : w.readPlan n = .ok sequences)
    (hloaded : ∀ i ∈ sequences, w.loaded i = true) : w.newest n = .ok (p.newest n) := by
  unfold RingWindow.newest
  rw [hplan]
  simp only [Go.ok_bind]
  rcases Nat.eq_zero_or_pos n with rfl | hn
  · rw [if_pos rfl,PairHistory.newest,Nat.sub_zero,drop_length]
  rw [if_neg hn.ne']
  rcases h.readPlan hn with ⟨_,herror⟩ | ⟨g,hg,hok,henough⟩
  · exact absurd (hplan.symm.trans herror) nofun
  rw [hok] at hplan
  cases hplan
  have hjoined : (chunkIndices p.records g).flatMap (fun i => (p.chunk i).records) =
      p.records.drop (maxHistoryChunkRecords * g) :=
    flatMap_block chunkRecords_pos p.records g
  have hfold : (chunkIndices p.records g).foldlM w.joinChunk [] = .ok (p.records.drop (maxHistoryChunkRecords * g)) := by
    rw [foldlM_joinChunk (p := p),nil_append,hjoined]
    · intro i hi
      obtain ⟨c,hc⟩ := isSome_iff_exists.1 (hloaded i hi)
      obtain ⟨hi',rfl⟩ := h.isAt.chunks i c hc
      exact ⟨_,hc,rfl,(block_ne_nil_iff chunkRecords_pos).2 (mem_chunkIndices.1 hi').2⟩
    · rw [nil_append,hjoined]
      exact p.increasing.sublist (drop_sublist _ _)
  rw [hfold]
  simp only [Go.ok_bind]
  rw [length_drop,if_neg (not_lt.2 henough),drop_drop,PairHistory.newest]
  refine congrArg (fun k => Except.ok (p.records.drop k)) ?_
  omega

lemma mem_deletedSlots {s : ℕ} :
    s ∈ w.writeSet.deletedSlots ↔ s ∈ w.deleted ∧ w.dirtyChunk.map StreamHistoryChunk.slot ≠ some s := by
  simp [writeSet]

/-- The slots a window writes and keeps are those of its chunks. -/
lemma Tracks.represents_apply (h : w.Tracks σ p) (hdepth : p.depth ≠ 0) : (σ.apply w.writeSet).Represents p := by
  have hdirty : ∀ c, w.dirtyChunk = some c → c.sequence ∈ p.sequences ∧ c = p.chunk c.sequence := by
    intro c hc
    rcases h.isAt.dirty with hnone | ⟨hlt,hsome,_⟩
    · exact absurd (hnone.symm.trans hc) (by simp)
    · rw [hc,some_inj] at hsome
      rw [hsome]
      refine ⟨mem_chunkIndices.2 ⟨?_,?_⟩,rfl⟩
      · exact le_sub_one_of_lt hlt
      · exact sub_lt (zero_lt_of_lt hlt) Nat.one_pos
  refine ⟨?_,?_,?_⟩
  · rw [if_neg hdepth,PairStore.apply,writeSet]
    by_cases hheader : w.headerDirty = true
    · rw [if_pos hheader,elim_some,h.isAt.header]
      rfl
    · rw [if_neg hheader,elim_none,(h.clean (Bool.eq_false_iff.2 hheader)).1,if_neg hdepth]
  · intro i hi
    by_cases hwritten : w.dirtyChunk = some (p.chunk i)
    · have hslot : w.dirtyChunk.map StreamHistoryChunk.slot = some (historyChunkSlot i) := by
        rw [hwritten]
        rfl
      rw [PairStore.slot_apply,if_neg fun hdel => (mem_deletedSlots.1 hdel).2 hslot,
        show w.writeSet.chunk = w.dirtyChunk from rfl,if_pos hslot,hwritten]
    · obtain ⟨hstored,hstays⟩ := h.isAt.kept i hi fun c hc hci => hwritten (by
        rw [hc,(hdirty c hc).2,hci])
      have hother : w.dirtyChunk.map StreamHistoryChunk.slot ≠ some (historyChunkSlot i) := by
        intro heq
        obtain ⟨c,hc,hslot⟩ := map_eq_some_iff.1 heq
        obtain ⟨hmem,hchunk⟩ := hdirty c hc
        rw [slot_inj p.fitsRing hmem hi hslot] at hchunk
        exact hwritten (hchunk ▸ hc)
      rw [PairStore.slot_apply,if_neg fun hdel => hstays (mem_deletedSlots.1 hdel).1,
        show w.writeSet.chunk = w.dirtyChunk from rfl,if_neg hother,hstored]
      rfl
  · intro s hs
    have hother : w.dirtyChunk.map StreamHistoryChunk.slot ≠ some s := by
      intro heq
      obtain ⟨c,hc,hslot⟩ := map_eq_some_iff.1 heq
      exact hs _ (hdirty c hc).1 hslot
    rw [PairStore.slot_apply,show w.writeSet.chunk = w.dirtyChunk from rfl,if_neg hother]
    by_cases hheld : σ.slot s = .ok none
    · rw [hheld,ite_self]
    · rw [if_pos (mem_deletedSlots.2 ⟨h.isAt.rest s hs hheld,hother⟩)]

/-- A window that was torn down deletes whatever is stored. -/
lemma Tracks.represents_remove (h : w.Tracks σ .none) : (σ.remove w.writeSet.deletedSlots).Represents .none := by
  have hnil : ∀ i, i ∉ PairHistory.none.sequences := fun i hi => absurd (mem_chunkIndices.1 hi).2 (Nat.not_lt_zero i)
  have hdirty : w.dirtyChunk = none := h.isAt.dirty.resolve_right fun hlt => absurd hlt.1 (Nat.not_lt_zero _)
  refine ⟨rfl,fun i hi => absurd hi (hnil i),?_⟩
  intro s hs
  by_cases hheld : σ.slot s = .ok none
  · rw [PairStore.slot_remove,hheld,ite_self]
  · rw [PairStore.slot_remove,if_pos (mem_deletedSlots.2 ⟨h.isAt.rest s hs hheld,by rw [hdirty]; simp⟩)]

end RingWindow
end DataStreams
