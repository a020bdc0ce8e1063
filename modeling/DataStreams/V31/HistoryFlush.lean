import DataStreams.Protocol.HistoryWire
import DataStreams.V31.History

/-! A flush changes the keys of a pair by its own window only. -/
namespace DataStreams.V31
open List Go Function SortedMap

structure HistoryLibs.ReadsBack (L : HistoryLibs) : Prop where
  values : L.wire.ReadsValues L.marshalDecimal
  zstd : ReadsZstd L.wire L.zstd
  header : ∀ {h : StreamHistoryHeader}, h.OnWire → L.unmarshalHeader (marshalHistoryHeader h) = .ok h
  chunk : ∀ {c : HistoryChunkProto}, c.OnWire → L.unmarshalChunk (marshalHistoryChunk c) = .ok c

variable {L : HistoryLibs}
lemma readRecord_encodeKVRecord {α : Type} (hz : ReadsZstd L.wire L.zstd) {decode : Bytes → Except HistoryError α}
    {raw b : Bytes} {what : String} {a : α} (hb : encodeKVRecord L.zstd raw what = .ok b) (hdecode : decode raw = .ok a) :
    readRecord L decode what (some b) = .ok (some a) := by
  have hne : b ≠ [] := by
    obtain ⟨_,_,rfl⟩ := encodeKVRecord_eq_ok.1 hb
    exact shorterPayload_ne_nil
  rw [readRecord,readKey,Option.getD_some,if_neg hne,decodeKVRecord_encodeKVRecord hz hb,asCorrupt,ok_bind,hdecode]
  rfl

variable {p : PairHistory}
lemma exists_header_bytes (hL : L.ReadsBack) (hdepth : p.depth ≠ 0)
    (hlt : ∀ r ∈ p.records, r.observedAtNanoseconds < 2 ^ 64) : ∃ b, encodeHistoryHeader L p.header = .ok b ∧
      readRecord L (unmarshalStreamHistoryHeader L) "history header" (some b) = .ok (some p.header) := by
  have hsize := length_marshalHistoryHeader_le p.length_counts_le p.length_chunkFirst_le
  obtain ⟨b,hb⟩ := encodeKVRecord_returns (hsize.trans_lt (by decide))
  refine ⟨b,hb,readRecord_encodeKVRecord hL.zstd hb ?_⟩
  rw [unmarshalStreamHistoryHeader,hL.header (PairHistory.onWire_header hlt)]
  exact streamHistoryHeaderFromProto_header p hdepth hlt

lemma exists_chunk_bytes (hL : L.ReadsBack) (hstorable : ∀ r ∈ p.records, r.Storable L.marshalDecimal)
    {i : ℕ} (hi : i ∈ p.sequences) : ∃ b, encodeHistoryChunk L (p.chunk i) = .ok b ∧
      readRecord L (unmarshalStreamHistoryChunk L) "history chunk" (some b) = .ok (some (p.chunk i)) := by
  obtain ⟨pb,hpb,hwire,hsize⟩ := PairHistory.exists_chunk_proto hstorable hi
  obtain ⟨b,hb⟩ := encodeKVRecord_returns (hsize.trans_lt (by decide))
  refine ⟨b,by rw [encodeHistoryChunk,hpb,ok_bind,hb],readRecord_encodeKVRecord hL.zstd hb ?_⟩
  rw [unmarshalStreamHistoryChunk,hL.chunk hwire]
  exact streamHistoryChunkFromProto_toProto hL.values hpb
    (fun r hr => hstorable r ((PairHistory.chunk_sublist i).subset hr)) (p.increasing.sublist (PairHistory.chunk_sublist i))
    (PairHistory.chunk_ne_nil hi) (PairHistory.length_chunk_le i)

/-- Two states hold the same keys of a pair. -/
def HistoryKV.AgreeAt (kv kv' : HistoryKV) (k : HistKey) : Prop := kv'.header k = kv.header k ∧ kv'.chunk k = kv.chunk k

/-- Two states hold the same index and layout. -/
def HistoryKV.SameIndex (kv kv' : HistoryKV) : Prop := kv'.index = kv.index ∧ kv'.version = kv.version

/-- `new` holds the keys of a pair after a write set, and `old` those before. -/
structure Wrote (L : HistoryLibs) (old new : HistoryKV) (k : HistKey) (set : RingWriteSet) : Prop where
  header_kept : set.header = none → new.header k = old.header k
  header : ∀ h ∈ set.header, ∃ b, encodeHistoryHeader L h = .ok b ∧ new.header k = some b
  deleted : ∀ s ∈ set.deletedSlots, new.chunk k s = none
  chunk : ∀ c ∈ set.chunk, c.slot ∉ set.deletedSlots → ∃ b, encodeHistoryChunk L c = .ok b ∧ new.chunk k c.slot = some b
  kept : ∀ s, s ∉ set.deletedSlots → set.chunk.map StreamHistoryChunk.slot ≠ some s → new.chunk k s = old.chunk k s

structure Encodable (L : HistoryLibs) (set : RingWriteSet) : Prop where
  header : ∀ h ∈ set.header, ∃ b, encodeHistoryHeader L h = .ok b
  chunk : ∀ c ∈ set.chunk, ∃ b, encodeHistoryChunk L c = .ok b

namespace HistoryKV
lemma AgreeAt.refl (kv : HistoryKV) (k : HistKey) : kv.AgreeAt kv k := ⟨rfl,rfl⟩

variable {a b c : HistoryKV} {k : HistKey}
lemma AgreeAt.trans (h : a.AgreeAt b k) (h' : b.AgreeAt c k) : a.AgreeAt c k :=
  ⟨h'.1.trans h.1,h'.2.trans h.2⟩

lemma AgreeAt.symm (h : a.AgreeAt b k) : b.AgreeAt a k := ⟨h.1.symm,h.2.symm⟩

lemma SameIndex.trans (h : a.SameIndex b) (h' : b.SameIndex c) : a.SameIndex c :=
  ⟨h'.1.trans h.1,h'.2.trans h.2⟩

end HistoryKV

lemma Wrote.congr {L : HistoryLibs} {old new old' new' : HistoryKV} {k : HistKey} {set : RingWriteSet}
    (h : Wrote L old new k set) (hold : old.AgreeAt old' k) (hnew : new.AgreeAt new' k) : Wrote L old' new' k set where
  header_kept hnone := by rw [hnew.1,hold.1,h.header_kept hnone]
  header a ha := by
    obtain ⟨b,hb,heq⟩ := h.header a ha
    exact ⟨b,hb,hnew.1.trans heq⟩
  deleted s hs := by rw [hnew.2,h.deleted s hs]
  chunk c hc hs := by
    obtain ⟨b,hb,heq⟩ := h.chunk c hc hs
    exact ⟨b,hb,by rw [hnew.2,heq]⟩
  kept s hs hne := by rw [hnew.2,hold.2,h.kept s hs hne]

lemma deleteSlots_eq (k : HistKey) (slots : List ℕ) (kv : HistoryKV) :
    slots.foldl (fun kv slot => deleteHistoryChunk kv k slot) kv =
      { kv with chunk := update kv.chunk k (fun s => if s ∈ slots then none else kv.chunk k s) } := by
  induction slots generalizing kv with
  | nil => simp
  | cons slot slots ih =>
    rw [foldl_cons,ih,deleteHistoryChunk,HistoryKV.setChunk]
    simp only [update_idem,update_self,HistoryKV.mk.injEq,true_and,and_true]
    refine congrArg _ (funext fun s => ?_)
    by_cases hs : s ∈ slots
    · simp [hs]
    · by_cases hslot : s = slot
      · simp [hslot]
      · simp [hs,hslot]

namespace HistoryStore
lemma writeHeader_returns {header : Option StreamHistoryHeader}
    (h : ∀ a ∈ header, ∃ b, encodeHistoryHeader L a = .ok b) (kv : HistoryKV) (k : HistKey) :
    ∃ v, header.elim (.ok kv) (writeHistoryHeader L kv k) = .ok (kv.setHeader k v) ∧
      (header = none → v = kv.header k) ∧ ∀ a ∈ header, ∃ b, encodeHistoryHeader L a = .ok b ∧ v = some b := by
  cases header with
  | none => exact ⟨kv.header k,by simp [HistoryKV.setHeader],fun _ => rfl,nofun⟩
  | some a =>
    obtain ⟨b,hb⟩ := h a rfl
    refine ⟨some b,?_,nofun,fun _ ha => ⟨b,Option.some_inj.1 ha ▸ hb,rfl⟩⟩
    rw [Option.elim_some,writeHistoryHeader,hb]
    rfl

lemma writeChunk_returns {chunk : Option StreamHistoryChunk}
    (h : ∀ c ∈ chunk, ∃ b, encodeHistoryChunk L c = .ok b) (kv : HistoryKV) (k : HistKey) :
    ∃ f, chunk.elim (.ok kv) (writeHistoryChunk L kv k) = .ok { kv with chunk := update kv.chunk k f } ∧
      (∀ c ∈ chunk, ∃ b, encodeHistoryChunk L c = .ok b ∧ f c.slot = some b) ∧
      ∀ s, chunk.map StreamHistoryChunk.slot ≠ some s → f s = kv.chunk k s := by
  cases chunk with
  | none => exact ⟨kv.chunk k,by simp,nofun,fun _ _ => rfl⟩
  | some c =>
    obtain ⟨b,hb⟩ := h c rfl
    refine ⟨update (kv.chunk k) c.slot (some b),?_,?_,?_⟩
    · rw [Option.elim_some,writeHistoryChunk,hb]
      rfl
    · intro c' hc
      obtain rfl := Option.some_inj.1 hc
      exact ⟨b,hb,update_self _ _ _⟩
    · exact fun s hs => update_of_ne (fun heq => hs (congrArg some heq.symm)) _ _

variable {set : RingWriteSet}
/-- The writes of a window touch only the keys of its pair. -/
lemma applyWriteSet_returns (h : Encodable L set) (kv : HistoryKV) (k : HistKey) :
    ∃ kv', applyWriteSet L kv k set = .ok kv' ∧ Wrote L kv kv' k set ∧ kv.SameIndex kv' ∧
      ∀ a, a ≠ k → kv.AgreeAt kv' a := by
  obtain ⟨v,hv,hnone,hsome⟩ := writeHeader_returns h.header kv k
  obtain ⟨f,hf,hwritten,hkept⟩ := writeChunk_returns h.chunk (kv.setHeader k v) k
  rw [applyWriteSet,hv,ok_bind,hf,ok_bind,deleteSlots_eq]
  refine ⟨_,rfl,⟨?_,?_,?_,?_,?_⟩,⟨rfl,rfl⟩,?_⟩
  · intro hheader
    rw [← hnone hheader]
    exact update_self _ _ _
  · intro a ha
    obtain ⟨b,hb,rfl⟩ := hsome a ha
    exact ⟨b,hb,update_self _ _ _⟩
  · intro s hs
    simp [hs]
  · intro c hc hs
    obtain ⟨b,hb,heq⟩ := hwritten c hc
    exact ⟨b,hb,by simp [hs,heq]⟩
  · intro s hs hne
    simp [hs,hkept s hne,HistoryKV.setHeader]
  · intro a ha
    exact ⟨update_of_ne ha _ _,by simp [update_of_ne ha,HistoryKV.setHeader]⟩

def Requires (l : List (HistKey × RingWindow)) (k : HistKey) : Prop := ∃ w, (k,w) ∈ l ∧ w.requiredCount ≠ 0

lemma wrote_empty (h : set.isEmpty = true) (kv : HistoryKV) (k : HistKey) : Wrote L kv kv k set := by
  obtain ⟨header,chunk,deleted⟩ := set
  simp only [RingWriteSet.isEmpty,Bool.and_eq_true,Option.isNone_iff_eq_none,List.isEmpty_iff] at h
  obtain ⟨⟨rfl,rfl⟩,rfl⟩ := h
  exact ⟨fun _ => rfl,nofun,nofun,nofun,fun _ _ _ => rfl⟩

structure Written (L : HistoryLibs) (l : List (HistKey × RingWindow)) (st st' : FlushState) : Prop where
  wrote : ∀ k w, (k,w) ∈ l → w.requiredCount ≠ 0 → Wrote L st.kv st'.kv k w.writeSet
  others : ∀ k, ¬ Requires l k → st.kv.AgreeAt st'.kv k
  sameIndex : st.kv.SameIndex st'.kv
  contains : ∀ k, st'.index.contains k = true ↔
    st.index.contains k = true ∨ ∃ w, (k,w) ∈ l ∧ w.requiredCount ≠ 0 ∧ w.writeSet.isEmpty = false
  changed : st'.indexChanged = true ∨ st'.indexChanged = st.indexChanged ∧ st'.index = st.index

variable {k : HistKey}
lemma flushWindow_returns {st : FlushState} {w : RingWindow}
    (h : w.requiredCount ≠ 0 → Encodable L w.writeSet) :
    ∃ st', flushWindow L st (k,w) = .ok st' ∧ Written L [(k,w)] st st' := by
  have hrequires : ∀ a, ¬ Requires [(k,w)] a → w.requiredCount ≠ 0 → a ≠ k := by
    rintro a hnot hw rfl
    exact hnot ⟨w,mem_singleton_self _,hw⟩
  unfold flushWindow
  by_cases hw : w.requiredCount = 0
  · refine ⟨st,if_pos hw,⟨?_,fun _ _ => .refl _ _,⟨rfl,rfl⟩,?_,.inr ⟨rfl,rfl⟩⟩⟩
    · rintro _ _ hmem hw'
      cases mem_singleton.1 hmem
      exact absurd hw hw'
    · simp [hw]
  by_cases hempty : w.writeSet.isEmpty = true
  · refine ⟨st,(if_neg hw).trans (if_pos hempty),⟨?_,fun _ _ => .refl _ _,⟨rfl,rfl⟩,?_,.inr ⟨rfl,rfl⟩⟩⟩
    · rintro _ _ hmem _
      cases mem_singleton.1 hmem
      exact wrote_empty hempty _ _
    · simp [hempty]
  obtain ⟨kv,hkv,hwrote,hsame,hothers⟩ := applyWriteSet_returns (h hw) st.kv k
  refine ⟨_,(if_neg hw).trans ((if_neg hempty).trans (by rw [hkv,ok_bind])),⟨?_,?_,hsame,?_,?_⟩⟩
  · rintro _ _ hmem _
    cases mem_singleton.1 hmem
    exact hwrote
  · exact fun a ha => hothers a (hrequires a ha hw)
  · intro a
    simp only [contains_eq_true,get?_insert]
    by_cases ha : a = k
    · simp [ha,hw,hempty]
    · simp [ha]
  · by_cases hin : st.index.contains k = true
    · refine .inr ⟨by simp [hin],?_⟩
      obtain ⟨⟨⟩,hget⟩ := contains_eq_true.1 hin
      ext1 a
      rw [get?_insert]
      split_ifs with ha
      · rw [ha,hget]
      · rfl
    · exact .inl (by simp [hin])

variable {l : List (HistKey × RingWindow)}
lemma Written.cons {e : HistKey × RingWindow} {a b c : FlushState}
    (hnew : e.1 ∉ l.map Prod.fst) (h : Written L [e] a b) (h' : Written L l b c) : Written L (e :: l) a c where
  wrote k w hmem hw := by
    rcases mem_cons.1 hmem with rfl | hmem
    · refine (h.wrote k w (mem_singleton_self _) hw).congr (.refl _ _) (h'.others k ?_)
      rintro ⟨w',hmem',_⟩
      exact hnew (mem_map.2 ⟨_,hmem',rfl⟩)
    · refine (h'.wrote k w hmem hw).congr (h.others k ?_).symm (.refl _ _)
      rintro ⟨w',hmem',_⟩
      have heq : k = e.1 := congrArg Prod.fst (mem_singleton.1 hmem')
      exact hnew (mem_map.2 ⟨_,hmem,heq⟩)
  others k hk := (h.others k fun ⟨w,hmem,hw⟩ => hk ⟨w,by simp [mem_singleton.1 hmem],hw⟩).trans
    (h'.others k fun ⟨w,hmem,hw⟩ => hk ⟨w,by simp [hmem],hw⟩)
  sameIndex := h.sameIndex.trans h'.sameIndex
  contains k := by
    rw [h'.contains,h.contains]
    constructor
    · rintro ((hin | ⟨w,hmem,hw⟩) | ⟨w,hmem,hw⟩)
      · exact .inl hin
      · exact .inr ⟨w,by simp [mem_singleton.1 hmem],hw⟩
      · exact .inr ⟨w,by simp [hmem],hw⟩
    · rintro (hin | ⟨w,hmem,hw⟩)
      · exact .inl (.inl hin)
      · rcases mem_cons.1 hmem with rfl | hmem
        · exact .inl (.inr ⟨w,mem_singleton_self _,hw⟩)
        · exact .inr ⟨w,hmem,hw⟩
  changed := by
    rcases h'.changed with hc | ⟨hc,hindex⟩
    · exact .inl hc
    rcases h.changed with hb | ⟨hb,hindex'⟩
    · exact .inl (hc.trans hb)
    · exact .inr ⟨hc.trans hb,hindex.trans hindex'⟩

lemma flushWindows_returns (hnodup : (l.map Prod.fst).Nodup)
    (h : ∀ k w, (k,w) ∈ l → w.requiredCount ≠ 0 → Encodable L w.writeSet) (st : FlushState) :
    ∃ st', l.foldlM (flushWindow L) st = .ok st' ∧ Written L l st st' := by
  induction l generalizing st with
  | nil =>
    refine ⟨st,rfl,⟨nofun,fun _ _ => .refl _ _,⟨rfl,rfl⟩,?_,.inr ⟨rfl,rfl⟩⟩⟩
    simp
  | cons e l ih =>
    obtain ⟨hnew,hnodup⟩ := nodup_cons.1 hnodup
    obtain ⟨st₁,h₁,hwritten₁⟩ := flushWindow_returns (h e.1 e.2 mem_cons_self)
    obtain ⟨st₂,h₂,hwritten₂⟩ := ih hnodup (fun k w hmem => h k w (mem_cons_of_mem _ hmem)) st₁
    exact ⟨st₂,by rw [foldlM_cons,h₁,ok_bind,h₂],hwritten₁.cons hnew hwritten₂⟩

/-- What deleting pairs did. -/
structure Swept (s : HistoryStore) (l : List HistKey) (st st' : FlushState) : Prop where
  header : ∀ k ∈ l, st'.kv.header k = none
  chunk : ∀ k ∈ l, ∀ slot, st'.kv.chunk k slot = if slot ∈ s.doomedSlots k then none else st.kv.chunk k slot
  others : ∀ k, k ∉ l → st.kv.AgreeAt st'.kv k
  sameIndex : st.kv.SameIndex st'.kv
  index : st'.index = st.index.eraseMany l
  changed : st'.indexChanged = (st.indexChanged || !l.isEmpty)

lemma swept_deleteOrphan (s : HistoryStore) (st : FlushState) (k : HistKey) : s.Swept [k] st (s.deleteOrphan st k) where
  header a ha := by
    rw [mem_singleton.1 ha,deleteOrphan,deleteWindow,deleteSlots_eq]
    exact update_self _ _ _
  chunk a ha slot := by
    rw [mem_singleton.1 ha,deleteOrphan,deleteWindow,deleteSlots_eq]
    dsimp only
    rw [update_self]
    rfl
  others a ha := by
    have hne : a ≠ k := fun h => ha (mem_singleton.2 h)
    rw [deleteOrphan,deleteWindow,deleteSlots_eq]
    exact ⟨update_of_ne hne _ _,update_of_ne hne _ _⟩
  sameIndex := by
    rw [deleteOrphan,deleteWindow,deleteSlots_eq]
    exact ⟨rfl,rfl⟩
  index := rfl
  changed := by simp [deleteOrphan]

lemma swept_foldl (s : HistoryStore) {l : List HistKey} (hnodup : l.Nodup) (st : FlushState) :
    s.Swept l st (l.foldl s.deleteOrphan st) := by
  induction l generalizing st with
  | nil => exact ⟨nofun,nofun,fun _ _ => .refl _ _,⟨rfl,rfl⟩,rfl,by simp⟩
  | cons k l ih =>
    obtain ⟨hnew,hnodup⟩ := nodup_cons.1 hnodup
    have h₁ := swept_deleteOrphan s st k
    have h₂ := ih hnodup (s.deleteOrphan st k)
    have hk := mem_singleton_self k
    refine ⟨?_,?_,?_,h₁.sameIndex.trans h₂.sameIndex,h₂.index,?_⟩
    · intro a ha
      rcases mem_cons.1 ha with rfl | ha
      · exact (h₂.others a hnew).1.trans (h₁.header a hk)
      · exact h₂.header a ha
    · intro a ha slot
      rcases mem_cons.1 ha with rfl | ha
      · exact (congrFun (h₂.others a hnew).2 slot).trans (h₁.chunk a hk slot)
      · have hne : a ∉ [k] := fun h => hnew (mem_singleton.1 h ▸ ha)
        exact (h₂.chunk a ha slot).trans (by rw [(h₁.others a hne).2])
    · intro a ha
      rw [mem_cons,not_or] at ha
      exact (h₁.others a (by simpa using ha.1)).trans (h₂.others a ha.2)
    · rw [foldl_cons,h₂.changed,h₁.changed]
      simp

def Keeps (s : HistoryStore) (k : HistKey) : Prop := ∃ w, s.windows.get? k = some w ∧ w.requiredCount ≠ 0

structure Flushed (L : HistoryLibs) (s : HistoryStore) (kv kv' : HistoryKV) : Prop where
  wrote : ∀ k w, s.windows.get? k = some w → w.requiredCount ≠ 0 → Wrote L kv kv' k w.writeSet
  header : ∀ k, ¬ s.Keeps k → s.index.contains k = true → kv'.header k = none
  chunk : ∀ k, ¬ s.Keeps k → s.index.contains k = true →
    ∀ slot, kv'.chunk k slot = if slot ∈ s.doomedSlots k then none else kv.chunk k slot
  others : ∀ k, ¬ s.Keeps k → s.index.contains k = false → kv.AgreeAt kv' k
  /-- The pairs that are listed afterwards, and how they are recorded. -/
  index : ∃ listed : SortedMap HistKey Unit,
    (∀ k, listed.contains k = true ↔ s.Keeps k ∧
      (s.index.contains k = true ∨ ∃ w, s.windows.get? k = some w ∧ w.writeSet.isEmpty = false)) ∧
    (s.abandoned = 0 ∧ listed = s.index ∧ kv.SameIndex kv' ∨
      kv'.index = some (encodeHistoryIndex listed.keys) ∧
        kv'.version = if s.layoutReset then some [historyLayoutVersion] else kv.version)

variable {s : HistoryStore}
lemma requires_entries : Requires s.windows.entries k ↔ s.Keeps k := by
  simp only [Requires,Keeps,get?_eq_some_iff]

lemma mem_orphans {index : SortedMap HistKey Unit} :
    k ∈ s.orphans index ↔ index.contains k = true ∧ ¬ s.Keeps k := by
  rw [orphans,mem_filter,SortedMap.mem_keys,SortedMap.contains,Keeps]
  refine and_congr_right fun _ => ?_
  cases s.windows.get? k with
  | none => simp
  | some w => simp

lemma writeIndex_agreeAt (s : HistoryStore) (st : FlushState) (k : HistKey) : st.kv.AgreeAt (s.writeIndex st) k := by
  unfold writeIndex
  split_ifs <;> exact ⟨rfl,rfl⟩

/-- A flush writes every window and deletes the pairs nothing requires. -/
lemma flush_returns
    (h : ∀ k w, s.windows.get? k = some w → w.requiredCount ≠ 0 → Encodable L w.writeSet) (kv : HistoryKV) :
    ∃ kv', s.flush L kv = .ok kv' ∧ s.Flushed L kv kv' := by
  obtain ⟨written,hfold,hw⟩ := flushWindows_returns s.windows.keys_nodup
    (fun k w hmem => h k w (get?_eq_some_iff.2 hmem)) ⟨kv,s.index,decide (s.abandoned > 0)⟩
  have hnodup : (s.orphans written.index).Nodup := written.index.keys_nodup.filter _
  have hs := swept_foldl s hnodup written
  generalize hswept : (s.orphans written.index).foldl s.deleteOrphan written = swept at hs
  refine ⟨s.writeIndex swept,by rw [flush,hfold,ok_bind,hswept],?_⟩
  have hagree := s.writeIndex_agreeAt swept
  have hothers : ∀ k, ¬ s.Keeps k → kv.AgreeAt written.kv k := fun k hk => hw.others k (mt requires_entries.1 hk)
  have hlisted : ∀ k, s.index.contains k = true → written.index.contains k = true := fun k hk => (hw.contains k).2 (.inl hk)
  have hcontains : ∀ k, swept.index.contains k = true ↔ written.index.contains k = true ∧ s.Keeps k := by
    intro k
    rw [hs.index,SortedMap.contains,get?_eraseMany]
    by_cases hk : k ∈ s.orphans written.index
    · simp [hk,(mem_orphans.1 hk).2]
    · rw [if_neg hk]
      refine ⟨fun hin => ⟨hin,?_⟩,fun hin => hin.1⟩
      by_contra hnot
      exact hk (mem_orphans.2 ⟨hin,hnot⟩)
  refine ⟨?_,?_,?_,?_,swept.index,?_,?_⟩
  · intro k w hget hrequired
    refine (hw.wrote k w (get?_eq_some_iff.1 hget) hrequired).congr (.refl _ _) ?_
    exact (hs.others k fun hk => (mem_orphans.1 hk).2 ⟨w,hget,hrequired⟩).trans (hagree k)
  · intro k hk hin
    exact (hagree k).1.trans (hs.header k (mem_orphans.2 ⟨hlisted k hin,hk⟩))
  · intro k hk hin slot
    rw [(hagree k).2,hs.chunk k (mem_orphans.2 ⟨hlisted k hin,hk⟩),(hothers k hk).2]
  · intro k hk hin
    refine (hothers k hk).trans ((hs.others k fun horphan => ?_).trans (hagree k))
    rcases (hw.contains k).1 (mem_orphans.1 horphan).1 with hin' | ⟨w,hmem,hrequired,_⟩
    · exact absurd hin' (by rw [hin]; decide)
    · exact hk ⟨w,get?_eq_some_iff.2 hmem,hrequired⟩
  · intro k
    rw [hcontains,hw.contains,and_comm]
    refine and_congr_right fun hk => or_congr_right ?_
    obtain ⟨w,hget,hrequired⟩ := hk
    simp only [← get?_eq_some_iff,hget,Option.some_inj]
    constructor
    · rintro ⟨w',heq,_,hne⟩
      exact ⟨w',heq,hne⟩
    · rintro ⟨w',heq,hne⟩
      exact ⟨w',heq,heq ▸ hrequired,hne⟩
  · have hsame : kv.SameIndex swept.kv := hw.sameIndex.trans hs.sameIndex
    by_cases hchanged : swept.indexChanged = true
    · right
      rw [writeIndex,if_pos hchanged]
      exact ⟨rfl,by rw [hsame.2]⟩
    left
    rw [writeIndex,if_neg hchanged]
    rw [hs.changed,Bool.or_eq_true,not_or] at hchanged
    obtain ⟨hwritten,horphans⟩ := hchanged
    obtain ⟨habandoned,hindex⟩ := hw.changed.resolve_left hwritten
    rw [habandoned] at hwritten
    refine ⟨by simpa using hwritten,?_,hsame⟩
    have hnil : s.orphans written.index = [] := by simpa using horphans
    rw [hs.index,hnil]
    exact hindex

end HistoryStore
end DataStreams.V31
