import DataStreams.V31.HistoryFlush

/-! The stored keys represent a history for every pair, and the windows of a round track them. -/
namespace DataStreams.V31
open List Function SortedMap

/-- The numbers of a pair fit the index. -/
def HistKey.OnWire (k : HistKey) : Prop := k.streamID < 2 ^ 32 ∧ k.aggregator < 2 ^ 32

lemma decodeHistoryIndex_encodeHistoryIndex {m : SortedMap HistKey Unit} (hwire : ∀ k ∈ m.keys, k.OnWire)
    (hsize : m.keys.length ≤ maxHistoryPairs) : decodeHistoryIndex (encodeHistoryIndex m.keys) = .ok m.keys := by
  have hlength : ∀ n, (beU32 n).length = 4 := fun n => by simp [beU32]
  have hwidth : ∀ k : HistKey, (beU32 k.streamID ++ beU32 k.aggregator).length = 8 := fun k => by
    rw [length_append,hlength,hlength]
  have hsorted : m.keys.insertionSort (· ≤ ·) = m.keys :=
    List.Pairwise.insertionSort_eq (m.keys_sorted.imp fun h => h.le)
  have hcount : (encodeHistoryIndex m.keys).length / 8 = m.keys.length := by
    rw [encodeHistoryIndex,hsorted,length_flatMap_of_length hwidth,Nat.mul_div_cancel_left _ (by decide)]
  rw [decodeHistoryIndex,hcount,if_neg (not_lt.2 hsize)]
  refine congrArg Except.ok (ext_getElem (by simp) fun i hi hi' => ?_)
  have hdrop := drop_flatMap_of_length hwidth m.keys i
  rw [drop_eq_getElem_cons hi',flatMap_cons,append_assoc] at hdrop
  have hon := hwire _ (getElem_mem hi')
  rw [getElem_map,getElem_range,encodeHistoryIndex,hsorted,← drop_drop,hdrop,
    take_left' (hlength _),drop_left' (hlength _),take_left' (hlength _),ofBigEndian_beU32 hon.1,
    ofBigEndian_beU32 hon.2]

/-- What the reads of a pair's keys return. The ring has no other slots. -/
def pairStore (L : HistoryLibs) (kv : HistoryKV) (k : HistKey) : PairStore where
  header := readHistoryHeader L kv k
  slot s := if s < maxHistoryChunkSlots then readHistoryChunk L kv k s else .ok none

structure Stored (L : HistoryLibs) (kv : HistoryKV) (H : HistKey → PairHistory) : Prop where
  pair : ∀ k, (pairStore L kv k).Represents (H k)
  storable : ∀ k, ∀ r ∈ (H k).records, r.Storable L.marshalDecimal
  index : ∃ listed : SortedMap HistKey Unit, readHistoryIndex kv = .ok listed.keys ∧
    ∀ k, listed.contains k = true ↔ (H k).depth ≠ 0
  version : readHistoryLayoutVersion kv = historyLayoutVersion ∨ ∀ k, (H k).depth = 0

variable {L : HistoryLibs} {kv kv' : HistoryKV} {k : HistKey}
lemma slot_lt (sequence : ℕ) : historyChunkSlot sequence < maxHistoryChunkSlots := Nat.mod_lt _ (by decide)

lemma pairStore_slot (s : ℕ) : (pairStore L kv k).slot s =
    if s < maxHistoryChunkSlots then readHistoryChunk L kv k s else .ok none := rfl

lemma pairStore_slot_historyChunkSlot (sequence : ℕ) :
    (pairStore L kv k).slot (historyChunkSlot sequence) = readHistoryChunk L kv k (historyChunkSlot sequence) :=
  if_pos (slot_lt sequence)

lemma HistoryKV.AgreeAt.pairStore_eq (h : kv.AgreeAt kv' k) : pairStore L kv' k = pairStore L kv k := by
  simp only [pairStore,readHistoryHeader,readHistoryChunk,h.1,h.2]

lemma readRecord_none {α : Type} {decode : Bytes → Except HistoryError α} {what : String} :
    readRecord L decode what none = .ok none := rfl

lemma Wrote.pairStore_eq {set : RingWriteSet} (h : Wrote L kv kv' k set)
    (hheader : ∀ a ∈ set.header, ∀ b, encodeHistoryHeader L a = .ok b →
      readRecord L (unmarshalStreamHistoryHeader L) "history header" (some b) = .ok (some a))
    (hchunk : ∀ c ∈ set.chunk, ∀ b, encodeHistoryChunk L c = .ok b →
      readRecord L (unmarshalStreamHistoryChunk L) "history chunk" (some b) = .ok (some c)) :
    pairStore L kv' k = (pairStore L kv k).apply set := by
  have hhead : (pairStore L kv' k).header = ((pairStore L kv k).apply set).header := by
    simp only [pairStore,PairStore.apply,readHistoryHeader]
    cases hset : set.header with
    | none => rw [h.header_kept hset,Option.elim_none]
    | some a =>
      obtain ⟨b,hb,hnew⟩ := h.header a hset
      rw [hnew,hheader a hset b hb,Option.elim_some]
  have hslot : (pairStore L kv' k).slot = ((pairStore L kv k).apply set).slot := by
    funext s
    rw [PairStore.slot_apply,pairStore_slot,pairStore_slot,readHistoryChunk,readHistoryChunk]
    by_cases hdeleted : s ∈ set.deletedSlots
    · rw [if_pos hdeleted,h.deleted s hdeleted,readRecord_none,ite_self]
    rw [if_neg hdeleted]
    by_cases hwritten : set.chunk.map StreamHistoryChunk.slot = some s
    · obtain ⟨c,hc,rfl⟩ := Option.map_eq_some_iff.1 hwritten
      obtain ⟨b,hb,hnew⟩ := h.chunk c hc hdeleted
      rw [if_pos hwritten,hnew,hchunk c hc b hb,hc]
      exact if_pos (slot_lt c.sequence)
    · rw [if_neg hwritten,h.kept s hdeleted hwritten]
  exact congrArg₂ PairStore.mk hhead hslot

lemma pairStore_removed {slots : List ℕ} (hheader : kv'.header k = none)
    (hchunk : ∀ s, kv'.chunk k s = if s ∈ slots then none else kv.chunk k s) :
    pairStore L kv' k = (pairStore L kv k).remove slots := by
  have hhead : (pairStore L kv' k).header = ((pairStore L kv k).remove slots).header := by
    simp only [pairStore,PairStore.remove,readHistoryHeader]
    rw [hheader,readRecord_none]
  have hslot : (pairStore L kv' k).slot = ((pairStore L kv k).remove slots).slot := by
    funext s
    rw [PairStore.slot_remove,pairStore_slot,pairStore_slot,readHistoryChunk,readHistoryChunk,hchunk]
    split_ifs
    · rfl
    · rfl
    · rfl
    · rfl
  exact congrArg₂ PairStore.mk hhead hslot

namespace HistoryStore
def PairTracks (L : HistoryLibs) (kv : HistoryKV) (s : HistoryStore) (k : HistKey) (p : PairHistory) : Prop :=
  match s.windows.get? k with
  | none => (pairStore L kv k).Represents p
  | some w => w.Tracks (pairStore L kv k) p

/-- Nothing was appended to the pair. -/
def PairFresh (s : HistoryStore) (k : HistKey) : Prop :=
  ∀ w, s.windows.get? k = some w → w.stored = false ∧ w.dirtyChunk = none

/-- Where a window of the pair comes from: the one it has, or a stored header, with chunks
loaded since. -/
def Origin (s : HistoryStore) (k : HistKey) (w : RingWindow) : Prop :=
  (∃ w₀, s.windows.get? k = some w₀ ∧ w₀.LoadedFrom w) ∨
    s.windows.get? k = none ∧ ∃ header, (newRingWindow header).LoadedFrom w

variable {s : HistoryStore} {p : PairHistory} {w : RingWindow}
lemma setWindow_self (h : s.windows.get? k = some w) : s.setWindow k w = s := by
  rw [setWindow,insert_self h]

lemma setWindow_setWindow (s : HistoryStore) (k : HistKey) (w w' : RingWindow) :
    (s.setWindow k w).setWindow k w' = s.setWindow k w' := by
  simp only [setWindow,insert_insert]

lemma Origin.fresh (h : s.Origin k w) (hfresh : s.PairFresh k) : w.stored = false ∧ w.dirtyChunk = none := by
  rcases h with ⟨w₀,hget,_,rfl⟩ | ⟨_,header,_,rfl⟩
  · exact hfresh w₀ hget
  · exact ⟨rfl,rfl⟩

lemma Origin.load {w' : RingWindow} (h : s.Origin k w) (hload : w.LoadedFrom w') : s.Origin k w' := by
  rcases h with ⟨w₀,hget,h⟩ | ⟨hget,header,h⟩
  · exact .inl ⟨w₀,hget,h.trans hload⟩
  · exact .inr ⟨hget,header,h.trans hload⟩

lemma PairTracks.window (h : s.PairTracks L kv k p) :
    ∃ w, s.window L kv k = .ok (s.setWindow k w,w) ∧ w.Tracks (pairStore L kv k) p ∧ s.Origin k w := by
  unfold PairTracks at h
  unfold HistoryStore.window
  cases hget : s.windows.get? k with
  | some w =>
    rw [hget] at h
    exact ⟨w,by rw [setWindow_self hget],h,.inl ⟨w,hget,.refl w⟩⟩
  | none =>
    rw [hget] at h
    have hread : readHistoryHeader L kv k = .ok (if p.depth = 0 then none else some p.header) := h.header
    simp only [hread]
    exact ⟨_,rfl,RingWindow.tracks_newRingWindow h,.inr ⟨hget,_,.refl _⟩⟩

/-- Loading chunks does not change the history a window stands for. -/
lemma provide_tracks {sequences : List ℕ} (h : w.Tracks (pairStore L kv k) p) (hmem : ∀ i ∈ sequences, i ∈ p.sequences) :
    ∃ w', HistoryStore.provide L kv k (s.setWindow k w) w sequences = .ok (s.setWindow k w',w') ∧
      w'.Tracks (pairStore L kv k) p ∧ w.LoadedFrom w' ∧
      (∀ i, w.loaded i = true → w'.loaded i = true) ∧ ∀ i ∈ sequences, w'.loaded i = true := by
  induction sequences generalizing w with
  | nil => exact ⟨w,rfl,h,.refl w,fun _ => id,nofun⟩
  | cons i rest ih =>
    have hi := hmem i mem_cons_self
    have hrest := fun j hj => hmem j (mem_cons_of_mem i hj)
    unfold HistoryStore.provide
    by_cases hloaded : w.loaded i = true
    · obtain ⟨w',hprovide,htracks,hfrom,hkept,hall⟩ := ih h hrest
      refine ⟨w',(if_pos hloaded).trans hprovide,htracks,hfrom,hkept,?_⟩
      intro j hj
      rcases mem_cons.1 hj with rfl | hj
      · exact hkept j hloaded
      · exact hall j hj
    · have hnot : w.loaded i = false := Bool.eq_false_iff.2 hloaded
      have hread : readHistoryChunk L kv k (historyChunkSlot i) = .ok (some (p.chunk i)) := by
        rw [← pairStore_slot_historyChunkSlot]
        exact h.slot_of_not_loaded hi hnot
      obtain ⟨w',hprovide,htracks,hfrom,hkept,hall⟩ := ih (h.loadChunk hi hnot) hrest
      have hinsert : ∀ j, w.loaded j = true ∨ j = i → w'.loaded j = true := by
        intro j hj
        refine hkept j ?_
        simp only [RingWindow.loaded,get?_insert]
        split_ifs with hji
        · rfl
        · exact hj.resolve_right hji
      refine ⟨w',?_,htracks,(w.loadedFrom_insert _ _).trans hfrom,fun j hj => hinsert j (.inl hj),?_⟩
      · rw [if_neg hloaded,hread]
        simp only [h.provide hi,setWindow_setWindow]
        exact hprovide
      · intro j hj
        rcases mem_cons.1 hj with rfl | hj
        · exact hinsert j (.inr rfl)
        · exact hall j hj

lemma readPlan_cases {σ : PairStore} (h : w.Tracks σ p) (n : ℕ) :
    (p.retained < n ∧ w.readPlan n = .error (.insufficient p.retained n)) ∨
      ¬ p.retained < n ∧ ∃ sequences, w.readPlan n = .ok sequences ∧ ∀ i ∈ sequences, i ∈ p.sequences := by
  rcases Nat.eq_zero_or_pos n with rfl | hn
  · exact .inr ⟨Nat.not_lt_zero _,[],rfl,nofun⟩
  rcases h.readPlan hn with hshort | ⟨f,hf,hplan,hcovers⟩
  · exact .inl hshort
  · refine .inr ⟨?_,_,hplan,fun i hi => ?_⟩
    · have hmono : maxHistoryChunkRecords * p.dropped ≤ maxHistoryChunkRecords * f := Nat.mul_le_mul_left _ hf
      unfold PairHistory.retained
      omega
    · rw [mem_chunkIndices] at hi
      exact mem_chunkIndices.2 ⟨hf.trans hi.1,hi.2⟩

/-- Reading the newest records is reading them from the history. -/
lemma PairTracks.records (h : s.PairTracks L kv k p) (n : ℕ) :
    ∃ w, s.records L kv k n = (s.setWindow k w,p.answer n) ∧ w.Tracks (pairStore L kv k) p ∧ s.Origin k w := by
  obtain ⟨w,hwindow,htracks,horigin⟩ := h.window
  rw [HistoryStore.records,hwindow]
  rcases readPlan_cases htracks n with ⟨hshort,hplan⟩ | ⟨henough,sequences,hplan,hmem⟩
  · refine ⟨w,?_,htracks,horigin⟩
    simp only [hplan,PairHistory.answer]
    exact congrArg _ (if_pos hshort).symm
  · obtain ⟨w₂,hprovide,htracks₂,hfrom,_,hloaded⟩ := provide_tracks (s := s) htracks hmem
    have hplan₂ : w₂.readPlan n = .ok sequences := by
      obtain ⟨_,rfl⟩ := hfrom
      exact hplan
    refine ⟨w₂,?_,htracks₂,horigin.load hfrom⟩
    simp only [hplan,hprovide,htracks₂.newest hplan₂ hloaded,PairHistory.answer]
    exact congrArg _ (if_neg henough).symm

lemma PairTracks.setRequired (h : s.PairTracks L kv k p) (hfresh : s.PairFresh k) {d : ℕ}
    (hd : (d : ℤ) ≤ maxHistoryRecordsPerPair) :
    ∃ w, s.setRequired L kv k d = .ok (setWindow { s with required := s.required.insert k d } k w) ∧
      w.Tracks (pairStore L kv k) (p.setDepth d hd) ∧ w.stored = false ∧ w.dirtyChunk = none := by
  have h' : PairTracks L kv { s with required := s.required.insert k d } k p := h
  obtain ⟨w,hwindow,htracks,horigin⟩ := h'.window
  obtain ⟨hstored,hdirty⟩ := horigin.fresh hfresh
  obtain ⟨w',hset,htracks',hdirty',hstored'⟩ := htracks.setRequiredCount hdirty hd
  refine ⟨w',?_,htracks',hstored'.trans hstored,hdirty'⟩
  rw [HistoryStore.setRequired,hwindow,Go.ok_bind]
  dsimp only
  rw [hset,Go.ok_bind,setWindow_setWindow]

lemma PairTracks.provideAppend (h : s.PairTracks L kv k p) (hfresh : s.PairFresh k) :
    ∃ w₁ w₂, s.window L kv k = .ok (s.setWindow k w₁,w₁) ∧
      HistoryStore.provide L kv k (s.setWindow k w₁) w₁ w₁.appendPlan = .ok (s.setWindow k w₂,w₂) ∧
      w₂.Tracks (pairStore L kv k) p ∧ s.Origin k w₂ ∧ w₂.stored = false ∧ w₂.dirtyChunk = none ∧
      ∀ i ∈ w₂.appendPlan, w₂.loaded i = true := by
  obtain ⟨w₁,hwindow,htracks,horigin⟩ := h.window
  obtain ⟨w₂,hprovide,htracks₂,hfrom,_,hloaded⟩ :=
    provide_tracks (s := s) htracks fun i hi => htracks.mem_sequences_of_appendPlan hi
  have hplan : w₂.appendPlan = w₁.appendPlan := by
    obtain ⟨_,rfl⟩ := hfrom
    rfl
  have horigin₂ := horigin.load hfrom
  obtain ⟨hstored,hdirty⟩ := horigin₂.fresh hfresh
  exact ⟨w₁,w₂,hwindow,hprovide,htracks₂,horigin₂,hstored,hdirty,hplan ▸ hloaded⟩

variable {r : StreamHistoryRecord}
lemma PairTracks.append (h : s.PairTracks L kv k p) (hfresh : s.PairFresh k)
    (hr : r.Storable L.marshalDecimal) :
    ∃ w w', s.append L kv k r = (s.setWindow k w',.ok (decide (p.depth ≠ 0 ∧ p.Accepts r))) ∧
      w'.Tracks (pairStore L kv k) (p.push r) ∧ s.Origin k w ∧
      w.append L.marshalDecimal r = .ok (decide (p.depth ≠ 0 ∧ p.Accepts r),w') := by
  obtain ⟨w₁,w,hwindow,hprovide,htracks,horigin,hstored,hdirty,hloaded⟩ := h.provideAppend hfresh
  obtain ⟨size,hsize,hsmall⟩ := hr.size_le
  obtain ⟨w',happend,htracks'⟩ := htracks.append hstored hdirty hloaded hsize hsmall
  refine ⟨w,w',?_,htracks',horigin,happend⟩
  rw [HistoryStore.append,hwindow]
  simp only [hprovide,happend,setWindow_setWindow]

lemma PairTracks.append_tooLarge {size : ℕ} (h : s.PairTracks L kv k p)
    (hfresh : s.PairFresh k) (hsize : historyRecordSize L.marshalDecimal r = .ok size)
    (hlarge : maxHistoryRecordBytes < size) :
    ∃ w, s.append L kv k r =
        (s.setWindow k w,if p.depth ≠ 0 ∧ p.Accepts r then .error (.tooLarge size) else .ok false) ∧
      w.Tracks (pairStore L kv k) p ∧ s.Origin k w := by
  obtain ⟨w₁,w,hwindow,hprovide,htracks,horigin,hstored,hdirty,_⟩ := h.provideAppend hfresh
  have happend := htracks.append_tooLarge hstored hsize hlarge
  refine ⟨w,?_,htracks,horigin⟩
  rw [HistoryStore.append,hwindow]
  by_cases hkeeps : p.depth ≠ 0 ∧ p.Accepts r
  · rw [if_pos hkeeps] at happend ⊢
    simp only [hprovide,happend]
  · rw [if_neg hkeeps] at happend ⊢
    simp only [hprovide,happend,setWindow_setWindow]

end HistoryStore

/-- What a round has done to the histories: what they were and are, the pairs that were
appended to and those that were touched. -/
structure HistoryRound where
  start : HistKey → PairHistory
  now : HistKey → PairHistory
  appended : List HistKey
  touched : List HistKey

namespace HistoryRound
def begin (H : HistKey → PairHistory) : HistoryRound := ⟨H,H,[],[]⟩

def touch (g : HistoryRound) (k : HistKey) : HistoryRound := { g with touched := k :: g.touched }

def set (g : HistoryRound) (k : HistKey) (p : PairHistory) : HistoryRound :=
  { g.touch k with now := update g.now k p }

def setDepth (g : HistoryRound) (k : HistKey) (d : ℕ) (hd : (d : ℤ) ≤ maxHistoryRecordsPerPair) : HistoryRound :=
  g.set k ((g.now k).setDepth d hd)

def push (g : HistoryRound) (k : HistKey) (r : StreamHistoryRecord) : HistoryRound :=
  { g.set k ((g.now k).push r) with appended := k :: g.appended }

end HistoryRound

namespace HistoryStore
/-- The store follows the histories of a round. A pair that was not appended to can still
take a record. -/
structure Follows (L : HistoryLibs) (kv : HistoryKV) (s : HistoryStore) (g : HistoryRound) : Prop where
  stored : Stored L kv g.start
  storable : ∀ k, ∀ r ∈ (g.now k).records, r.Storable L.marshalDecimal
  untouched : ∀ k, s.windows.get? k = none → g.now k = g.start k
  touched : ∀ k ∈ g.touched, s.windows.get? k ≠ none
  tracks : ∀ k w, s.windows.get? k = some w → w.Tracks (pairStore L kv k) (g.now k)
  fresh : ∀ k w, s.windows.get? k = some w → k ∉ g.appended → w.stored = false ∧ w.dirtyChunk = none
  index : readHistoryIndex kv = .ok s.index.keys
  layout : s.layoutReset = decide (readHistoryLayoutVersion kv ≠ historyLayoutVersion)
  corrupt : s.corrupt = ∅
  abandoned : s.abandoned = 0

variable {s : HistoryStore} {g g' : HistoryRound} {w : RingWindow}
lemma Follows.index_contains (h : s.Follows L kv g) (k : HistKey) :
    s.index.contains k = true ↔ (g.start k).depth ≠ 0 := by
  obtain ⟨listed,hlisted,hcontains⟩ := h.stored.index
  have hkeys : listed.keys = s.index.keys := Except.ok.inj (hlisted.symm.trans h.index)
  rw [← hcontains,SortedMap.contains,SortedMap.contains,← SortedMap.mem_keys,← SortedMap.mem_keys,hkeys]

/-- A store opened on the state of the last round follows its histories. -/
lemma follows_newHistoryStore {H : HistKey → PairHistory} (h : Stored L kv H) :
    ∃ s, newHistoryStore kv = .ok s ∧ s.Follows L kv (.begin H) := by
  obtain ⟨listed,hlisted,hcontains⟩ := h.index
  have hnil : readHistoryLayoutVersion kv ≠ historyLayoutVersion → listed.keys = [] := by
    intro hversion
    refine eq_nil_iff_forall_not_mem.2 fun k hk => ?_
    exact (hcontains k).1 (SortedMap.mem_keys.1 hk) (h.version.resolve_left hversion k)
  have hempty : (if readHistoryLayoutVersion kv ≠ historyLayoutVersion then
      SortedMap.ofList (listed.keys.map (fun k => (k,resetRingWindow))) else ∅) = ∅ := by
    split_ifs with hversion
    · rw [hnil hversion]
      rfl
    · rfl
  refine ⟨_,by rw [newHistoryStore,hlisted]; rfl,⟨h,h.storable,fun _ _ => rfl,nofun,?_,?_,?_,?_,rfl,?_⟩⟩
  · intro k w hget
    dsimp only at hget
    rw [hempty] at hget
    cases hget
  · intro k w hget
    dsimp only at hget
    rw [hempty] at hget
    cases hget
  · rw [hlisted,SortedMap.setOf_keys]
  · rfl
  · dsimp only
    split_ifs with hversion
    · rw [hnil hversion]
      rfl
    · rfl

variable {p : PairHistory}
section
variable (h : s.Follows L kv g)
include h

lemma Follows.setWindow (htracks : w.Tracks (pairStore L kv k) p)
    (hstorable : ∀ r ∈ p.records, r.Storable L.marshalDecimal) {appended : List HistKey}
    (hfresh : k ∉ appended → w.stored = false ∧ w.dirtyChunk = none) (hsub : g.appended ⊆ appended) :
    (s.setWindow k w).Follows L kv { g.set k p with appended := appended } := by
  have hself : (s.setWindow k w).windows.get? k = some w := get?_insert_self _ _ _
  have hget : ∀ a, a ≠ k → (s.setWindow k w).windows.get? a = s.windows.get? a :=
    fun a ha => get?_insert_of_ne _ _ ha
  have hnow : (g.set k p).now k = p := update_self _ _ _
  have hothers : ∀ a, a ≠ k → (g.set k p).now a = g.now a := fun a ha => update_of_ne ha _ _
  refine ⟨h.stored,?_,?_,?_,?_,?_,h.index,h.layout,h.corrupt,h.abandoned⟩
  · intro a
    by_cases ha : a = k
    · subst ha
      exact hnow.symm ▸ hstorable
    · exact (hothers a ha).symm ▸ h.storable a
  · intro a hnone
    by_cases ha : a = k
    · exact absurd (ha ▸ hnone) (by rw [hself]; exact nofun)
    · exact (hothers a ha).trans (h.untouched a (hget a ha ▸ hnone))
  · intro a ha
    by_cases hak : a = k
    · rw [hak,hself]
      exact nofun
    · rw [hget a hak]
      exact h.touched a ((mem_cons.1 ha).resolve_left hak)
  · intro a w' hsome
    by_cases ha : a = k
    · subst ha
      rw [← Option.some_inj.1 (hself.symm.trans hsome)]
      exact hnow.symm ▸ htracks
    · exact (hothers a ha).symm ▸ h.tracks a w' (hget a ha ▸ hsome)
  · intro a w' hsome hnot
    by_cases ha : a = k
    · subst ha
      rw [← Option.some_inj.1 (hself.symm.trans hsome)]
      exact hfresh hnot
    · exact h.fresh a w' (hget a ha ▸ hsome) fun hin => hnot (hsub hin)

lemma Follows.keepWindow (htracks : w.Tracks (pairStore L kv k) (g.now k))
    (hfresh : k ∉ g.appended → w.stored = false ∧ w.dirtyChunk = none) : (s.setWindow k w).Follows L kv (g.touch k) := by
  have hset := h.setWindow htracks (h.storable k) hfresh (List.Subset.refl _)
  rw [HistoryRound.set,update_eq_self] at hset
  exact hset

lemma Follows.pairTracks (k : HistKey) : s.PairTracks L kv k (g.now k) := by
  unfold PairTracks
  cases hget : s.windows.get? k with
  | none =>
    rw [h.untouched k hget]
    exact h.stored.pair k
  | some w => exact h.tracks k w hget

lemma Follows.pairFresh (hk : k ∉ g.appended) : s.PairFresh k := fun w hget => h.fresh k w hget hk

/-- Reading the newest records is reading them from the history. -/
lemma Follows.records (k : HistKey) (n : ℕ) :
    ∃ s', s.records L kv k n = (s',(g.now k).answer n) ∧ s'.Follows L kv (g.touch k) := by
  obtain ⟨w,hrecords,htracks,horigin⟩ := (h.pairTracks k).records n
  exact ⟨_,hrecords,h.keepWindow htracks fun hk => horigin.fresh (h.pairFresh hk)⟩

lemma Follows.series (k : HistKey) (n : ℕ) (field : Field) :
    ∃ s', s.series L kv k n field =
        (s',((g.now k).answer n).bind (fun records => asFailure (seriesFromRecords records field))) ∧
      s'.Follows L kv (g.touch k) := by
  obtain ⟨s',hrecords,h'⟩ := h.records k n
  exact ⟨s',by rw [HistoryStore.series,hrecords],h'⟩

lemma Follows.setRequired (hk : k ∉ g.appended) {d : ℕ}
    (hd : (d : ℤ) ≤ maxHistoryRecordsPerPair) :
    ∃ s', s.setRequired L kv k d = .ok s' ∧ s'.Follows L kv (g.setDepth k d hd) := by
  obtain ⟨w,hset,htracks,hstored,hdirty⟩ := (h.pairTracks k).setRequired (h.pairFresh hk) hd
  have hrequired : ({ s with required := s.required.insert k d } : HistoryStore).Follows L kv g :=
    ⟨h.stored,h.storable,h.untouched,h.touched,h.tracks,h.fresh,h.index,h.layout,h.corrupt,h.abandoned⟩
  exact ⟨_,hset,hrequired.setWindow htracks (fun r hr => h.storable k r (PairHistory.mem_of_mem_setDepth hr))
    (fun _ => ⟨hstored,hdirty⟩) (List.Subset.refl _)⟩

end

variable {r : StreamHistoryRecord}
lemma Follows.append (h : s.Follows L kv g) (hk : k ∉ g.appended)
    (hr : r.Storable L.marshalDecimal) :
    ∃ s', s.append L kv k r = (s',.ok (decide ((g.now k).depth ≠ 0 ∧ (g.now k).Accepts r))) ∧
      s'.Follows L kv (g.push k r) := by
  obtain ⟨_,w,happend,htracks,_,_⟩ := (h.pairTracks k).append (h.pairFresh hk) hr
  have hstorable : ∀ r' ∈ ((g.now k).push r).records, r'.Storable L.marshalDecimal := by
    intro r' hr'
    rcases PairHistory.mem_push hr' with hmem | rfl
    · exact h.storable k r' hmem
    · exact hr
  exact ⟨_,happend,h.setWindow htracks hstorable (fun hnot => absurd mem_cons_self hnot)
    (subset_cons_self k g.appended)⟩

lemma Follows.append_tooLarge {size : ℕ} (h : s.Follows L kv g) (hk : k ∉ g.appended)
    (hsize : historyRecordSize L.marshalDecimal r = .ok size) (hlarge : maxHistoryRecordBytes < size) :
    ∃ s', s.append L kv k r =
        (s',if (g.now k).depth ≠ 0 ∧ (g.now k).Accepts r then .error (.tooLarge size) else .ok false) ∧
      s'.Follows L kv (g.touch k) := by
  obtain ⟨w,happend,htracks,horigin⟩ := (h.pairTracks k).append_tooLarge (h.pairFresh hk) hsize hlarge
  exact ⟨_,happend,h.keepWindow htracks fun hk' => horigin.fresh (h.pairFresh hk')⟩

lemma writeSet_readsBack {σ : PairStore} (hL : L.ReadsBack) (h : w.Tracks σ p) (hdepth : p.depth ≠ 0)
    (hstorable : ∀ r ∈ p.records, r.Storable L.marshalDecimal) :
    (∀ a ∈ w.writeSet.header, ∃ b, encodeHistoryHeader L a = .ok b ∧
      readRecord L (unmarshalStreamHistoryHeader L) "history header" (some b) = .ok (some a)) ∧
    ∀ c ∈ w.writeSet.chunk, ∃ b, encodeHistoryChunk L c = .ok b ∧
      readRecord L (unmarshalStreamHistoryChunk L) "history chunk" (some b) = .ok (some c) := by
  constructor
  · intro a ha
    have hheader : w.header = p.header := h.isAt.header
    simp only [RingWindow.writeSet,Option.mem_def,Option.ite_none_right_eq_some,Option.some_inj] at ha
    rw [← ha.2,hheader]
    exact exists_header_bytes hL hdepth fun r hr => (hstorable r hr).observedAt_lt
  · intro c hc
    have hdirty : w.dirtyChunk = some c := hc
    rcases h.isAt.dirty with hnone | ⟨hlt,hsome,_⟩
    · cases hnone.symm.trans hdirty
    · rw [Option.some_inj.1 (hdirty.symm.trans hsome)]
      exact exists_chunk_bytes hL hstorable (mem_chunkIndices.2 ⟨by omega,by omega⟩)

lemma Follows.requiredCount (h : s.Follows L kv g) (hget : s.windows.get? k = some w) :
    w.requiredCount = (g.now k).depth := by
  rw [RingWindow.requiredCount,(h.tracks k w hget).isAt.header]
  rfl

lemma Follows.exists_window (h : s.Follows L kv g) (htouched : ∀ k, (g.start k).depth ≠ 0 → k ∈ g.touched)
    (hdepth : (g.now k).depth ≠ 0) : ∃ w, s.windows.get? k = some w := by
  cases hget : s.windows.get? k with
  | some w => exact ⟨w,rfl⟩
  | none => exact absurd hget (h.touched k (htouched k (h.untouched k hget ▸ hdepth)))

lemma Follows.writeSet_isEmpty (h : s.Follows L kv g) (hget : s.windows.get? k = some w) (hdepth : (g.now k).depth ≠ 0)
    (hstart : (g.start k).depth = 0) : w.writeSet.isEmpty = false := by
  by_contra hempty
  have hclean : w.headerDirty = false := by
    simp only [Bool.not_eq_false,RingWriteSet.isEmpty,Bool.and_eq_true,RingWindow.writeSet,Option.isNone_iff_eq_none] at hempty
    simpa using hempty.1.1
  have hheader := ((h.tracks k w hget).clean hclean).1
  rw [(h.stored.pair k).header,if_pos hstart,if_neg hdepth] at hheader
  cases hheader

/-- After the flush the keys of a pair hold its history. -/
lemma Follows.flushed_pair {kv' : HistoryKV} (hL : L.ReadsBack) (h : s.Follows L kv g)
    (htouched : ∀ k, (g.start k).depth ≠ 0 → k ∈ g.touched) (hf : s.Flushed L kv kv') (k : HistKey) :
    (pairStore L kv' k).Represents (g.now k) := by
  by_cases hdepth : (g.now k).depth = 0
  · have hnone := (g.now k).eq_none hdepth
    have hdrop : ¬ s.Keeps k := fun ⟨w,hget,hrequired⟩ => hrequired ((h.requiredCount hget).trans hdepth)
    by_cases hin : s.index.contains k = true
    · have hstart := (h.index_contains k).1 hin
      cases hget : s.windows.get? k with
      | none => exact absurd hget (h.touched k (htouched k hstart))
      | some w =>
        have hslots : s.doomedSlots k = w.writeSet.deletedSlots := by rw [doomedSlots,hget]
        rw [pairStore_removed (hf.header k hdrop hin) (hf.chunk k hdrop hin),hslots,hnone]
        exact RingWindow.Tracks.represents_remove (hnone ▸ h.tracks k w hget)
    · have hstart : (g.start k).depth = 0 := by
        by_contra hne
        exact hin ((h.index_contains k).2 hne)
      rw [(hf.others k hdrop (Bool.eq_false_iff.2 hin)).pairStore_eq,hnone,← (g.start k).eq_none hstart]
      exact h.stored.pair k
  · obtain ⟨w,hget⟩ := h.exists_window htouched hdepth
    have htracks := h.tracks k w hget
    obtain ⟨hheader,hchunk⟩ := writeSet_readsBack hL htracks hdepth (h.storable k)
    have hwrote := hf.wrote k w hget (by rwa [h.requiredCount hget])
    rw [hwrote.pairStore_eq ?_ ?_]
    · exact htracks.represents_apply hdepth
    · intro a ha b hb
      obtain ⟨b',hb',hread⟩ := hheader a ha
      exact Except.ok.inj (hb'.symm.trans hb) ▸ hread
    · intro c hc b hb
      obtain ⟨b',hb',hread⟩ := hchunk c hc
      exact Except.ok.inj (hb'.symm.trans hb) ▸ hread

/-- The flush leaves a state that holds every history of the round. -/
lemma Follows.flush (hL : L.ReadsBack) (h : s.Follows L kv g) (htouched : ∀ k, (g.start k).depth ≠ 0 → k ∈ g.touched)
    (hwire : ∀ k, (g.now k).depth ≠ 0 → k.OnWire) {pairs : List HistKey} (hpairs : pairs.length ≤ maxHistoryPairs)
    (hlisted : ∀ k, (g.now k).depth ≠ 0 → k ∈ pairs) : ∃ kv', s.flush L kv = .ok kv' ∧ Stored L kv' g.now := by
  have hencodable : ∀ k w, s.windows.get? k = some w → w.requiredCount ≠ 0 → Encodable L w.writeSet := by
    intro k w hget hrequired
    rw [h.requiredCount hget] at hrequired
    obtain ⟨hheader,hchunk⟩ := writeSet_readsBack hL (h.tracks k w hget) hrequired (h.storable k)
    exact ⟨fun a ha => (hheader a ha).imp fun _ hb => hb.1,fun c hc => (hchunk c hc).imp fun _ hb => hb.1⟩
  obtain ⟨kv',hflush,hf⟩ := flush_returns hencodable kv
  obtain ⟨listed,hcontains,hrecorded⟩ := hf.index
  have hdepth : ∀ k, listed.contains k = true ↔ (g.now k).depth ≠ 0 := by
    intro k
    rw [hcontains]
    constructor
    · rintro ⟨⟨w,hget,hrequired⟩,_⟩
      exact h.requiredCount hget ▸ hrequired
    · intro hne
      obtain ⟨w,hget⟩ := h.exists_window htouched hne
      refine ⟨⟨w,hget,by rwa [h.requiredCount hget]⟩,?_⟩
      by_cases hstart : (g.start k).depth = 0
      · exact .inr ⟨w,hget,h.writeSet_isEmpty hget hne hstart⟩
      · exact .inl ((h.index_contains k).2 hstart)
  have hmem : ∀ k ∈ listed.keys, (g.now k).depth ≠ 0 := fun k hk => (hdepth k).1 (SortedMap.mem_keys.1 hk)
  have hsize : listed.keys.length ≤ maxHistoryPairs :=
    ((listed.keys_nodup.subperm fun k hk => hlisted k (hmem k hk)).length_le).trans hpairs
  have hdecode := decodeHistoryIndex_encodeHistoryIndex (fun k hk => hwire k (hmem k hk)) hsize
  refine ⟨kv',hflush,⟨h.flushed_pair hL htouched hf,h.storable,⟨listed,?_,hdepth⟩,?_⟩⟩
  · rcases hrecorded with ⟨_,rfl,hsame⟩ | ⟨hindex,_⟩
    · rw [readHistoryIndex,hsame.1]
      exact h.index
    · rw [readHistoryIndex,hindex]
      exact hdecode
  · rcases hrecorded with ⟨_,rfl,hsame⟩ | ⟨_,hversion⟩
    · rcases h.stored.version with hversion | hzero
      · left
        rw [readHistoryLayoutVersion,hsame.2]
        exact hversion
      · right
        intro k
        by_contra hne
        exact (h.index_contains k).1 ((hdepth k).2 hne) (hzero k)
    · left
      by_cases hreset : s.layoutReset = true
      · rw [if_pos hreset] at hversion
        rw [readHistoryLayoutVersion,hversion]
        rfl
      · rw [if_neg hreset] at hversion
        rw [h.layout,decide_eq_true_eq,not_not] at hreset
        rw [readHistoryLayoutVersion,hversion]
        exact hreset

end HistoryStore

lemma stored_empty (L : HistoryLibs) : Stored L .empty (fun _ => .none) where
  pair k := by
    refine ⟨rfl,?_,?_⟩
    · exact fun i hi => absurd (mem_chunkIndices.1 hi).2 (Nat.not_lt_zero i)
    · intro s _
      rw [pairStore_slot]
      exact ite_self _
  storable _ := nofun
  index := ⟨∅,rfl,fun _ => by simp [PairHistory.none]⟩
  version := .inr fun _ => rfl

end DataStreams.V31
