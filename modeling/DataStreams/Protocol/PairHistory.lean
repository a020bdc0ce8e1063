import DataStreams.Foundation.Blocks
import DataStreams.Protocol.StreamHistoryRing

/-! What a window stands for: the records of a pair, its depth and the chunks that were dropped. -/
namespace DataStreams
open List

/-- The oldest chunks are dropped as soon as the newer ones cover the required depth. -/
structure PairHistory where
  depth : ℕ
  records : List StreamHistoryRecord
  dropped : ℕ
  depth_le : (depth : ℤ) ≤ maxHistoryRecordsPerPair
  increasing : records.Pairwise (fun a b => a.observedAtNanoseconds < b.observedAtNanoseconds)
  records_eq_nil : depth = 0 → records = []
  dropped_lt : dropped = 0 ∨ maxHistoryChunkRecords * dropped < records.length
  covered : records.length < maxHistoryChunkRecords * (dropped + 1) + depth

def redundantChunks (length depth : ℕ) : ℕ := (length - depth) / maxHistoryChunkRecords

namespace PairHistory
variable {p : PairHistory}
@[ext] lemma ext {q : PairHistory} (hd : p.depth = q.depth) (hr : p.records = q.records)
    (hf : p.dropped = q.dropped) : p = q := by
  cases p
  cases q
  simp_all

/-- No records, and none required. -/
def none : PairHistory := ⟨0,[],0,by decide,.nil,fun _ => rfl,.inl rfl,by decide⟩

def last (p : PairHistory) : ℕ := (p.records.getLast?.map StreamHistoryRecord.observedAtNanoseconds).getD 0

def Accepts (p : PairHistory) (r : StreamHistoryRecord) : Prop :=
  p.records = [] ∨ p.last < r.observedAtNanoseconds

instance (p : PairHistory) (r : StreamHistoryRecord) : Decidable (p.Accepts r) := inferInstanceAs (Decidable (_ ∨ _))

/-- What is required changes; nothing is kept when nothing is required. -/
def setDepth (p : PairHistory) (d : ℕ) (hd : (d : ℤ) ≤ maxHistoryRecordsPerPair) : PairHistory :=
  if h0 : d = 0 then none
  else
    { depth := d
      records := p.records
      dropped := max p.dropped (redundantChunks p.records.length d)
      depth_le := hd
      increasing := p.increasing
      records_eq_nil := fun h => absurd h h0
      dropped_lt := by
        have := p.dropped_lt
        simp only [redundantChunks,maxHistoryChunkRecords] at *
        omega
      covered := by
        simp only [redundantChunks,maxHistoryChunkRecords]
        omega }

variable {r : StreamHistoryRecord}
lemma observedAt_le_last (p : PairHistory) (h : r ∈ p.records) : r.observedAtNanoseconds ≤ p.last := by
  have hne : p.records ≠ [] := ne_nil_of_mem h
  rw [last,getLast?_eq_getLast_of_ne_nil hne,Option.map_some,Option.getD_some]
  have hsplit := dropLast_append_getLast hne
  rw [← hsplit,mem_append,mem_singleton] at h
  rcases h with h | rfl
  · have hpair := p.increasing
    rw [← hsplit,pairwise_append] at hpair
    exact (hpair.2.2 r h _ (mem_singleton_self _)).le
  · exact le_rfl

lemma Accepts.increasing (h : p.Accepts r) :
    (p.records ++ [r]).Pairwise (fun a b => a.observedAtNanoseconds < b.observedAtNanoseconds) := by
  refine pairwise_append.2 ⟨p.increasing,pairwise_singleton _ _,?_⟩
  intro a ha b hb
  rw [mem_singleton.1 hb]
  exact (p.observedAt_le_last ha).trans_lt (h.resolve_left (ne_nil_of_mem ha))

/-- A record is kept if something is required and it is newer than what is there. -/
def push (p : PairHistory) (r : StreamHistoryRecord) : PairHistory :=
  if h : p.depth ≠ 0 ∧ p.Accepts r then
    { depth := p.depth
      records := p.records ++ [r]
      dropped := max p.dropped (redundantChunks (p.records.length + 1) p.depth)
      depth_le := p.depth_le
      increasing := h.2.increasing
      records_eq_nil := fun h0 => absurd h0 h.1
      dropped_lt := by
        have := p.dropped_lt
        have := h.1
        simp only [redundantChunks,maxHistoryChunkRecords,length_append,length_singleton] at *
        omega
      covered := by
        simp only [redundantChunks,maxHistoryChunkRecords,length_append,length_singleton]
        omega }
  else p

def retained (p : PairHistory) : ℕ := p.records.length - maxHistoryChunkRecords * p.dropped

def newest (p : PairHistory) (n : ℕ) : List StreamHistoryRecord := p.records.drop (p.records.length - n)

def answer (p : PairHistory) (n : ℕ) : Except HistoryError (List StreamHistoryRecord) :=
  if p.retained < n then .error (.insufficient p.retained n) else .ok (p.newest n)

lemma mem_of_mem_setDepth {d : ℕ} {hd : (d : ℤ) ≤ maxHistoryRecordsPerPair}
    (h : r ∈ (p.setDepth d hd).records) : r ∈ p.records := by
  unfold setDepth at h
  split_ifs at h with h0
  · exact absurd h not_mem_nil
  · exact h

lemma mem_push {r' : StreamHistoryRecord} (h : r' ∈ (p.push r).records) : r' ∈ p.records ∨ r' = r := by
  unfold push at h
  split_ifs at h
  · simpa using h
  · exact .inl h

def sequences (p : PairHistory) : List ℕ := Blocks.indices maxHistoryChunkRecords p.records p.dropped

def chunk (p : PairHistory) (i : ℕ) : StreamHistoryChunk := ⟨i,Blocks.block maxHistoryChunkRecords p.records i⟩

end PairHistory

def StreamHistoryChunk.first (c : StreamHistoryChunk) : ℕ :=
  (c.records.head?.map StreamHistoryRecord.observedAtNanoseconds).getD 0

/-- The header of a window over some records that starts with chunk `f`. -/
def headerOf (d : ℕ) (records : List StreamHistoryRecord) (f : ℕ) : StreamHistoryHeader where
  requiredCount := d
  firstSequence := f
  counts := (Blocks.indices maxHistoryChunkRecords records f).map
    (fun i => (Blocks.block maxHistoryChunkRecords records i).length)
  chunkFirst := (Blocks.indices maxHistoryChunkRecords records f).map
    (fun i => StreamHistoryChunk.first ⟨i,Blocks.block maxHistoryChunkRecords records i⟩)
  last := (records.getLast?.map StreamHistoryRecord.observedAtNanoseconds).getD 0

def PairHistory.header (p : PairHistory) : StreamHistoryHeader := headerOf p.depth p.records p.dropped

end DataStreams
