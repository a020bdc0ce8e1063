import DataStreams.Protocol.StreamValueWire

/-! Past values of a stream, stored as a header and a ring of chunks. -/
namespace DataStreams
/-- How an operation on stream history fails. Stored state is untrusted: a window that does
not decode or contradicts itself is `corrupt`. -/
inductive HistoryError
  | corrupt (cause : String)
  | insufficient (held needed : ℕ)
  | notLoaded (sequence : ℕ)
  | tooLarge (size : ℕ)
  | alreadyAppended
  | failure (cause : String)
  | panic (cause : String)
  deriving DecidableEq, Repr

structure StreamHistoryRecord where
  observedAtNanoseconds : ℕ
  value : StreamValue
  deriving DecidableEq, Repr

/-- Consecutive records, oldest first. The sequence is the absolute index of the chunk in
its window; the key it is stored under has only its slot. -/
structure StreamHistoryChunk where
  sequence : ℕ
  records : List StreamHistoryRecord
  deriving DecidableEq, Repr

/-- Record counts and start times of the retained chunks, oldest first. The message on the
wire has the same fields. -/
@[ext]
structure StreamHistoryHeader where
  requiredCount : ℕ
  firstSequence : ℕ
  counts : List ℕ
  chunkFirst : List ℕ
  last : ℕ
  deriving DecidableEq, Repr

def historyChunkSlot (sequence : ℕ) : ℕ := sequence % maxHistoryChunkSlots

def StreamHistoryChunk.slot (c : StreamHistoryChunk) : ℕ := historyChunkSlot c.sequence

structure HistoryRecordProto where
  observedAtNanoseconds : ℕ
  value : Option StreamValueProto
  deriving DecidableEq

structure HistoryChunkProto where
  sequence : ℕ
  records : List HistoryRecordProto
  deriving DecidableEq

def marshalHistoryRecord (r : HistoryRecordProto) : Bytes :=
  protoVarint 1 r.observedAtNanoseconds ++ r.value.elim [] (fun v => protoBytes 2 (marshalStreamValue v))

def marshalHistoryChunk (c : HistoryChunkProto) : Bytes :=
  protoVarint 1 c.sequence ++ c.records.flatMap (fun r => protoBytes 2 (marshalHistoryRecord r))

def marshalHistoryHeader (h : StreamHistoryHeader) : Bytes :=
  protoVarint 1 h.requiredCount ++ protoVarint 2 h.firstSequence ++ protoOptionalBytes 3 (packUvarints h.counts) ++
    protoOptionalBytes 4 (packUvarints h.chunkFirst) ++ protoVarint 5 h.last

variable (decimal : DecimalEncoder)
def historyRecordToProto (r : StreamHistoryRecord) :
    Except String HistoryRecordProto := do
  let value ← streamValueToProto decimal r.value
  .ok ⟨r.observedAtNanoseconds,some value⟩

def historyRecordSize (r : StreamHistoryRecord) : Except String ℕ := do
  let pb ← historyRecordToProto decimal r
  .ok (marshalHistoryRecord pb).length

def StreamHistoryChunk.toProto (c : StreamHistoryChunk) :
    Except String HistoryChunkProto := do
  let records ← c.records.mapM (historyRecordToProto decimal)
  .ok ⟨c.sequence,records⟩

def chunkRecordsFromProto (W : WireLibs) (sequence : ℕ) :
    ℕ → Option ℕ → List HistoryRecordProto → Except HistoryError (List StreamHistoryRecord)
  | _,_,[] => .ok []
  | i,prev,rec :: rest =>
    if prev.any (fun p => rec.observedAtNanoseconds ≤ p) then
      .error (.corrupt s!"chunk {sequence} record {i} timestamp {rec.observedAtNanoseconds} is not strictly after {prev.getD 0}")
    else if (marshalHistoryRecord rec).length > maxHistoryRecordBytes then
      .error (.corrupt s!"chunk {sequence} record {i} is {(marshalHistoryRecord rec).length} bytes, exceeding the maximum of {maxHistoryRecordBytes}")
    else
      match unmarshalProtoStreamValue W rec.value with
      | .error e => .error (.corrupt s!"chunk {sequence} record {i}: {e}")
      | .ok v => do
        let records ← chunkRecordsFromProto W sequence (i + 1) (some rec.observedAtNanoseconds) rest
        .ok (⟨rec.observedAtNanoseconds,v⟩ :: records)

/-- The checks that need no header. -/
def streamHistoryChunkFromProto (W : WireLibs) (pb : HistoryChunkProto) : Except HistoryError StreamHistoryChunk :=
  if pb.records.length = 0 then .error (.corrupt s!"chunk {pb.sequence} holds no records")
  else if pb.records.length > maxHistoryChunkRecords then
    .error (.corrupt s!"chunk {pb.sequence} holds {pb.records.length} records, exceeding MaxHistoryChunkRecords {maxHistoryChunkRecords}")
  else do
    let records ← chunkRecordsFromProto W pb.sequence 0 none pb.records
    .ok ⟨pb.sequence,records⟩

def checkChunks : ℕ → Option ℕ → List (ℕ × ℕ) → Except HistoryError Unit
  | _,_,[] => .ok ()
  | i,prev,(count,first) :: rest =>
    if count = 0 then .error (.corrupt s!"chunk {i} holds no records")
    else if count > maxHistoryChunkRecords then
      .error (.corrupt s!"chunk {i} holds {count} records, exceeding MaxHistoryChunkRecords {maxHistoryChunkRecords}")
    else if rest ≠ [] ∧ count ≠ maxHistoryChunkRecords then
      .error (.corrupt s!"sealed chunk {i} holds {count} records, expected {maxHistoryChunkRecords}")
    else if prev.any (fun p => first ≤ p) then
      .error (.corrupt s!"chunk {i} starts at {first}, which is not strictly after {prev.getD 0}")
    else checkChunks (i + 1) (some first) rest

/-- The newest chunk ends the window. -/
def checkNewest (count first last : ℕ) : Except HistoryError Unit :=
  if count = 1 ∧ first ≠ last then
    .error (.corrupt s!"single-record newest chunk starts at {first} but the window ends at {last}")
  else if first > last then .error (.corrupt s!"newest chunk starts at {first}, after the window end {last}")
  else .ok ()

/-- Retention keeps as few whole chunks as cover the required depth. -/
def checkRetention (required total oldest : ℕ) : Except HistoryError Unit :=
  if total - oldest ≥ required then
    .error (.corrupt s!"{total} records retained for a required depth of {required}; the oldest chunk ({oldest} records) is redundant")
  else if total ≥ required + maxHistoryChunkRecords then
    .error (.corrupt s!"{total} records retained exceeds the required depth {required} by a whole chunk")
  else .ok ()

def streamHistoryHeaderFromProto (pb : StreamHistoryHeader) : Except HistoryError StreamHistoryHeader :=
  if (pb.requiredCount : ℤ) > maxHistoryRecordsPerPair then
    .error (.corrupt s!"requiredCount {pb.requiredCount} exceeds MaxHistoryRecordsPerPair {maxHistoryRecordsPerPair}")
  else if pb.counts.length ≠ pb.chunkFirst.length then
    .error (.corrupt s!"{pb.counts.length} counts but {pb.chunkFirst.length} chunk timestamps")
  else if pb.counts.length > maxHistoryChunkSlots then
    .error (.corrupt s!"{pb.counts.length} retained chunks exceeds MaxHistoryChunkSlots {maxHistoryChunkSlots}")
  else if pb.counts.length = 0 then
    if pb.firstSequence ≠ 0 ∨ pb.last ≠ 0 then
      .error (.corrupt s!"empty window with firstSequence {pb.firstSequence} and last timestamp {pb.last}")
    else .ok pb
  else if pb.firstSequence > 2 ^ 64 - 1 - pb.counts.length then
    .error (.corrupt s!"firstSequence {pb.firstSequence} overflows with {pb.counts.length} chunks")
  else do
    checkChunks 0 none (pb.counts.zip pb.chunkFirst)
    checkNewest (pb.counts.getLast?.getD 0) (pb.chunkFirst.getLast?.getD 0) pb.last
    checkRetention pb.requiredCount pb.counts.sum (pb.counts.head?.getD 0)
    .ok pb

namespace StreamHistoryHeader
def empty : StreamHistoryHeader := ⟨0,0,[],[],0⟩

def total (h : StreamHistoryHeader) : ℕ := h.counts.sum

def index (h : StreamHistoryHeader) (sequence : ℕ) : Option ℕ :=
  if sequence < h.firstSequence then none
  else if sequence - h.firstSequence ≥ h.counts.length then none
  else some (sequence - h.firstSequence)

end StreamHistoryHeader

/-- What a round's changes mean for storage. -/
structure RingWriteSet where
  header : Option StreamHistoryHeader
  chunk : Option StreamHistoryChunk
  deletedSlots : List ℕ

structure RingWindow where
  header : StreamHistoryHeader
  chunks : SortedMap ℕ StreamHistoryChunk
  deleted : List ℕ
  headerDirty : Bool
  dirtyChunk : Option StreamHistoryChunk
  stored : Bool

def RingWriteSet.isEmpty (s : RingWriteSet) : Bool :=
  s.header.isNone && s.chunk.isNone && s.deletedSlots.isEmpty

def newRingWindow (header : Option StreamHistoryHeader) : RingWindow :=
  ⟨header.getD .empty,∅,[],false,none,false⟩

/-- An empty working copy whose write set deletes every slot. -/
def resetRingWindow : RingWindow :=
  { newRingWindow none with headerDirty := true, deleted := List.range maxHistoryChunkSlots }

namespace RingWindow
def requiredCount (w : RingWindow) : ℕ := w.header.requiredCount

variable (w : RingWindow)
/-- The newest chunk is needed to append when it has room left. -/
def appendPlan : List ℕ :=
  if w.header.requiredCount = 0 then []
  else
    match w.header.counts.getLast? with
    | none => []
    | some count =>
      if count ≥ maxHistoryChunkRecords then []
      else [w.header.firstSequence + (w.header.counts.length - 1)]

def chunksCovering : List ℕ → ℕ → ℕ → ℕ
  | [],_,_ => 0
  | count :: older,acc,n => if acc + count ≥ n then 1 else chunksCovering older (acc + count) n + 1

/-- The sequences that cover the newest `n` records, oldest first. -/
def readPlan (n : ℕ) : Except HistoryError (List ℕ) :=
  if n = 0 then .ok []
  else if w.header.total < n then .error (.insufficient w.header.total n)
  else
    let taken := chunksCovering w.header.counts.reverse 0 n
    .ok (List.range' (w.header.firstSequence + (w.header.counts.length - taken)) taken)

def loaded (sequence : ℕ) : Bool := (w.chunks.get? sequence).isSome

/-- Takes a stored chunk, checked against the header. A chunk left behind by an earlier lap
of the ring carries a sequence that is no longer retained. -/
def provide (chunk : StreamHistoryChunk) : Except HistoryError RingWindow :=
  match w.header.index chunk.sequence with
  | none => .error (.corrupt s!"chunk sequence {chunk.sequence} is not retained ({w.header.counts.length} chunks from {w.header.firstSequence})")
  | some i =>
    if chunk.records.length ≠ w.header.counts.getD i 0 then
      .error (.corrupt s!"chunk {chunk.sequence} holds {chunk.records.length} records, header says {w.header.counts.getD i 0}")
    else
      match chunk.records.head?,chunk.records.getLast? with
      | some first,some newest =>
        if first.observedAtNanoseconds ≠ w.header.chunkFirst.getD i 0 then
          .error (.corrupt s!"chunk {chunk.sequence} starts at {first.observedAtNanoseconds}, header says {w.header.chunkFirst.getD i 0}")
        else if i + 1 = w.header.counts.length ∧ newest.observedAtNanoseconds ≠ w.header.last then
          .error (.corrupt s!"newest chunk {chunk.sequence} ends at {newest.observedAtNanoseconds}, header says {w.header.last}")
        else .ok { w with chunks := w.chunks.insert chunk.sequence chunk }
      | _,_ => .error (.panic "index out of range")

/-- Adds the records of a planned chunk, which must start after the ones before it. -/
def joinChunk (records : List StreamHistoryRecord) (sequence : ℕ) :
    Except HistoryError (List StreamHistoryRecord) :=
  match w.chunks.get? sequence with
  | none => .error (.notLoaded sequence)
  | some chunk =>
    match records.getLast?,chunk.records.head? with
    | none,_ => .ok (records ++ chunk.records)
    | some _,none => .error (.panic "index out of range")
    | some prev,some first =>
      if first.observedAtNanoseconds ≤ prev.observedAtNanoseconds then
        .error (.corrupt s!"chunk {sequence} starts at {first.observedAtNanoseconds}, which is not strictly after {prev.observedAtNanoseconds}")
      else .ok (records ++ chunk.records)

def newest (n : ℕ) : Except HistoryError (List StreamHistoryRecord) := do
  let sequences ← w.readPlan n
  if n = 0 then .ok []
  else do
    let records ← sequences.foldlM w.joinChunk []
    if records.length < n then .error (.panic "slice bounds out of range")
    else .ok (records.drop (records.length - n))

def dropOldest : RingWindow :=
  { w with
    header := { w.header with
      firstSequence := w.header.firstSequence + 1
      counts := w.header.counts.tail
      chunkFirst := w.header.chunkFirst.tail }
    chunks := w.chunks.erase w.header.firstSequence
    deleted := w.deleted ++ [historyChunkSlot w.header.firstSequence]
    headerDirty := true }

/-- An empty window is zero in every field but the capacity. -/
def clear : RingWindow :=
  { w with header := { StreamHistoryHeader.empty with requiredCount := w.header.requiredCount } }

def evictFrom : ℕ → RingWindow → RingWindow
  | 0,w => if w.header.counts = [] then w.clear else w
  | fuel + 1,w =>
    match w.header.counts with
    | [] => w.clear
    | count :: _ =>
      if w.header.total - count < w.header.requiredCount then w else evictFrom fuel w.dropOldest

def evict : RingWindow := evictFrom w.header.counts.length w

/-- Sets the capacity and drops the chunks it no longer needs. -/
def setRequiredCount (requiredCount : ℕ) : Except HistoryError RingWindow :=
  if (requiredCount : ℤ) > maxHistoryRecordsPerPair then
    .error (.failure s!"requiredCount {requiredCount} exceeds MaxHistoryRecordsPerPair {maxHistoryRecordsPerPair}")
  else if w.header.requiredCount = requiredCount then .ok w
  else .ok (evict { w with header := { w.header with requiredCount := requiredCount }, headerDirty := true })

def push (counts chunkFirst : List ℕ) (sequence : ℕ) (records : List StreamHistoryRecord)
    (r : StreamHistoryRecord) : RingWindow :=
  let tail : StreamHistoryChunk := ⟨sequence,records ++ [r]⟩
  evict { w with
    header := { w.header with counts := counts, chunkFirst := chunkFirst, last := r.observedAtNanoseconds }
    chunks := w.chunks.insert sequence tail
    headerDirty := true
    dirtyChunk := some tail
    stored := true }

def pushNew (r : StreamHistoryRecord) : Except HistoryError RingWindow :=
  if w.header.counts.length ≥ maxHistoryChunkSlots then
    .error (.corrupt s!"{w.header.counts.length} chunks retained, no free ring slot")
  else .ok (w.push (w.header.counts ++ [1]) (w.header.chunkFirst ++ [r.observedAtNanoseconds])
    (w.header.firstSequence + w.header.counts.length) [] r)

/-- Puts a record in the newest chunk, if it has room, or in a new one. -/
def place (r : StreamHistoryRecord) : Except HistoryError RingWindow :=
  match w.header.counts.getLast? with
  | none => w.pushNew r
  | some count =>
    if count < maxHistoryChunkRecords then
      let sequence := w.header.firstSequence + (w.header.counts.length - 1)
      match w.chunks.get? sequence with
      | none => .error (.notLoaded sequence)
      | some tail =>
        .ok (w.push (w.header.counts.dropLast ++ [count + 1]) w.header.chunkFirst sequence tail.records r)
    else w.pushNew r

/-- Appends a record that is strictly newer than the newest one, at most one in a round.
Whether it was stored is part of the result. -/
def append (decimal : DecimalEncoder) (w : RingWindow) (r : StreamHistoryRecord) :
    Except HistoryError (Bool × RingWindow) :=
  if w.stored then .error .alreadyAppended
  else if w.header.requiredCount = 0 then .ok (false,w)
  else if w.header.counts ≠ [] ∧ r.observedAtNanoseconds ≤ w.header.last then .ok (false,w)
  else
    match historyRecordSize decimal r with
    | .error e => .error (.failure e)
    | .ok size =>
      if size > maxHistoryRecordBytes then .error (.tooLarge size)
      else do .ok (true,← w.place r)

/-- At most one header, the newest chunk and the slots to delete. The slot that is written
is not deleted. -/
def writeSet : RingWriteSet where
  header := if w.headerDirty then some w.header else none
  chunk := w.dirtyChunk
  deletedSlots := (w.deleted.dedup.filter (fun slot => w.dirtyChunk.map StreamHistoryChunk.slot ≠ some slot)).insertionSort
    (· ≤ ·)

end RingWindow
end DataStreams
