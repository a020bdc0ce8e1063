import Mathlib.Data.Prod.Lex
import DataStreams.Calculated.Series
import DataStreams.Protocol.ChannelVotes
import DataStreams.Protocol.HistoryReadBack
import DataStreams.V31.PayloadCodec

/-! The working set of history windows of one round. Whatever is stored may be corrupt. -/
namespace DataStreams.V31
open Function

/-- A stream and the number of an aggregator. -/
structure HistKey where
  streamID : StreamID
  aggregator : ℕ
  deriving DecidableEq, Repr

def HistKey.toProd (k : HistKey) : ℕ ×ₗ ℕ := toLex (k.streamID,k.aggregator)

lemma HistKey.toProd_injective : Injective HistKey.toProd := by
  rintro ⟨_,_⟩ ⟨_,_⟩ h
  cases h
  rfl

/-- By stream, then by aggregator. -/
instance : LinearOrder HistKey := LinearOrder.lift' HistKey.toProd HistKey.toProd_injective

/-- The keys of the replicated state that belong to stream history. -/
structure HistoryKV where
  header : HistKey → Option Bytes
  chunk : HistKey → ℕ → Option Bytes
  index : Option Bytes
  version : Option Bytes

def HistoryKV.empty : HistoryKV := ⟨fun _ => none,fun _ _ => none,none,none⟩

structure HistoryLibs where
  wire : WireLibs
  marshalDecimal : DecimalEncoder
  zstd : Bytes → Bytes
  unmarshalHeader : Bytes → Except String StreamHistoryHeader
  unmarshalChunk : Bytes → Except String HistoryChunkProto

def readKey (value : Option Bytes) : Bytes := value.getD []

/-- A record that is not framed as it should be is corrupt. -/
def asCorrupt {α : Type} : Go α → Except HistoryError α
  | .ok a => .ok a
  | .error (.error e) => .error (.corrupt e)
  | .error (.panic e) => .error (.panic e)

def asFailure {α : Type} : Except String α → Except HistoryError α
  | .ok a => .ok a
  | .error e => .error (.failure e)

def unmarshalStreamHistoryHeader (L : HistoryLibs) (data : Bytes) : Except HistoryError StreamHistoryHeader :=
  match L.unmarshalHeader data with
  | .error e => .error (.corrupt e)
  | .ok pb => streamHistoryHeaderFromProto pb

def unmarshalStreamHistoryChunk (L : HistoryLibs) (data : Bytes) : Except HistoryError StreamHistoryChunk :=
  match L.unmarshalChunk data with
  | .error e => .error (.corrupt e)
  | .ok pb => streamHistoryChunkFromProto L.wire pb

def readRecord {α : Type} (L : HistoryLibs) (decode : Bytes → Except HistoryError α) (what : String) (value : Option Bytes) :
    Except HistoryError (Option α) :=
  if readKey value = [] then .ok none
  else do
    let raw ← asCorrupt (decodeKVRecord L.wire (readKey value) what)
    .ok (some (← decode raw))

def readHistoryHeader (L : HistoryLibs) (kv : HistoryKV) (k : HistKey) : Except HistoryError (Option StreamHistoryHeader) :=
  readRecord L (unmarshalStreamHistoryHeader L) "history header" (kv.header k)

def readHistoryChunk (L : HistoryLibs) (kv : HistoryKV) (k : HistKey) (slot : ℕ) :
    Except HistoryError (Option StreamHistoryChunk) :=
  readRecord L (unmarshalStreamHistoryChunk L) "history chunk" (kv.chunk k slot)

def encodeHistoryHeader (L : HistoryLibs) (h : StreamHistoryHeader) : Except String Bytes :=
  encodeKVRecord L.zstd (marshalHistoryHeader h) "history header"

def encodeHistoryChunk (L : HistoryLibs) (c : StreamHistoryChunk) : Except String Bytes := do
  let pb ← c.toProto L.marshalDecimal
  encodeKVRecord L.zstd (marshalHistoryChunk pb) "history chunk"

namespace HistoryKV
def setHeader (kv : HistoryKV) (k : HistKey) (value : Option Bytes) : HistoryKV :=
  { kv with header := update kv.header k value }

def setChunk (kv : HistoryKV) (k : HistKey) (slot : ℕ) (value : Option Bytes) : HistoryKV :=
  { kv with chunk := update kv.chunk k (update (kv.chunk k) slot value) }

end HistoryKV

def writeHistoryHeader (L : HistoryLibs) (kv : HistoryKV) (k : HistKey) (h : StreamHistoryHeader) :
    Except HistoryError HistoryKV := do
  let b ← asFailure (encodeHistoryHeader L h)
  .ok (kv.setHeader k (some b))

def writeHistoryChunk (L : HistoryLibs) (kv : HistoryKV) (k : HistKey) (c : StreamHistoryChunk) :
    Except HistoryError HistoryKV := do
  let b ← asFailure (encodeHistoryChunk L c)
  .ok (kv.setChunk k c.slot (some b))

def deleteHistoryHeader (kv : HistoryKV) (k : HistKey) : HistoryKV := kv.setHeader k none

def deleteHistoryChunk (kv : HistoryKV) (k : HistKey) (slot : ℕ) : HistoryKV := kv.setChunk k slot none

def historyLayoutVersion : UInt8 := 1

def readHistoryLayoutVersion (kv : HistoryKV) : UInt8 :=
  match readKey kv.version with
  | [version] => version
  | _ => 0

def encodeHistoryIndex (keys : List HistKey) : Bytes :=
  (keys.insertionSort (· ≤ ·)).flatMap (fun k => beU32 k.streamID ++ beU32 k.aggregator)

/-- Pairs of eight bytes each; a partial one at the end is ignored. -/
def decodeHistoryIndex (b : Bytes) : Except String (List HistKey) :=
  let n := b.length / 8
  if n > maxHistoryPairs then .error s!"history index holds {n} pairs, exceeds max {maxHistoryPairs}"
  else .ok ((List.range n).map (fun i =>
    ⟨ofBigEndian ((b.drop (8 * i)).take 4),ofBigEndian ((b.drop (8 * i + 4)).take 4)⟩))

def readHistoryIndex (kv : HistoryKV) : Except String (List HistKey) := decodeHistoryIndex (readKey kv.index)

structure HistoryStore where
  windows : SortedMap HistKey RingWindow
  required : SortedMap HistKey ℕ
  index : SortedMap HistKey Unit
  corrupt : SortedMap HistKey Unit
  layoutReset : Bool
  abandoned : ℕ

/-- Under another layout every indexed pair starts over. -/
def newHistoryStore (kv : HistoryKV) : Except HistoryError HistoryStore := do
  let keys ← asFailure (readHistoryIndex kv)
  let layoutReset := readHistoryLayoutVersion kv ≠ historyLayoutVersion
  .ok {
    windows := if layoutReset then .ofList (keys.map (fun k => (k,resetRingWindow))) else ∅
    required := ∅
    index := .setOf keys
    corrupt := ∅
    layoutReset := layoutReset
    abandoned := if layoutReset then keys.length else 0 }

namespace HistoryStore
variable (s : HistoryStore)
def setWindow (k : HistKey) (w : RingWindow) : HistoryStore :=
  { s with windows := s.windows.insert k w }

/-- A window that deletes its ring, with the depth admitted for it in this round. -/
def resetWindow (k : HistKey) : RingWindow :=
  match s.required.get? k with
  | none => resetRingWindow
  | some n =>
    if n > 0 then
      match resetRingWindow.setRequiredCount n with
      | .ok w => w
      | .error _ => resetRingWindow
    else resetRingWindow

def reset (k : HistKey) : HistoryStore :=
  { s with
    corrupt := s.corrupt.insert k ()
    windows := s.windows.insert k (s.resetWindow k) }

variable (L : HistoryLibs) (kv : HistoryKV)
variable (s : HistoryStore)
def window (k : HistKey) : Except HistoryError (HistoryStore × RingWindow) :=
  match s.windows.get? k with
  | some w => .ok (s,w)
  | none =>
    match readHistoryHeader L kv k with
    | .ok header => .ok (s.setWindow k (newRingWindow header),newRingWindow header)
    | .error (.corrupt _) => .ok (s.reset k,s.resetWindow k)
    | .error e => .error e

/-- Reads the chunks a window needs. A chunk that is missing or does not fit the header
makes the pair start over. -/
def provide (k : HistKey) : HistoryStore → RingWindow → List ℕ → Except HistoryError (HistoryStore × RingWindow)
  | s,w,[] => .ok (s,w)
  | s,w,sequence :: rest =>
    if w.loaded sequence then provide k s w rest
    else
      match readHistoryChunk L kv k (historyChunkSlot sequence) with
      | .error (.corrupt _) => .ok (s.reset k,s.resetWindow k)
      | .error e => .error e
      | .ok none => .ok (s.reset k,s.resetWindow k)
      | .ok (some chunk) =>
        match w.provide chunk with
        | .ok w' => provide k (s.setWindow k w') w' rest
        | .error (.panic e) => .error (.panic e)
        | .error _ => .ok (s.reset k,s.resetWindow k)

def records (s : HistoryStore) (k : HistKey) (count : ℕ) : HistoryStore × Except HistoryError (List StreamHistoryRecord) :=
  match s.window L kv k with
  | .error e => (s,.error e)
  | .ok (s₁,w) =>
    match w.readPlan count with
    | .error e => (s₁,.error e)
    | .ok sequences =>
      match provide L kv k s₁ w sequences with
      | .error e => (s₁,.error e)
      | .ok (s₂,w₂) =>
        match w₂.newest count with
        | .ok records => (s₂,.ok records)
        | .error (.corrupt e) => (s₂.reset k,.error (.corrupt e))
        | .error e => (s₂,.error e)

def series (k : HistKey) (count : ℕ) (field : Field) : HistoryStore × Except HistoryError Series :=
  let (s',result) := s.records L kv k count
  (s',result.bind (fun records => asFailure (seriesFromRecords records field)))

/-- Sets the depth a pair is required to have in this round; zero makes Flush delete it. -/
def setRequired (k : HistKey) (n : ℕ) : Except HistoryError HistoryStore := do
  let (s₁,w) ← ({ s with required := s.required.insert k n } : HistoryStore).window L kv k
  let w' ← w.setRequiredCount n
  .ok (s₁.setWindow k w')

/-- Records the agreed value of a round. -/
def append (s : HistoryStore) (k : HistKey) (r : StreamHistoryRecord) : HistoryStore × Except HistoryError Bool :=
  match s.window L kv k with
  | .error e => (s,.error e)
  | .ok (s₁,w) =>
    match provide L kv k s₁ w w.appendPlan with
    | .error e => (s₁,.error e)
    | .ok (s₂,w₂) =>
      match w₂.append L.marshalDecimal r with
      | .error e => (s₂,.error e)
      | .ok (appended,w₃) => (s₂.setWindow k w₃,.ok appended)

/-- What Flush has done so far: the keys, the index and whether it changed. -/
structure FlushState where
  kv : HistoryKV
  index : SortedMap HistKey Unit
  indexChanged : Bool

/-- The writes of a window come before its deletes. -/
def applyWriteSet (L : HistoryLibs) (kv : HistoryKV) (k : HistKey) (set : RingWriteSet) : Except HistoryError HistoryKV := do
  let kv ← set.header.elim (.ok kv) (writeHistoryHeader L kv k)
  let kv ← set.chunk.elim (.ok kv) (writeHistoryChunk L kv k)
  .ok (set.deletedSlots.foldl (fun kv slot => deleteHistoryChunk kv k slot) kv)

def flushWindow (L : HistoryLibs) (st : FlushState) (e : HistKey × RingWindow) : Except HistoryError FlushState :=
  if e.2.requiredCount = 0 then .ok st
  else if e.2.writeSet.isEmpty then .ok st
  else do
    let kv ← applyWriteSet L st.kv e.1 e.2.writeSet
    .ok ⟨kv,st.index.insert e.1 (),st.indexChanged || !st.index.contains e.1⟩

/-- Indexed pairs that nothing requires. -/
def orphans (index : SortedMap HistKey Unit) : List HistKey :=
  index.keys.filter (fun k => !(s.windows.get? k).any (fun w => w.requiredCount > 0))

def allHistoryChunkSlots : List ℕ := List.range maxHistoryChunkSlots

/-- The slots to delete with a pair: those its window names, or all if it was not touched. -/
def doomedSlots (k : HistKey) : List ℕ :=
  match s.windows.get? k with
  | some w => w.writeSet.deletedSlots
  | none => allHistoryChunkSlots

def deleteWindow (kv : HistoryKV) (k : HistKey) : HistoryKV :=
  (s.doomedSlots k).foldl (fun kv slot => deleteHistoryChunk kv k slot) (deleteHistoryHeader kv k)

def deleteOrphan (st : FlushState) (k : HistKey) : FlushState :=
  ⟨s.deleteWindow st.kv k,st.index.erase k,true⟩

/-- Rewrites the index if it changed, and records the layout with it. -/
def writeIndex (st : FlushState) : HistoryKV :=
  if st.indexChanged then
    { st.kv with
      index := some (encodeHistoryIndex st.index.keys)
      version := if s.layoutReset then some [historyLayoutVersion] else st.kv.version }
  else st.kv

def flush (L : HistoryLibs) (s : HistoryStore) (kv : HistoryKV) : Except HistoryError HistoryKV := do
  let written ← s.windows.entries.foldlM (flushWindow L) ⟨kv,s.index,decide (s.abandoned > 0)⟩
  let swept := (s.orphans written.index).foldl s.deleteOrphan written
  .ok (s.writeIndex swept)

end HistoryStore
end DataStreams.V31
