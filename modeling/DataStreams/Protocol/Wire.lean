import DataStreams.Protocol.HistoryBackfill

/-! Protobuf messages as their decoded records. The libraries are parameters, and none of them
panics. -/
namespace DataStreams
open UInt8

inductive StreamValueType
  | decimal
  | quote
  | timestamped
  | other (code : ℕ)
  deriving DecidableEq, Repr

def StreamValue.type : StreamValue → StreamValueType
  | .decimal _ => .decimal
  | .quote _ => .quote
  | .timestamped _ _ => .timestamped

structure StreamValueProto where
  type : StreamValueType
  value : Bytes
  deriving DecidableEq

/-- An observation message. Map fields hold one value per key. -/
structure ObservationProto where
  attestedPredecessorRetirement : Bytes
  shouldRetire : Bool
  unixTimestampNanoseconds : ℕ
  unixTimestampNanosecondsLegacy : ℤ
  removeChannelIDs : List ChannelID
  updateChannelDefinitions : SortedMap ChannelID (Option ChannelDefinition)
  streamValues : SortedMap StreamID (Option StreamValueProto)
  supportedReportFormats : List ReportFormat
  predecessorSigners : List Bytes
  predecessorF : ℕ
  deriving DecidableEq

structure BlobPayloadProto where
  cycleStartSeqNr : ℕ
  streamValues : SortedMap StreamID (Option StreamValueProto)
  deriving DecidableEq

/-- Decoders outside the repository. -/
structure WireLibs where
  unmarshalObservation : Bytes → Except String ObservationProto
  unmarshalBlobPayload : Bytes → Except String BlobPayloadProto
  unmarshalQuote : Bytes → Except String (Bytes × Bytes × Bytes)
  unmarshalTimestamped : Bytes → Except String (ℕ × Option StreamValueProto)
  unmarshalDecimal : Bytes → Except String Decimal
  unmarshalBlobHandle : Bytes → Except String Unit
  /-- The content size a compressed frame declares, if any. -/
  zstdContentSize : Bytes → Except String (Option ℕ)
  zstdDecodeAll : Bytes → Except String Bytes

variable (W : WireLibs)
def unmarshalBinaryDecimal (data : Bytes) : Except String Decimal := do
  let d ← W.unmarshalDecimal data
  checkDecimalExponent d
  .ok d

def unmarshalBinaryQuote (data : Bytes) : Except String Quote := do
  let (bid,benchmark,ask) ← W.unmarshalQuote data
  let bid ← unmarshalBinaryDecimal W bid
  let benchmark ← unmarshalBinaryDecimal W benchmark
  let ask ← unmarshalBinaryDecimal W ask
  .ok ⟨bid,benchmark,ask⟩

def unmarshalNested (W : WireLibs) : ℕ → Option StreamValueProto → Except String StreamValue
  | _, none => .error "nil stream value"
  | levels, some enc =>
    match enc.type with
    | .decimal => do .ok (.decimal (← unmarshalBinaryDecimal W enc.value))
    | .quote => do .ok (.quote (← unmarshalBinaryQuote W enc.value))
    | .timestamped =>
      match levels with
      | 0 => do
        let t ← W.unmarshalTimestamped enc.value
        match t.2 with
        | none => .error "nil stream value"
        | some _ => .error s!"stream value nesting too deep: got more than {maxStreamValueNesting} levels"
      | levels + 1 => do
        let t ← W.unmarshalTimestamped enc.value
        let v ← unmarshalNested W levels t.2
        .ok (.timestamped t.1 v)
    | .other code => .error s!"cannot unmarshal protobuf stream value; unknown StreamValueType {code}"

def unmarshalProtoStreamValue (enc : Option StreamValueProto) :
    Except String StreamValue :=
  unmarshalNested W maxStreamValueNesting enc

/-- A value that arrived in a peer's observation. -/
def unmarshalObservedProtoStreamValue (enc : Option StreamValueProto) :
    Except String StreamValue := do
  let v ← unmarshalProtoStreamValue W enc
  checkObservedStreamValue v
  .ok v

def unmarshalStreamValues {V : Type}
    (value : Option StreamValueProto → Except String V) (values : SortedMap StreamID (Option StreamValueProto)) :
    Except String (SortedMap StreamID V) := do
  let decoded ← values.entries.mapM (fun e => do .ok (e.1,← value e.2))
  .ok (SortedMap.ofList decoded)

def nestsOnlyDecimal : StreamValue → Bool
  | .timestamped _ (.decimal _) => true
  | .timestamped _ _ => false
  | _ => true

def maxVarintLen64 : ℕ := 10

/-- The value of a variable-length integer at the front of the bytes and the number of
bytes it takes; `none` when it does not end or does not fit 64 bits. -/
def uvarintFrom : ℕ → ℕ → Bytes → Option (ℕ × ℕ)
  | _, _, [] => none
  | i, x, b :: rest =>
    if i = maxVarintLen64 then none
    else if b < 128 then
      if i = maxVarintLen64 - 1 ∧ 1 < b then none else some (x + b.toNat * 2 ^ (7 * i),i + 1)
    else uvarintFrom (i + 1) (x + (b.toNat - 128) * 2 ^ (7 * i)) rest

def uvarint (buf : Bytes) : Option (ℕ × ℕ) := uvarintFrom 0 0 buf

/-- The encoding of a number below `2 ^ 64`, seven bits a byte, lowest first. -/
def putUvarintFrom : ℕ → ℕ → Bytes
  | 0, n => [UInt8.ofNat n]
  | fuel + 1, n =>
    if n < 128 then [UInt8.ofNat n] else UInt8.ofNat (n % 128 + 128) :: putUvarintFrom fuel (n / 128)

def putUvarint (n : ℕ) : Bytes := putUvarintFrom (maxVarintLen64 - 1) n

def protoVarint (field n : ℕ) : Bytes :=
  if n = 0 then [] else putUvarint (8 * field) ++ putUvarint n

def protoBytes (field : ℕ) (b : Bytes) : Bytes :=
  putUvarint (8 * field + 2) ++ putUvarint b.length ++ b

def protoOptionalBytes (field : ℕ) (b : Bytes) : Bytes := if b = [] then [] else protoBytes field b

def protoMapEntry (field key : ℕ) (value : Bytes) : Bytes :=
  protoBytes field (putUvarint 8 ++ putUvarint key ++ protoBytes 2 value)

def marshalStreamDefinition (s : Stream) : Bytes :=
  protoVarint 1 s.streamID ++ protoVarint 2 s.aggregator.code

def marshalChannelDefinition (cd : ChannelDefinition) : Bytes :=
  protoVarint 1 cd.reportFormat.code ++
    cd.streams.flatMap (fun s => protoBytes 2 (marshalStreamDefinition s)) ++
    protoOptionalBytes 3 cd.opts ++ protoVarint 4 cd.tombstone.toNat ++ protoVarint 5 cd.source ++
    protoVarint 6 cd.disableNilStreamValues.toNat

/-- What the channel hash is taken of. -/
def marshalChannelIDAndDefinition (id : ChannelID) (cd : ChannelDefinition) : Bytes :=
  protoVarint 1 id ++ protoBytes 2 (marshalChannelDefinition cd)

/-- The encoding of the fields a v31 observation sets. -/
def marshalObservation (m : ObservationProto) : Bytes :=
  protoOptionalBytes 1 m.attestedPredecessorRetirement ++ protoVarint 2 m.shouldRetire.toNat ++
    protoOptionalBytes 4 (m.removeChannelIDs.flatMap putUvarint) ++
    m.updateChannelDefinitions.entries.flatMap (fun e =>
      protoMapEntry 5 e.1 (e.2.elim [] marshalChannelDefinition)) ++
    protoVarint 7 m.unixTimestampNanoseconds ++
    protoOptionalBytes 8 (m.supportedReportFormats.flatMap (fun f => putUvarint f.code)) ++
    m.predecessorSigners.flatMap (protoBytes 9) ++ protoVarint 10 m.predecessorF

def StreamValueType.code : StreamValueType → ℕ
  | .decimal => 0
  | .quote => 1
  | .timestamped => 2
  | .other code => code

def marshalStreamValue (v : StreamValueProto) : Bytes :=
  protoVarint 1 v.type.code ++ protoOptionalBytes 2 v.value

def StreamValue.marshalBinary (decimal : DecimalEncoder) : StreamValue → Except String Bytes
  | .decimal d => decimal d
  | .quote q => do
    let bid ← decimal q.bid
    let benchmark ← decimal q.benchmark
    let ask ← decimal q.ask
    .ok (protoOptionalBytes 1 bid ++ protoOptionalBytes 2 benchmark ++ protoOptionalBytes 3 ask)
  | .timestamped observedAt v => do
    let sv ← v.marshalBinary decimal
    .ok (protoVarint 1 observedAt ++ protoBytes 2 (marshalStreamValue ⟨v.type,sv⟩))

def marshalBlobPayload (p : BlobPayloadProto) : Bytes :=
  protoVarint 1 p.cycleStartSeqNr ++ p.streamValues.entries.flatMap (fun e => protoMapEntry 2 e.1
      (e.2.elim [] (fun v => protoVarint 1 v.type.code ++ protoOptionalBytes 2 v.value)))

lemma uvarintFrom_length {i x v n : ℕ} {buf : Bytes} (h : uvarintFrom i x buf = some (v,n)) :
    n ≤ i + buf.length := by
  induction buf generalizing i x with
  | nil => simp [uvarintFrom] at h
  | cons b rest ih =>
    simp only [uvarintFrom] at h
    split_ifs at h
    · simp only [Option.some.injEq,Prod.mk.injEq] at h
      simp only [List.length_cons]
      omega
    · have := ih h
      simp only [List.length_cons]
      omega

/-- An integer never takes more bytes than there are. -/
lemma uvarint_length {v n : ℕ} {buf : Bytes} (h : uvarint buf = some (v,n)) : n ≤ buf.length := by
  simpa using uvarintFrom_length h

/-- Numbers round trip through their variable-length form. -/
lemma uvarintFrom_putUvarintFrom (fuel : ℕ) : ∀ {i x n : ℕ} (rest : Bytes), i + fuel = maxVarintLen64 - 1 →
    n < 2 ^ (64 - 7 * i) → uvarintFrom i x (putUvarintFrom fuel n ++ rest) =
      some (x + n * 2 ^ (7 * i),i + (putUvarintFrom fuel n).length) := by
  have hsmall : ∀ {n : ℕ}, n < 128 → UInt8.ofNat n < 128 := by
    intro n hn
    rw [lt_iff_toNat_lt,toNat_ofNat']
    exact (Nat.mod_le _ _).trans_lt hn
  have hvalue : ∀ {n : ℕ}, n < 256 → (UInt8.ofNat n).toNat = n := by
    intro n hn
    rw [toNat_ofNat']
    exact Nat.mod_eq_of_lt hn
  induction fuel with
  | zero =>
    intro i x n rest hi hn
    obtain rfl : i = 9 := hi
    have hn : n < 2 := hn
    have hone : ¬ (1 : UInt8) < UInt8.ofNat n := by
      rw [lt_iff_toNat_lt,hvalue (by omega)]
      exact Nat.not_lt.2 (Nat.le_of_lt_succ hn)
    simp [putUvarintFrom,uvarintFrom,maxVarintLen64,hsmall (show n < 128 by omega),hone,hvalue (show n < 256 by omega)]
  | succ fuel ih =>
    intro i x n rest hi hn
    have hi : i + fuel + 1 = 9 := hi
    rw [putUvarintFrom]
    split_ifs with hlt
    · simp [uvarintFrom,maxVarintLen64,hsmall hlt,hvalue (show n < 256 by omega),show i ≠ 10 by omega,show i ≠ 9 by omega]
    · have hbig : ¬ UInt8.ofNat (n % 128 + 128) < 128 := by
        rw [lt_iff_toNat_lt,hvalue (by omega)]
        exact Nat.not_lt.2 (Nat.le_add_left 128 _)
      have hquot : n / 128 < 2 ^ (64 - 7 * (i + 1)) := by
        rw [Nat.div_lt_iff_lt_mul (by decide),show 128 = 2 ^ 7 from rfl,← Nat.pow_add]
        rwa [show 64 - 7 * (i + 1) + 7 = 64 - 7 * i by omega]
      have hsum : n % 128 * 2 ^ (7 * i) + n / 128 * 2 ^ (7 * (i + 1)) = n * 2 ^ (7 * i) := by
        rw [show 7 * (i + 1) = 7 * i + 7 by omega,Nat.pow_add,← Nat.mul_assoc,Nat.mul_right_comm,← Nat.add_mul]
        exact congrArg (· * 2 ^ (7 * i)) (Nat.mod_add_div' n 128)
      rw [List.cons_append,uvarintFrom,if_neg (by simp [maxVarintLen64]; omega),if_neg hbig,hvalue (by omega),
        Nat.add_sub_cancel,ih rest (by simp [maxVarintLen64]; omega) hquot,Nat.add_assoc x,hsum,List.length_cons]
      simp only [Option.some.injEq,Prod.mk.injEq,true_and]
      omega

/-- An encoded integer is read back, whatever follows it. -/
lemma uvarint_putUvarint {n : ℕ} (h : n < 2 ^ 64) (rest : Bytes) :
    uvarint (putUvarint n ++ rest) = some (n,(putUvarint n).length) := by
  have hv := uvarintFrom_putUvarintFrom (maxVarintLen64 - 1) (i := 0) (x := 0) rest (Nat.zero_add _) h
  simpa [uvarint,putUvarint] using hv
def wireOf (messages : List ObservationProto) (payloads : List BlobPayloadProto)
    (decimals : List (Bytes × Decimal)) : WireLibs where
  unmarshalObservation := fromTable (messages.map (fun m => (marshalObservation m,m)))
  unmarshalBlobPayload := fromTable (payloads.map (fun p => (marshalBlobPayload p,p)))
  unmarshalQuote _ := .error "malformed input"
  unmarshalTimestamped _ := .error "malformed input"
  unmarshalDecimal := fromTable decimals
  unmarshalBlobHandle _ := .ok ()
  zstdContentSize _ := .error "malformed input"
  zstdDecodeAll _ := .error "malformed input"

def jsonChannel : ChannelDefinition := ⟨.json,[⟨1,.median⟩],[],false,0,false⟩

def timestampMessage (ts : ℕ) (formats : List ReportFormat) : ObservationProto :=
  ⟨[],false,ts,0,[],∅,∅,formats,[],0⟩

def updateMessage (ts : ℕ) (id : ChannelID) (cd : ChannelDefinition) : ObservationProto :=
  { timestampMessage ts [.json] with updateChannelDefinitions := .ofList [(id,some cd)] }

end DataStreams
