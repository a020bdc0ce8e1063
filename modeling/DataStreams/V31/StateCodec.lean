import DataStreams.V31.Aggregate
import DataStreams.V31.BlobMemo
import DataStreams.V31.HistoryRuns
import DataStreams.V31.StateTransition

/-! The records of the replicated state are loaded again as they were written, in any order of
the maps. -/
namespace DataStreams
open List Go SortedMap

def Aggregator.ofCode : ℕ → Aggregator
  | 0 => .unset
  | 1 => .median
  | 2 => .mode
  | 3 => .quote
  | 4 => .calculated
  | code + 5 => .other (code + 5)

lemma Aggregator.ofCode_code {a : Aggregator} (h : a.OnWire) : ofCode a.code = a := by
  cases a with
  | other code =>
    obtain ⟨k,rfl⟩ := Nat.exists_eq_add_of_lt (h.2 code rfl)
    rw [code,show 4 + k + 1 = k + 5 by omega]
    rfl
  | _ => rfl

lemma SliceSort.sort_eq {α β : Type} [LinearOrder β] {less : α → α → Bool} (S : SliceSort) (key : α → β)
    (hless : ∀ a b, less a b = true ↔ key a < key b) {l sorted : List α} (hperm : l.Perm sorted)
    (hsorted : sorted.Pairwise (fun a b => key a < key b)) : S.sort less l = sorted := by
  have hsort := (S.perm less l).trans hperm
  apply hsort.eq_of_pairwise _ (S.sorted_by key hless l) (hsorted.imp le_of_lt)
  intro a b ha hb hab hba
  have hdistinct : (sorted.map key).Nodup := pairwise_map.2 (hsorted.imp ne_of_lt)
  exact inj_on_of_nodup_map hdistinct (hsort.mem_iff.1 ha) hb (le_antisymm hab hba)

namespace V31

structure StreamAggregateProto where
  streamID : StreamID
  streamValue : Option StreamValueProto
  aggregator : ℕ
  deriving DecidableEq

structure HotStateProto where
  observationTimestampNanoseconds : ℕ
  validAfterNanoseconds : List (ChannelID × ℕ)
  reportableChannelIDs : List ChannelID
  streamAggregates : List StreamAggregateProto
  recentAgreedTimestampsNanoseconds : List ℕ
  deriving DecidableEq

structure ChannelStateProto where
  channelDefinitions : List (ChannelID × Option ChannelDefinition)
  deriving DecidableEq

structure CodecSupportProto where
  oracles : List (ℕ × List ReportFormat)
  deriving DecidableEq

def marshalStreamAggregate (a : StreamAggregateProto) : Bytes :=
  protoVarint 1 a.streamID ++ a.streamValue.elim [] (fun v => protoBytes 2 (marshalStreamValue v)) ++
    protoVarint 3 a.aggregator

def marshalValidAfter (e : ChannelID × ℕ) : Bytes := protoVarint 1 e.1 ++ protoVarint 2 e.2

def marshalHotState (m : HotStateProto) : Bytes :=
  protoVarint 1 m.observationTimestampNanoseconds ++
    m.validAfterNanoseconds.flatMap (fun e => protoBytes 2 (marshalValidAfter e)) ++
    protoOptionalBytes 3 (m.reportableChannelIDs.flatMap putUvarint) ++
    m.streamAggregates.flatMap (fun a => protoBytes 4 (marshalStreamAggregate a)) ++
    protoOptionalBytes 5 (m.recentAgreedTimestampsNanoseconds.flatMap putUvarint)

def marshalChannelEntry (e : ChannelID × Option ChannelDefinition) : Bytes :=
  protoVarint 1 e.1 ++ e.2.elim [] (fun cd => protoBytes 2 (marshalChannelDefinition cd))

def marshalChannelState (m : ChannelStateProto) : Bytes :=
  m.channelDefinitions.flatMap (fun e => protoBytes 1 (marshalChannelEntry e))

def marshalCodecSupport (m : CodecSupportProto) : Bytes :=
  m.oracles.flatMap (fun e => protoBytes 1
    (protoVarint 1 e.1 ++ protoOptionalBytes 2 (e.2.flatMap (fun f => putUvarint f.code))))

/-- Libraries the records are written and read with. -/
structure StateLibs extends AggregateLibs where
  unmarshalHotState : Bytes → Except String HotStateProto
  unmarshalChannelState : Bytes → Except String ChannelStateProto
  unmarshalCodecSupport : Bytes → Except String CodecSupportProto

def readKVRecord (W : WireLibs) (value : Option Bytes) (what : String) : Go (Option Bytes) :=
  if readKey value = [] then .ok none
  else do
    let raw ← decodeKVRecord W (readKey value) what
    .ok (some raw)

/-- What the record of every round holds. -/
structure HotState where
  observationTimestampNs : ℕ
  validAfterNanoseconds : SortedMap ChannelID ℕ
  reportedLastRound : SortedMap ChannelID Unit
  carryForward : CarryForward
  recentAgreedTimestamps : List ℕ
  deriving DecidableEq

def HotState.empty : HotState := ⟨0,∅,∅,∅,[]⟩

/-- An order in which the maps of the record are listed. -/
structure HotState.Listing (h : HotState) where
  validAfter : List (ChannelID × ℕ)
  reportable : List ChannelID
  carry : List (Stream × TimestampedStreamValue)
  validAfter_perm : validAfter.Perm h.validAfterNanoseconds.entries
  reportable_perm : reportable.Perm h.reportedLastRound.keys
  carry_perm : carry.Perm h.carryForward.entries

def aggregateLess (a b : StreamAggregateProto) : Bool :=
  if a.streamID = b.streamID then a.aggregator < b.aggregator else a.streamID < b.streamID

def carryToProto (decimal : DecimalEncoder) (e : Stream × TimestampedStreamValue) :
    Except String StreamAggregateProto := do
  let pb ← streamValueToProto decimal e.2.toValue
  .ok ⟨e.1.streamID,some pb,e.1.aggregator.code⟩

/-- What is over the limit is dropped after sorting. -/
def hotStateToProto (L : StateLibs) (h : HotState) (listing : h.Listing) : Except String HotStateProto := do
  let aggregates ← listing.carry.mapM (carryToProto L.history.marshalDecimal)
  .ok { observationTimestampNanoseconds := h.observationTimestampNs
        validAfterNanoseconds := L.sort.sort (fun a b => a.1 < b.1) listing.validAfter
        reportableChannelIDs := L.sort.sort (fun a b => a < b) listing.reportable
        streamAggregates := (L.sort.sort aggregateLess aggregates).take maxPersistedAggregates
        recentAgreedTimestampsNanoseconds := h.recentAgreedTimestamps }

def writeHotState (L : StateLibs) (h : HotState) (listing : h.Listing) : Except String Bytes := do
  let pb ← hotStateToProto L h listing
  encodeKVRecord L.history.zstd (marshalHotState pb) "hot state"

/-- Only timestamped values are carried; anything else is discarded. -/
def carryFromProto (W : WireLibs) (carry : CarryForward) (sa : StreamAggregateProto) : Except String CarryForward := do
  match ← unmarshalProtoStreamValue W sa.streamValue with
  | .timestamped t v => .ok (carry.insert ⟨sa.streamID,.ofCode sa.aggregator⟩ ⟨t,v⟩)
  | _ => .ok carry

def hotStateFromProto (W : WireLibs) (m : HotStateProto) : Except String HotState := do
  let carry ← m.streamAggregates.foldlM (carryFromProto W) ∅
  .ok ⟨m.observationTimestampNanoseconds,.ofList m.validAfterNanoseconds,
    SortedMap.setOf m.reportableChannelIDs,carry,m.recentAgreedTimestampsNanoseconds⟩

def readHotState (L : StateLibs) (value : Option Bytes) : Go HotState := do
  match ← readKVRecord L.history.wire value "hot state" with
  | none => .ok .empty
  | some b => do
    let m ← Go.ofExcept (L.unmarshalHotState b)
    Go.ofExcept (hotStateFromProto L.history.wire m)

variable (S : SliceSort)
def channelStateToProto (listed : List DefinitionEntry) : ChannelStateProto where
  channelDefinitions := S.sort (fun a b => a.1 < b.1) (listed.map (fun e => (e.1,some e.2)))

def encodeChannelState (listed : List DefinitionEntry) : Bytes :=
  marshalChannelState (channelStateToProto S listed)

def definitionFromProto (defs : ChannelDefinitions) (e : ChannelID × Option ChannelDefinition) :
    Except String ChannelDefinitions :=
  match e.2 with
  | none => .error s!"nil channel definition for channel {e.1}"
  | some cd => .ok (defs.insert e.1 cd)

def decodeChannelState (L : StateLibs) (b : Option Bytes) : Except String ChannelDefinitions :=
  match b with
  | none => .ok ∅
  | some b => do
    let m ← L.unmarshalChannelState b
    m.channelDefinitions.foldlM definitionFromProto ∅

def writeChannelState (L : StateLibs) (listed : List DefinitionEntry) : Except String Bytes :=
  encodeKVRecord L.history.zstd (encodeChannelState L.sort listed) "channel state"

def readChannelState (L : StateLibs) (value : Option Bytes) : Go ChannelDefinitions := do
  let b ← readKVRecord L.history.wire value "channel state"
  Go.ofExcept (decodeChannelState L b)

structure SupportListing (support : SortedMap OracleID (Finset ReportFormat)) where
  listed : List (OracleID × List ReportFormat)
  oracles_perm : (listed.map (fun e => (e.1,e.2.toFinset))).Perm support.entries
  formats_nodup : ∀ e ∈ listed, e.2.Nodup

def codecSupportToProto (listed : List (OracleID × List ReportFormat)) : CodecSupportProto where
  oracles := S.sort (fun a b => a.1 < b.1)
    (listed.map (fun e => (e.1,S.sort (fun f g => f.code < g.code) e.2)))

def writeCodecSupport (L : StateLibs) (listed : List (OracleID × List ReportFormat)) : Except String Bytes :=
  encodeKVRecord L.history.zstd (marshalCodecSupport (codecSupportToProto L.sort listed)) "codec support"

/-- An oracle is numbered with one byte. -/
def supportFromProto (support : SortedMap OracleID (Finset ReportFormat)) (e : ℕ × List ReportFormat) :
    Except String (SortedMap OracleID (Finset ReportFormat)) :=
  if e.2.length > maxObservationSupportedReportFormatsLength then
    .error s!"oracle {e.1} advertises too many report formats: {e.2.length} (max {maxObservationSupportedReportFormatsLength})"
  else .ok (support.insert (e.1 % 256) e.2.toFinset)

def codecSupportFromProto (m : CodecSupportProto) : Except String (SortedMap OracleID (Finset ReportFormat)) :=
  if m.oracles.length > maxOracles then
    .error s!"codec support names too many oracles: {m.oracles.length} (max {maxOracles})"
  else m.oracles.foldlM supportFromProto ∅

def readCodecSupport (L : StateLibs) (value : Option Bytes) : Go (SortedMap OracleID (Finset ReportFormat)) := do
  match ← readKVRecord L.history.wire value "codec support" with
  | none => .ok ∅
  | some b => do
    let m ← Go.ofExcept (L.unmarshalCodecSupport b)
    Go.ofExcept (codecSupportFromProto m)

variable {L : StateLibs}
variable {b : Bytes}
lemma readKVRecord_encodeKVRecord (hz : ReadsZstd L.history.wire L.history.zstd) {raw : Bytes} {what what' : String}
    (h : encodeKVRecord L.history.zstd raw what = .ok b) : readKVRecord L.history.wire (some b) what' = .ok (some raw) := by
  have hne : readKey (some b) ≠ [] := by
    obtain ⟨_,_,rfl⟩ := encodeKVRecord_eq_ok.1 h
    exact shorterPayload_ne_nil
  rw [readKVRecord,if_neg hne]
  exact bind_ok_iff.2 ⟨raw,decodeKVRecord_encodeKVRecord hz h what',rfl⟩

lemma sort_entries {V : Type} (S : SliceSort) {m : SortedMap ℕ V} {listed : List (ℕ × V)} (h : listed.Perm m.entries) :
    S.sort (fun a b => a.1 < b.1) listed = m.entries := by
  refine S.sort_eq Prod.fst (fun a b => decide_eq_true_iff) h ?_
  exact pairwise_map.1 m.keys_sorted

/-- What the record can hold: as many carried values as it persists, that decoding lets
through. -/
structure HotState.Storable (h : HotState) : Prop where
  size_le : h.carryForward.size ≤ maxPersistedAggregates
  aggregators : ∀ s v, h.carryForward.get? s = some v → s.aggregator.OnWire
  values : ∀ s v, h.carryForward.get? s = some v → v.toValue.Decodable

lemma aggregateLess_iff (a b : StreamAggregateProto) : aggregateLess a b = true ↔
    toLex (a.streamID,a.aggregator) < toLex (b.streamID,b.aggregator) := by
  rw [aggregateLess,Prod.Lex.toLex_lt_toLex]
  split_ifs with h
  · simp [h]
  · simp [h]

lemma Stream.lt_codes {s t : Stream} (hs : s.aggregator.OnWire) (ht : t.aggregator.OnWire) (h : s < t) :
    toLex (s.streamID,s.aggregator.code) < toLex (t.streamID,t.aggregator.code) := by
  have hlt : s.toProd < t.toProd := h
  rw [Stream.toProd,Stream.toProd,Prod.Lex.toLex_lt_toLex] at hlt
  rw [Prod.Lex.toLex_lt_toLex]
  rcases hlt with hid | ⟨hid,hcode⟩
  · exact .inl hid
  · rw [Prod.Lex.toLex_lt_toLex] at hcode
    rcases hcode with hcode | ⟨hcode,hnamed⟩
    · exact .inr ⟨hid,hcode⟩
    · rw [Aggregator.eq_of_code hs ht hcode] at hnamed
      exact absurd hnamed (lt_irrefl _)

variable {decimal : DecimalEncoder} {pb : StreamAggregateProto}
lemma carryToProto_eq_ok {e : Stream × TimestampedStreamValue} (h : carryToProto decimal e = .ok pb) : ∃ sv,
      streamValueToProto decimal e.2.toValue = .ok sv ∧ pb = ⟨e.1.streamID,some sv,e.1.aggregator.code⟩ := by
  obtain ⟨sv,hsv,⟨⟩⟩ := bind_ok_iff.1 h
  exact ⟨sv,hsv,rfl⟩

variable {pbs : List StreamAggregateProto}
lemma sorted_carry {carry : CarryForward}
    (hwire : ∀ s v, carry.get? s = some v → s.aggregator.OnWire) {listed : List (Stream × TimestampedStreamValue)}
    (hperm : listed.Perm carry.entries) (h : listed.mapM (carryToProto decimal) = .ok pbs) :
    carry.entries.mapM (carryToProto decimal) = .ok (S.sort aggregateLess pbs) := by
  obtain ⟨pbs',hpbs',hpbs⟩ := mapM_perm hperm h
  have hkeys : pbs'.map (fun a => toLex (a.streamID,a.aggregator)) =
      carry.entries.map (fun e => toLex (e.1.streamID,e.1.aggregator.code)) := by
    apply map_mapM_ok _ hpbs'
    intro e pb hpb
    obtain ⟨sv,_,rfl⟩ := carryToProto_eq_ok hpb
    rfl
  have hsorted : pbs'.Pairwise (fun a b => toLex (a.streamID,a.aggregator) < toLex (b.streamID,b.aggregator)) := by
    rw [← pairwise_map (R := (· < ·)),hkeys,pairwise_map]
    apply (pairwise_map.1 carry.keys_sorted).imp_of_mem
    intro a b ha hb hab
    exact Stream.lt_codes (hwire _ _ (get?_eq_some_iff.2 ha)) (hwire _ _ (get?_eq_some_iff.2 hb)) hab
  rw [hpbs',S.sort_eq _ aggregateLess_iff hpbs hsorted]

/-- Carried values read back. -/
lemma foldlM_carryFromProto {W : WireLibs} (hvalues : W.ReadsValues decimal)
    {entries : List (Stream × TimestampedStreamValue)} (hwire : ∀ e ∈ entries, e.1.aggregator.OnWire)
    (hdecodable : ∀ e ∈ entries, e.2.toValue.Decodable)
    (h : entries.mapM (carryToProto decimal) = .ok pbs)
    (hlen : ∀ pb ∈ pbs, ∀ sv, pb.streamValue = some sv → sv.value.length < 2 ^ 64) (carry : CarryForward) :
    pbs.foldlM (carryFromProto W) carry = .ok (carry.insertMany entries) := by
  induction entries generalizing pbs carry with
  | nil =>
    cases Except.ok.inj h
    rfl
  | cons e entries ih =>
    rw [mapM_cons] at h
    obtain ⟨pb,hpb,h⟩ := bind_ok_iff.1 h
    obtain ⟨rest,hrest,⟨⟩⟩ := bind_ok_iff.1 h
    obtain ⟨sv,hsv,rfl⟩ := carryToProto_eq_ok hpb
    have hread := unmarshalProtoStreamValue_toProto hvalues (hdecodable e mem_cons_self) hsv
      (hlen _ mem_cons_self sv rfl)
    have hstep : carryFromProto W carry ⟨e.1.streamID,some sv,e.1.aggregator.code⟩ = .ok (carry.insert e.1 e.2) := by
      rw [carryFromProto,hread,Aggregator.ofCode_code (hwire e mem_cons_self)]
      rfl
    rw [foldlM_cons,hstep,ok_bind,ih (fun e he => hwire e (mem_cons_of_mem _ he))
      (fun e he => hdecodable e (mem_cons_of_mem _ he)) hrest (fun pb hpb => hlen pb (mem_cons_of_mem _ hpb))]
    rfl

variable {h : HotState} {m : HotStateProto}
lemma hotStateToProto_eq (hs : h.Storable) (listing : h.Listing)
    (hm : hotStateToProto L h listing = .ok m) : ∃ pbs,
      h.carryForward.entries.mapM (carryToProto L.history.marshalDecimal) = .ok pbs ∧
      m = ⟨h.observationTimestampNs,h.validAfterNanoseconds.entries,h.reportedLastRound.keys,pbs,h.recentAgreedTimestamps⟩ := by
  obtain ⟨pbs,hpbs,⟨⟩⟩ := bind_ok_iff.1 hm
  have hcarry := sorted_carry L.sort hs.aggregators listing.carry_perm hpbs
  refine ⟨_,hcarry,?_⟩
  have hlength : (L.sort.sort aggregateLess pbs).length ≤ maxPersistedAggregates := by
    have hunits := map_mapM_ok (g := fun _ => ()) (k := fun _ => ()) (fun _ _ _ => rfl) hcarry
    have hcount := congrArg List.length hunits
    rw [length_map,length_map] at hcount
    exact hcount.trans_le hs.size_le
  have hreportable : L.sort.sort (fun a b => a < b) listing.reportable = h.reportedLastRound.keys :=
    L.sort.sort_eq id (fun a b => decide_eq_true_iff) listing.reportable_perm h.reportedLastRound.keys_sorted
  rw [take_of_length_le hlength,sort_entries L.sort listing.validAfter_perm,hreportable]

lemma length_value_le_hotState {sv : StreamValueProto}
    (hpb : pb ∈ m.streamAggregates) (hsv : pb.streamValue = some sv) : sv.value.length ≤ (marshalHotState m).length := by
  have hvalue := length_le_protoOptionalBytes 2 sv.value
  have hentry : (protoBytes 4 (marshalStreamAggregate pb)).length ≤
      (m.streamAggregates.flatMap (fun a => protoBytes 4 (marshalStreamAggregate a))).length := by
    rw [flatMap_def]
    apply List.Sublist.length_le
    apply sublist_flatten_of_mem
    exact mem_map.2 ⟨pb,hpb,rfl⟩
  have hin : (protoOptionalBytes 2 sv.value).length ≤ (protoBytes 4 (marshalStreamAggregate pb)).length := by
    rw [marshalStreamAggregate,hsv]
    simp only [Option.elim_some,marshalStreamValue,protoBytes,length_append]
    omega
  simp only [marshalHotState,length_append]
  omega

/-- The protobuf library reads back the record of every round. -/
def StateLibs.ReadsHotState (L : StateLibs) (h : HotState) : Prop :=
  ∀ listing m, hotStateToProto L h listing = .ok m → L.unmarshalHotState (marshalHotState m) = .ok m

/-- The record of a round is read back. -/
lemma readHotState_writeHotState (hvalues : L.history.wire.ReadsValues L.history.marshalDecimal) (hz : ReadsZstd L.history.wire L.history.zstd)
    (hread : L.ReadsHotState h) (hs : h.Storable) {listing : h.Listing}
    (hb : writeHotState L h listing = .ok b) : readHotState L (some b) = .ok h := by
  obtain ⟨m,hm,hb⟩ := bind_ok_iff.1 hb
  have hmessage := hread listing m hm
  obtain ⟨pbs,hpbs,rfl⟩ := hotStateToProto_eq hs listing hm
  have hraw := (encodeKVRecord_eq_ok.1 hb).1
  have hcarry := foldlM_carryFromProto hvalues
    (fun e he => hs.aggregators e.1 e.2 (get?_eq_some_iff.2 he))
    (fun e he => hs.values e.1 e.2 (get?_eq_some_iff.2 he)) hpbs
    (fun pb hpb sv hsv => (length_value_le_hotState hpb hsv).trans_lt (hraw.trans_lt (by decide))) ∅
  rw [readHotState,readKVRecord_encodeKVRecord hz hb,ok_bind]
  dsimp only
  rw [hmessage]
  simp only [Go.ofExcept,ok_bind,hotStateFromProto]
  rw [hcarry,ok_bind,setOf_keys,ofList_entries]
  have hall : (∅ : CarryForward).insertMany h.carryForward.entries = h.carryForward := ofList_entries _
  rw [hall]

variable {defs : ChannelDefinitions} {listed : List DefinitionEntry}
  {support : SortedMap OracleID (Finset ReportFormat)}

lemma channelStateToProto_eq (hlisted : listed.Perm defs.entries) :
    channelStateToProto S listed = ⟨defs.entries.map fun e => (e.1,some e.2)⟩ := by
  rw [channelStateToProto,S.sort_eq Prod.fst (fun a b => decide_eq_true_iff) (hlisted.map _)]
  rw [pairwise_map]
  exact pairwise_map.1 defs.keys_sorted

lemma foldlM_definitionFromProto (entries : List DefinitionEntry) :
    (entries.map fun e => (e.1,some e.2)).foldlM definitionFromProto defs = .ok (defs.insertMany entries) := by
  induction entries generalizing defs with
  | nil => rfl
  | cons e entries ih => exact ih

/-- What the record of the codecs can hold. -/
structure SupportListing.Storable (codecs : SupportListing support) : Prop where
  size_le : support.size ≤ maxOracles
  formats : ∀ e ∈ codecs.listed, e.1 < 256 ∧ e.2.length ≤ maxObservationSupportedReportFormatsLength

lemma foldlM_supportFromProto {entries : List (OracleID × List ReportFormat)}
    (h : ∀ e ∈ entries, e.1 < 256 ∧ e.2.length ≤ maxObservationSupportedReportFormatsLength) :
    entries.foldlM supportFromProto support = .ok (support.insertMany (entries.map fun e => (e.1,e.2.toFinset))) := by
  induction entries generalizing support with
  | nil => rfl
  | cons e entries ih =>
    obtain ⟨he,h⟩ := forall_mem_cons.1 h
    rw [foldlM_cons,supportFromProto,if_neg (Nat.not_lt.2 he.2),Nat.mod_eq_of_lt he.1]
    exact ih h

lemma codecSupportFromProto_toProto {codecs : SupportListing support} (hs : codecs.Storable) :
    codecSupportFromProto (codecSupportToProto S codecs.listed) = .ok support := by
  have hperm := S.perm (fun a b : OracleID × List ReportFormat => a.1 < b.1)
    (codecs.listed.map fun e => (e.1,S.sort (fun f g => f.code < g.code) e.2))
  have hentries := (hperm.map fun e => (e.1,e.2.toFinset)).trans (.of_eq (map_map ..))
  simp only [Function.comp_def,toFinset_eq_of_perm _ _ (S.perm _ _)] at hentries
  replace hentries := hentries.trans codecs.oracles_perm
  rw [codecSupportFromProto,if_neg,codecSupportToProto,foldlM_supportFromProto]
  · refine congrArg Except.ok ((ofList_perm ?_ hentries).trans (ofList_entries support))
    exact (hentries.map Prod.fst).nodup_iff.2 support.keys_nodup
  · intro e he
    obtain ⟨e',he',rfl⟩ := mem_map.1 (hperm.mem_iff.1 he)
    rw [(S.perm _ e'.2).length_eq]
    exact hs.formats e' he'
  · have hlen := hentries.length_eq
    rw [length_map] at hlen
    exact Nat.not_lt.2 (hlen.trans_le hs.size_le)

/-- The definitions and the codecs are read back. The bytes of the definitions do not depend
on the order they were listed in. -/
theorem stateRecords_roundTrip (hz : ReadsZstd L.history.wire L.history.zstd) (codecs : SupportListing support)
    (hchannels : L.unmarshalChannelState (encodeChannelState L.sort listed) = .ok (channelStateToProto L.sort listed))
    (hcodecs : L.unmarshalCodecSupport (marshalCodecSupport (codecSupportToProto L.sort codecs.listed)) =
      .ok (codecSupportToProto L.sort codecs.listed))
    (hlisted : listed.Perm defs.entries) (hs : codecs.Storable) {c : Bytes}
    (hb : writeChannelState L listed = .ok b) (hc : writeCodecSupport L codecs.listed = .ok c) :
    readChannelState L (some b) = .ok defs ∧ readCodecSupport L (some c) = .ok support ∧
      ∀ listed', listed'.Perm defs.entries → writeChannelState L listed' = .ok b := by
  refine ⟨?_,?_,?_⟩
  · rw [readChannelState,readKVRecord_encodeKVRecord hz hb,ok_bind,decodeChannelState]
    rw [hchannels,channelStateToProto_eq _ hlisted]
    change Go.ofExcept (foldlM _ _ _) = _
    rw [foldlM_definitionFromProto]
    exact congrArg Except.ok (ofList_entries defs)
  · rw [readCodecSupport,readKVRecord_encodeKVRecord hz hc,ok_bind]
    dsimp only
    rw [hcodecs]
    exact congrArg Go.ofExcept (codecSupportFromProto_toProto _ hs)
  · intro listed' hlisted'
    rw [← hb,writeChannelState,writeChannelState,encodeChannelState,encodeChannelState,
      channelStateToProto_eq _ hlisted',channelStateToProto_eq _ hlisted]

def recordLibs : StateLibs where
  sort := insertionSlice
  history := historyLibs
  aggregationFaultTolerance := 0
  unmarshalHotState _ := .error "malformed input"
  unmarshalChannelState := fromTable [(encodeChannelState insertionSlice [(1,jsonChannel)],⟨[(1,some jsonChannel)]⟩)]
  unmarshalCodecSupport := fromTable [(marshalCodecSupport ⟨[(0,[.json])]⟩,⟨[(0,[.json])]⟩)]

def recordCodecs : SupportListing (.ofList [(0,{.json})]) := ⟨[(0,[.json])],.refl _,by simp⟩

theorem stateRecords_roundTrip_jsonChannel : ∃ b, writeChannelState recordLibs [(1,jsonChannel)] = .ok b ∧
    readChannelState recordLibs (some b) = .ok (.ofList [(1,jsonChannel)]) :=
  ⟨_,rfl,(stateRecords_roundTrip readsBack_historyLibs.zstd recordCodecs rfl rfl (.refl _) ⟨by decide,by decide⟩
    rfl rfl).1⟩

end V31
end DataStreams
