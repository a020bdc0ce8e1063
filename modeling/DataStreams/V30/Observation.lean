import DataStreams.Protocol.Wire
import DataStreams.Protocol.ChannelAnalysis

/-! Observations are one protobuf message with votes and stream values, which may be compressed
(v30). -/
namespace DataStreams.V30
/-- The configuration every oracle of an instance shares. -/
structure Config where
  f : ℕ
  predecessorConfigDigest : Option ConfigDigest
  protocolVersion : ℕ
  defaultMinReportIntervalNanoseconds : ℕ
  enableObservationCompression : Bool

structure Observation where
  attestedPredecessorRetirement : Bytes
  shouldRetire : Bool
  unixTimestampNanoseconds : ℕ
  removeChannelIDs : SortedMap ChannelID Unit
  updateChannelDefinitions : ChannelDefinitions
  streamValues : SortedMap StreamID StreamValue

def decompressObservation (W : WireLibs) (b : Bytes) : Except String Bytes := do
  let out ← W.zstdDecodeAll b
  if out.length > maxDecompressedObservationLength then
    .error s!"decompressed observation too large: {out.length} > {maxDecompressedObservationLength} bytes"
  else .ok out

def removalsFromProto (ids : List ChannelID) : Except String (SortedMap ChannelID Unit) :=
  if ids.Nodup then .ok (.setOf ids)
  else .error "failed to decode observation; duplicate channel ID in RemoveChannelIDs"

/-- The fields of a definition are read without a check that it is present. -/
def channelDefinitionsFromProtoObservation (m : SortedMap ChannelID (Option ChannelDefinition)) :
    Go ChannelDefinitions := do
  let defs ← m.entries.mapM (fun e =>
    match e.2 with
    | some cd => (.ok (e.1,cd) : Go DefinitionEntry)
    | none => Go.panics "nil pointer dereference")
  .ok (SortedMap.ofList defs)

/-- Older oracles send a signed timestamp. -/
def timestampFromProto (m : ObservationProto) : Except String ℕ :=
  if m.unixTimestampNanoseconds > 0 then .ok m.unixTimestampNanoseconds
  else if m.unixTimestampNanosecondsLegacy ≥ 0 then .ok m.unixTimestampNanosecondsLegacy.toNat
  else .error s!"failed to decode observation; cannot accept negative unix timestamp: {m.unixTimestampNanosecondsLegacy}"

def observationFromProto (W : WireLibs) (m : ObservationProto) : Go Observation := do
  let removals ← Go.ofExcept (removalsFromProto m.removeChannelIDs)
  let updates ← channelDefinitionsFromProtoObservation m.updateChannelDefinitions
  let values ← Go.ofExcept (unmarshalStreamValues (unmarshalObservedProtoStreamValue W) m.streamValues)
  let ts ← Go.ofExcept (timestampFromProto m)
  .ok ⟨m.attestedPredecessorRetirement,m.shouldRetire,ts,removals,updates,values⟩

variable (cfg : Config)
def observationMessage (W : WireLibs) (raw : Bytes) : Except String Bytes :=
  if cfg.enableObservationCompression then decompressObservation W raw else .ok raw

def decodeObservation (W : WireLibs) (raw : Bytes) : Go Observation := do
  let b ← Go.ofExcept (observationMessage cfg W raw)
  let m ← Go.ofExcept (W.unmarshalObservation b)
  observationFromProto W m

def checkVotes (obs : Observation) : Except String Unit :=
  if cfg.predecessorConfigDigest.isNone ∧ obs.attestedPredecessorRetirement ≠ [] then
    .error "AttestedPredecessorRetirement is not empty even though this instance has no predecessor"
  else if obs.updateChannelDefinitions.size > maxObservationUpdateChannelDefinitionsLength then
    .error s!"UpdateChannelDefinitions is too long: {obs.updateChannelDefinitions.size} vs {maxObservationUpdateChannelDefinitionsLength}"
  else if obs.removeChannelIDs.size > maxObservationRemoveChannelIDsLength then
    .error s!"RemoveChannelIDs is too long: {obs.removeChannelIDs.size} vs {maxObservationRemoveChannelIDsLength}"
  else .ok ()

def checkStreamValues (obs : Observation) : Except String Unit :=
  if obs.streamValues.size > maxObservationStreamValuesLength then
    .error s!"StreamValues is too long: {obs.streamValues.size} vs {maxObservationStreamValuesLength}"
  else if obs.streamValues.entries.all (fun e => nestsOnlyDecimal e.2) then .ok ()
  else .error "nested stream value on TimestampedStreamValue must be a Decimal"

/-- The previous outcome's definitions with the voted ones; only the voted ones in the
first round or when there are none. -/
def definitionsForVerify (seqNr : ℕ) (previous : Except String ChannelDefinitions) (obs : Observation) :
    Except String ChannelDefinitions :=
  if obs.updateChannelDefinitions.size > 0 ∧ seqNr > 1 then
    previous.map (fun committed => committed.overlay obs.updateChannelDefinitions)
  else .ok obs.updateChannelDefinitions

/-- `previous` is what the previous outcome decodes to; its definitions are decoded only
when they are needed. -/
def validateObservation (L : Libs) (W : WireLibs) (factsOf : FactsOf)
    (previous : Except String ChannelDefinitions) (seqNr : ℕ) (raw : Bytes) : Go Unit :=
  if seqNr < 1 then Go.err s!"Invalid SeqNr: {seqNr}"
  else if seqNr = 1 ∧ raw.length ≠ 0 then Go.err "Expected empty observation for first round"
  else do
    let obs ← decodeObservation cfg W raw
    Go.ofExcept (checkVotes cfg obs)
    let defs ← Go.ofExcept (definitionsForVerify seqNr previous obs)
    verifyChannelDefinitions L factsOf defs
    Go.ofExcept (checkStreamValues obs)

end DataStreams.V30
