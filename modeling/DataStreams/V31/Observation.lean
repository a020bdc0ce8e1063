import DataStreams.Protocol.Wire
import DataStreams.Protocol.ChannelAnalysis

/-! A frame names the blobs that carry the stream values and holds the votes of its sender
(v31). -/
namespace DataStreams.V31
/-- The configuration every oracle of an instance shares. -/
structure Config where
  n : ℕ
  f : ℕ
  predecessorConfigDigest : Option ConfigDigest
  protocolVersion : ℕ
  defaultMinReportIntervalNanoseconds : ℕ

structure Observation where
  attestedPredecessorRetirement : Bytes
  shouldRetire : Bool
  observationTimestampNanoseconds : ℕ
  removeChannelIDs : SortedMap ChannelID Unit
  updateChannelDefinitions : ChannelDefinitions
  /-- A stream without a value was not observed. -/
  streamValues : StreamValues
  supportedReportFormats : Finset ReportFormat
  predecessorSigners : List Bytes
  predecessorF : ℕ
  cycleStartSeqNr : ℕ
  deriving DecidableEq

def Observation.empty : Observation := ⟨[],false,0,∅,∅,∅,∅,[],0,0⟩

def observationWireVersion : UInt8 := 1
def maxObservationBlobHandles : ℕ := 4
def maxObservationDecompressedBytes : ℕ := maxDecompressedObservationLength

def validateAttestedPredecessorRetirement (report : Bytes) : Except String Unit :=
  if report.length > maxAttestedRetirementReportBytes then
    .error s!"an attested predecessor retirement of {report.length} bytes (max {maxAttestedRetirementReportBytes})"
  else .ok ()

def validatePredecessorConfig (signers : List Bytes) (f : ℕ) : Except String Unit :=
  if signers.length > maxObservationPredecessorSignersLength then
    .error s!"too many predecessor signers: {signers.length} (max {maxObservationPredecessorSignersLength})"
  else if signers.any (fun s => s.length = 0 || s.length > maxPredecessorSignerBytes) then
    .error "predecessor signer of invalid length"
  else if f > 0 ∧ f ≥ signers.length then
    .error s!"predecessor f={f} for a signer set of {signers.length}"
  else .ok ()

/-- The definitions of a message; a missing one is an error. -/
def definitionsFromProto (m : SortedMap ChannelID (Option ChannelDefinition)) :
    Except String ChannelDefinitions := do
  let defs ← m.entries.mapM (fun e =>
    match e.2 with
    | some cd => .ok (e.1,cd)
    | none => .error s!"nil channel definition for channel {e.1}")
  .ok (SortedMap.ofList defs)

def observationFromProto (main : ObservationProto) : Except String Observation :=
  if main.removeChannelIDs.length > maxObservationRemoveChannelIDsLength then
    .error "observation removes too many channels"
  else if main.updateChannelDefinitions.size > maxObservationUpdateChannelDefinitionsLength then
    .error "observation updates too many channels"
  else do
    let updates ← definitionsFromProto main.updateChannelDefinitions
    if main.streamValues.size > 0 then
      .error "observation carries inline stream values: v31 requires blob-carried values"
    else if main.supportedReportFormats.length > maxObservationSupportedReportFormatsLength then
      .error "observation advertises too many report formats"
    else do
      validateAttestedPredecessorRetirement main.attestedPredecessorRetirement
      validatePredecessorConfig main.predecessorSigners main.predecessorF
      .ok { attestedPredecessorRetirement := main.attestedPredecessorRetirement
            shouldRetire := main.shouldRetire
            observationTimestampNanoseconds := main.unixTimestampNanoseconds
            removeChannelIDs := .setOf main.removeChannelIDs
            updateChannelDefinitions := updates
            streamValues := ∅
            supportedReportFormats := main.supportedReportFormats.toFinset
            predecessorSigners := main.predecessorSigners
            predecessorF := main.predecessorF % 256
            cycleStartSeqNr := 0 }

abbrev BlobFetcher := Option (Bytes → Except String Bytes)

variable (W : WireLibs)
def decodeZstd (body : Bytes) (maxOut : ℕ) (what : String) : Except String Bytes := do
  match ← W.zstdContentSize body with
  | none => .error s!"{what} frame does not declare its content size"
  | some size =>
    if size > maxOut then .error s!"declared decompressed {what} too large: {size} > {maxOut} bytes"
    else do
      let out ← W.zstdDecodeAll body
      if out.length > maxOut then
        .error s!"decompressed {what} too large: {out.length} > {maxOut} bytes"
      else .ok out

def decodeFramedPayload (payload : Bytes) (maxOut : ℕ) (what : String) : Go Bytes :=
  if payload.length = 0 then Go.err s!"empty {what}"
  else if maxOut = 0 then Go.err s!"{what} budget exhausted"
  else do
    let codec ← Go.index payload 0
    let body ← Go.sliceFrom payload 1
    match codec with
    | 0 =>
      if body.length > maxOut then Go.err s!"{what} too large: {body.length} > {maxOut} bytes"
      else .ok body
    | 1 => Go.ofExcept (decodeZstd W body maxOut what)
    | c => Go.err s!"unknown {what} codec {c.toNat}"

def streamValueFromProtoAllowNil : Option StreamValueProto → Except String (Option StreamValue)
  | none => .ok none
  | some pb => do .ok (some (← unmarshalObservedProtoStreamValue W (some pb)))

structure BlobPayloadEntry where
  values : StreamValues
  size : ℕ
  cycleStartSeqNr : ℕ

def decodeBlobEntry (raw : Bytes) : Except String BlobPayloadEntry := do
  let chunk ← W.unmarshalBlobPayload raw
  if chunk.cycleStartSeqNr = 0 then .error "blob payload carries no cycle start seqNr"
  else do
    let values ← unmarshalStreamValues (streamValueFromProtoAllowNil W) chunk.streamValues
    .ok ⟨values,raw.length,chunk.cycleStartSeqNr⟩

variable (fetcher : BlobFetcher)
def fetchBlob (handle : Bytes) : Except String Bytes :=
  match fetcher with
  | none => .error "observation references a blob but no fetcher was provided"
  | some fetch => fetch handle

def mergeBlob (acc : Observation × ℕ) (handle : Bytes) :
    Go (Observation × ℕ) := do
  let payload ← Go.ofExcept (fetchBlob fetcher handle)
  let raw ← decodeFramedPayload W payload (min acc.2 maxObservationDecompressedBytes) "blob payload"
  let entry ← Go.ofExcept (decodeBlobEntry W raw)
  if acc.1.cycleStartSeqNr ≠ 0 ∧ acc.1.cycleStartSeqNr ≠ entry.cycleStartSeqNr then
    Go.err "observation references blobs from different cycles"
  else
    .ok ({ acc.1 with
      cycleStartSeqNr := entry.cycleStartSeqNr
      streamValues := acc.1.streamValues.overlay entry.values },acc.2 - entry.size)

/-- The handle count, each handle behind its length, then the message. -/
def frameObservation (handles : List Bytes) (main : Bytes) : Bytes :=
  observationWireVersion :: putUvarint handles.length ++
    handles.flatMap (fun h => putUvarint h.length ++ h) ++ main

def decodeHandles (W : WireLibs) : ℕ → Bytes → Go (List Bytes × Bytes)
  | 0, rest => .ok ([],rest)
  | count + 1, rest =>
    match uvarint rest with
    | none => Go.err "malformed observation: bad handle length"
    | some (l,k) => do
      let rest ← Go.sliceFrom rest k
      if rest.length < l then Go.err "malformed observation: bad handle length"
      else do
        let handle ← Go.sliceTo rest l
        let _ ← Go.ofExcept (W.unmarshalBlobHandle handle)
        let rest ← Go.sliceFrom rest l
        let (handles,rest) ← decodeHandles W count rest
        .ok (handle :: handles,rest)

def decodeFrame (raw : Bytes) : Go (List Bytes × Bytes) := do
  let version ← Go.index raw 0
  if version ≠ observationWireVersion then
    Go.err s!"unknown observation wire version {version.toNat}"
  else do
    let rest ← Go.sliceFrom raw 1
    match uvarint rest with
    | none => Go.err "malformed observation: bad handle count"
    | some (count,k) =>
      if count > maxObservationBlobHandles then
        Go.err s!"observation references too many blobs: {count} (max {maxObservationBlobHandles})"
      else do
        let rest ← Go.sliceFrom rest k
        decodeHandles W count rest

def fetchBlobsAndDecodeObservation (raw : Bytes) :
    Go Observation :=
  if raw.length = 0 then .ok .empty
  else do
    let (handles,main) ← decodeFrame W raw
    let message ← Go.ofExcept (W.unmarshalObservation main)
    let obs ← Go.ofExcept (observationFromProto message)
    let (obs,_) ← handles.foldlM (mergeBlob W fetcher) (obs,maxObservationDecompressedBytes)
    .ok obs

/-- Every check that needs no replicated state. -/
def checkObservation (cfg : Config) (seqNr : ℕ) (obs : Observation) : Except String Unit :=
  if cfg.predecessorConfigDigest.isNone ∧ obs.attestedPredecessorRetirement ≠ [] then
    .error "AttestedPredecessorRetirement is not empty even though this instance has no predecessor"
  else if cfg.predecessorConfigDigest.isNone ∧ obs.predecessorSigners ≠ [] then
    .error "PredecessorSigners is not empty even though this instance has no predecessor"
  else if obs.predecessorSigners ≠ [] ∧ obs.attestedPredecessorRetirement = [] then
    .error "PredecessorSigners is not empty even though this observation carries no AttestedPredecessorRetirement"
  else if obs.cycleStartSeqNr > seqNr then
    .error s!"stream values gathered for a future round: cycle start seqNr {obs.cycleStartSeqNr} > {seqNr}"
  else if obs.streamValues.size > maxObservationStreamValuesLength then
    .error s!"StreamValues is too long: {obs.streamValues.size} vs {maxObservationStreamValuesLength}"
  else if obs.streamValues.entries.any (fun e => e.2.any (fun v => !nestsOnlyDecimal v)) then
    .error "nested stream value on TimestampedStreamValue must be a Decimal"
  else .ok ()

def fetchBlobsDecodeAndValidateObservation (cfg : Config) (W : WireLibs) (fetcher : BlobFetcher)
    (seqNr : ℕ) (raw : Bytes) : Go Observation := do
  let obs ← fetchBlobsAndDecodeObservation W fetcher raw
  Go.ofExcept (checkObservation cfg seqNr obs)
  .ok obs

def advocatedDefinitions (committed : ChannelDefinitions) (obs : Observation) : ChannelDefinitions :=
  (committed.filter (fun id _ => !obs.removeChannelIDs.contains id)).overlay obs.updateChannelDefinitions

def definitionsForVerify (committed : ChannelDefinitions) (obs : Observation) : ChannelDefinitions :=
  if obs.updateChannelDefinitions.size > 0 then advocatedDefinitions committed obs
  else obs.updateChannelDefinitions

def validateObservation (cfg : Config) (L : Libs) (W : WireLibs) (fetcher : BlobFetcher)
    (factsOf : FactsOf) (committed : ChannelDefinitions) (seqNr : ℕ) (raw : Bytes) : Go Unit :=
  if seqNr < 1 then Go.err s!"invalid SeqNr: {seqNr}"
  else if seqNr = 1 then
    if raw.length ≠ 0 then Go.err "expected empty observation for first round"
    else .ok ()
  else do
    let obs ← fetchBlobsDecodeAndValidateObservation cfg W fetcher seqNr raw
    verifyChannelDefinitions L factsOf (definitionsForVerify committed obs)

end DataStreams.V31
