import DataStreams.V31.Votes

/-! The observation of an honest oracle and the changes it votes for (v31). -/
namespace DataStreams.V31
variable {M : Type}
def maxObservationUpdateChannelDefinitionsBytes : ℕ := 384 * 1024

/-- A blob of stream values and the round its gathering started in. -/
structure BlobSnapshot where
  blobHandleBytes : Bytes
  cycleStartSeqNr : ℕ
  values : SortedMap StreamID StreamValue

/-- What an oracle reads from its own caches, its blob pump and its clock. -/
structure Oracle where
  /-- The formats of its codecs, in the order they have on the wire. -/
  formats : List ReportFormat
  attestedRetirementReport : ConfigDigest → Except String Bytes
  predecessorConfig : ConfigDigest → Option PredecessorConfig
  shouldRetire : Except String Bool
  /-- The definitions it wants, given the committed ones. -/
  definitions : ChannelDefinitions → ChannelDefinitions
  /-- The snapshot the pump has ready for a round. -/
  take : ℕ → Option BlobSnapshot
  unixNano : ℤ

/-- Only tombstones are removed, and only when the oracle no longer wants them. -/
def removalVotes (committed expected : ChannelDefinitions) : List ChannelID :=
  (subtractChannelDefinitions (committed.filter (fun _ cd => cd.tombstone)) expected
    maxObservationRemoveChannelIDsLength).map Prod.fst

def revert (committed : ChannelDefinitions) (defs : ChannelDefinitions) (id : ChannelID) : ChannelDefinitions :=
  match committed.get? id with
  | some prev => defs.insert id prev
  | none => defs.erase id

/-- The wanted definitions with every channel that fails admission reverted, the channels
reverted, and an error if no update is admissible. -/
def admissibleChannelDefinitions (L : Libs) (factsOf : FactsOf) (committed expected : ChannelDefinitions) :
    Go (ChannelDefinitions × List ChannelID × Option String) := do
  let (skipped,err) ← inadmissibleChannelIDs L factsOf expected (changedChannelIDs committed expected)
  if err.isSome ∨ skipped = [] then .ok (expected,skipped,err)
  else do
    let admissible := skipped.foldl (revert committed) expected
    let (rest,err) ← inadmissibleChannelIDs L factsOf admissible (changedChannelIDs committed admissible)
    match err,rest with
    | some e,_ => .ok (∅,skipped,some e)
    | none,[] => .ok (admissible,skipped,none)
    | none,rest => .ok (∅,skipped,some s!"channels {rest} fail admission once channels {skipped} are withheld")

/-- The loop over the wanted channels in ID order: the bytes and updates so far. -/
def channelUpdateVotesFrom (committed : ChannelDefinitions) :
    List DefinitionEntry → ℕ → ChannelDefinitions → ChannelDefinitions
  | [], _, updates => updates
  | e :: rest, size, updates =>
    if committed.get? e.1 = some e.2 then channelUpdateVotesFrom committed rest size updates
    else
      let size := size + (marshalChannelDefinition e.2).length
      if size > maxObservationUpdateChannelDefinitionsBytes then updates
      else
        let updates := updates.insert e.1 e.2
        if updates.size ≥ maxObservationUpdateChannelDefinitionsLength then updates
        else channelUpdateVotesFrom committed rest size updates

def channelUpdateVotes (committed expected : ChannelDefinitions) : ChannelDefinitions :=
  channelUpdateVotesFrom committed expected.entries 0 ∅

def voteOnChannels (L : Libs) (factsOf : FactsOf) (committed expected : ChannelDefinitions) :
    Go ChannelVotes := do
  let (admissible,_,err) ← admissibleChannelDefinitions L factsOf committed expected
  match err with
  | some _ => .ok (removalVotes committed expected,∅)
  | none => .ok (removalVotes committed expected,channelUpdateVotes committed admissible)

/-- The attested report of the predecessor, while it can still promote this instance. -/
def attestedPredecessorRetirement (cfg : Config) (o : Oracle) (stage : LifeCycleStage) : Bytes :=
  match cfg.predecessorConfigDigest with
  | none => []
  | some digest =>
    if stage ≠ .staging then []
    else
      match o.attestedRetirementReport digest with
      | .error _ => []
      | .ok report =>
        match validateAttestedPredecessorRetirement report with
        | .error _ => []
        | .ok () => report

def PredecessorConfig.none : PredecessorConfig := ⟨[],0⟩

def voteOnPredecessorConfig (cfg : Config) (o : Oracle) (attested : Bytes) : PredecessorConfig :=
  match cfg.predecessorConfigDigest with
  | none => .none
  | some digest =>
    if attested = [] then .none
    else
      match o.predecessorConfig digest with
      | none => .none
      | some pc =>
        if pc.signers = [] then .none
        else
          match validatePredecessorConfig pc.signers pc.f with
          | .error _ => .none
          | .ok () => pc

/-- The streams a round observes: those of live channels, unless they are calculated or
come from the opts of a backfill. -/
def observableStreams (defs : ChannelDefinitions) : List StreamID :=
  (defs.entries.flatMap (fun e =>
    if e.2.tombstone ∨ e.2.isBackfill then []
    else (e.2.streams.filter (fun s => s.aggregator ≠ .calculated)).map Stream.streamID)).dedup

def supportedReportFormats (o : Oracle) : List ReportFormat :=
  o.formats.take maxObservationSupportedReportFormatsLength

/-- The message of an observation; stream values travel in blobs. -/
def observationToProto (obs : Observation) (formats : List ReportFormat) : ObservationProto where
  attestedPredecessorRetirement := obs.attestedPredecessorRetirement
  shouldRetire := obs.shouldRetire
  unixTimestampNanoseconds := obs.observationTimestampNanoseconds
  unixTimestampNanosecondsLegacy := 0
  removeChannelIDs := obs.removeChannelIDs.keys
  updateChannelDefinitions := obs.updateChannelDefinitions.mapVal (fun _ cd => some cd)
  streamValues := ∅
  supportedReportFormats := formats
  predecessorSigners := obs.predecessorSigners
  predecessorF := obs.predecessorF

def encodeObservation (obs : Observation) (formats : List ReportFormat) (handles : List Bytes) : Bytes :=
  frameObservation handles (marshalObservation (observationToProto obs formats))

/-- A retired instance votes on nothing. -/
def channelVotes (L : Libs) (factsOf : FactsOf) (o : Oracle) (state : KVState M) :
    Go ChannelVotes :=
  if state.lifeCycleStage = .retired then .ok ([],∅)
  else voteOnChannels L factsOf state.channelDefinitions (o.definitions state.channelDefinitions)

/-- The snapshot an observation refers to; the pump is only asked when there are streams
to observe. -/
def roundSnapshot (o : Oracle) (state : KVState M) (seqNr : ℕ) : Option BlobSnapshot :=
  if state.lifeCycleStage = .retired ∨ observableStreams state.channelDefinitions = [] then none
  else o.take seqNr

def observationWith (cfg : Config) (o : Oracle) (state : KVState M)
    (votes : ChannelVotes) : Observation :=
  let attested := attestedPredecessorRetirement cfg o state.lifeCycleStage
  let predecessor := voteOnPredecessorConfig cfg o attested
  { attestedPredecessorRetirement := attested
    shouldRetire := state.lifeCycleStage ≠ .retired && o.shouldRetire.toOption.getD false
    observationTimestampNanoseconds := o.unixNano.toNat
    removeChannelIDs := .setOf votes.1
    updateChannelDefinitions := votes.2
    streamValues := ∅
    supportedReportFormats := (supportedReportFormats o).toFinset
    predecessorSigners := predecessor.signers
    predecessorF := predecessor.f
    cycleStartSeqNr := 0 }

def observation (cfg : Config) (L : Libs) (factsOf : FactsOf) (o : Oracle) (state : KVState M) (seqNr : ℕ) :
    Go Bytes :=
  if seqNr < 1 then Go.err s!"got invalid seqnr={seqNr}, must be >=1"
  else if seqNr = 1 then .ok []
  else do
    let votes ← channelVotes L factsOf o state
    if o.unixNano < 0 then
      Go.err s!"negative observation timestamps are not supported, got: {o.unixNano}"
    else
      .ok (encodeObservation (observationWith cfg o state votes) (supportedReportFormats o)
        ((roundSnapshot o state seqNr).toList.map BlobSnapshot.blobHandleBytes))

end DataStreams.V31
