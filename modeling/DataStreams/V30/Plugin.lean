import DataStreams.Calculated.Process
import DataStreams.V30.Outcome

/-! A round applies its votes to the maps of the previous outcome before the watermarks are
decided (v30). -/
namespace DataStreams.V30
structure Plugin where
  config : Config
  libs : Libs
  exprs : ExprLib
  wire : WireLibs
  sort : SliceSort
  marshalDecimal : DecimalEncoder
  eval : EvalDecimal
  /-- The verdict of the oracle's cache of retirement reports. -/
  checkAttestedRetirementReport : ConfigDigest → Bytes → Except String RetirementReport

structure ObservationTally where
  timestampsNanoseconds : List ℕ
  predecessorRetirementReport : Option RetirementReport
  shouldRetireVotes : ℕ
  removeChannelVotesByID : SortedMap ChannelID ℕ
  updateVotes : SortedMap VoteHash UpdateVote
  streamObservations : SortedMap StreamID (List StreamValue)

def ObservationTally.empty : ObservationTally := ⟨[],none,0,∅,∅,∅⟩

/-- The vote identity of versions 0 and 1, which leaves out `Tombstone`, `Source` and
`DisableNilStreamValues`. -/
def legacyChannelHash (L : Libs) (id : ChannelID) (cd : ChannelDefinition) : VoteHash :=
  L.sha256 (beU32 id ++ beU32 cd.reportFormat.code ++ beU32 cd.streams.length ++
    cd.streams.flatMap (fun s => beU32 s.streamID ++ beU32 s.aggregator.code) ++ cd.opts)

namespace Plugin
variable (P : Plugin)
def makeChannelHash (id : ChannelID) (cd : ChannelDefinition) : VoteHash :=
  if P.config.protocolVersion ≥ 2 then channelHashV2 P.libs id cd else legacyChannelHash P.libs id cd

/-- The first valid and compatible report is enough. -/
def acceptRetirement (attested : Bytes) : Option RetirementReport :=
  match P.config.predecessorConfigDigest with
  | none => none
  | some digest =>
    match P.checkAttestedRetirementReport digest attested with
    | .error _ => none
    | .ok r =>
      match r.checkCompatible P.config.protocolVersion with
      | .error _ => none
      | .ok () => some r

def contribute (byStream : SortedMap StreamID (List StreamValue)) (e : StreamID × StreamValue) :
    SortedMap StreamID (List StreamValue) :=
  byStream.insert e.1 ((byStream.get? e.1).getD [] ++ [e.2])

def count (t : ObservationTally) (obs : Observation) : ObservationTally where
  timestampsNanoseconds := t.timestampsNanoseconds ++ [obs.unixTimestampNanoseconds]
  predecessorRetirementReport := t.predecessorRetirementReport.or
    (if obs.attestedPredecessorRetirement ≠ [] then P.acceptRetirement obs.attestedPredecessorRetirement else none)
  shouldRetireVotes := t.shouldRetireVotes + (if obs.shouldRetire then 1 else 0)
  removeChannelVotesByID := obs.removeChannelIDs.keys.foldl countRemoval t.removeChannelVotesByID
  updateVotes := obs.updateChannelDefinitions.entries.foldl (countUpdate P.makeChannelHash) t.updateVotes
  streamObservations := obs.streamValues.entries.foldl contribute t.streamObservations

def decodeObservations (aos : List Bytes) (t : ObservationTally) : Go ObservationTally :=
  aos.foldlM (fun t raw =>
    match decodeObservation P.config P.wire raw with
    | .ok obs => .ok (P.count t obs)
    | .error (.error _) => .ok t
    | .error (.panic m) => Go.panics m) t

variable (prev : Outcome)
def promoted (t : ObservationTally) : Bool :=
  prev.lifeCycleStage = .staging && t.predecessorRetirementReport.isSome

def nextStage (t : ObservationTally) : LifeCycleStage :=
  let stage := if promoted prev t then LifeCycleStage.production else prev.lifeCycleStage
  if stage = .production ∧ t.shouldRetireVotes > P.config.f then .retired else stage

/-- The channels the round votes to remove; a retired round drops all votes. -/
def removedChannelIDs (t : ObservationTally) : List ChannelID :=
  if P.nextStage prev t = .retired then []
  else t.removeChannelVotesByID.keys.filter (fun id => (t.removeChannelVotesByID.get? id).getD 0 > P.config.f)

def updatedDefinitions (t : ObservationTally) : List UpdateVote :=
  if P.nextStage prev t = .retired then [] else updatesPast t.updateVotes P.config.f

/-- The definitions of a round and the opts cache, which change together. -/
structure Channels where
  definitions : ChannelDefinitions
  opts : OptsCache

def Channels.remove (c : Channels) (id : ChannelID) : Channels :=
  ⟨c.definitions.erase id,c.opts.remove id⟩

/-- Replaces a definition, or adds one while there is room. -/
def Channels.install (c : Channels) (v : UpdateVote) : Channels :=
  if ¬ c.definitions.contains v.channelID ∧ c.definitions.size ≥ maxOutcomeChannelDefinitionsLength then c
  else ⟨c.definitions.insert v.channelID v.definition,c.opts.set v.channelID v.definition.opts⟩

variable (cache : OptsCache)
def startChannels (prev : Outcome) : Channels :=
  ⟨prev.channelDefinitions,
    if cache.len ≠ prev.channelDefinitions.size then .ofDefinitions prev.channelDefinitions else cache⟩

def votedChannels (prev : Outcome) (t : ObservationTally) : Channels :=
  (P.updatedDefinitions prev t).foldl Channels.install
    ((P.removedChannelIDs prev t).foldl Channels.remove (startChannels cache prev))

/-- The previous outcome as the rest of the round sees it: its map of definitions is the
one the votes were applied to, unless it was empty and a new map was made. -/
def sharedOutcome (voted : ChannelDefinitions) : Outcome :=
  if prev.channelDefinitions.size = 0 then prev else { prev with channelDefinitions := voted }

def carryValidAfter (shared : Outcome) (opts : OptsCache) (id : ChannelID) (w : ℕ) : ℕ :=
  if (shared.channelDefinitions.get? id).any ChannelDefinition.isBackfill then
    if shared.lifeCycleStage ≠ .production then w
    else ((selectBackfillCandidate P.libs.json shared id opts).map BackfillCandidate.tsNanos).getD w
  else if shared.isReportable P.libs.json P.config opts id then shared.observationTimestampNanoseconds
  else w

def initialValidAfter (cd : ChannelDefinition) (obsTs : ℕ) : ℕ := if cd.isBackfill then 0 else obsTs

def promotedValidAfter (t : ObservationTally) : Option (SortedMap ChannelID ℕ) :=
  if promoted prev t then t.predecessorRetirementReport.bind RetirementReport.validAfterNanoseconds
  else none

def nextValidAfter (prev : Outcome) (t : ObservationTally) (obsTs : ℕ) :
    SortedMap ChannelID ℕ :=
  let voted := P.votedChannels cache prev t
  let carried := match promotedValidAfter prev t with
    | some m => m
    | none => prev.validAfterNanoseconds.mapVal
        (P.carryValidAfter (sharedOutcome prev voted.definitions) voted.opts)
  ((voted.definitions.mapVal (fun _ cd => initialValidAfter cd obsTs)).overlay carried).eraseMany
    (P.removedChannelIDs prev t)

def medianTimestamp (timestamps : List ℕ) : ℕ :=
  (timestamps.insertionSort (· ≤ ·)).getD (timestamps.length / 2) 0

/-- A timestamped value of the previous outcome is copied over. -/
def carriedValue (prev : Outcome) (s : Stream) : Option StreamValue :=
  (prev.streamAggregates s.streamID s.aggregator).filter (fun v => v.type = .timestamped)

/-- A newer value is never overwritten with an older one. -/
def newerValue : Option StreamValue → StreamValue → StreamValue
  | some (.timestamped t v),.timestamped t' v' => if t' ≤ t then .timestamped t v else .timestamped t' v'
  | _,v => v

/-- One pair; an unknown aggregator or a failed aggregation keeps the copied value. -/
def aggregateStream (prev : Outcome) (t : ObservationTally) (s : Stream) : Go (Stream × Option StreamValue) :=
  match getAggregatorFunc P.sort P.wire P.marshalDecimal s.aggregator with
  | none => .ok (s,carriedValue prev s)
  | some aggF =>
    match aggF (((t.streamObservations.get? s.streamID).getD []).map some) (P.config.f + 1) with
    | .error (.panic m) => Go.panics m
    | .error (.error _) => .ok (s,carriedValue prev s)
    | .ok result => .ok (s,result.map (newerValue (carriedValue prev s)))

def aggregatedStreams (defs : ChannelDefinitions) : List Stream :=
  defs.entries.flatMap (fun e =>
    if e.2.tombstone ∨ e.2.isBackfill then [] else e.2.streams.filter (fun s => s.aggregator ≠ .calculated))

/-- The values of the pairs; a pair that is listed twice has the same one. -/
def aggregatesOf (pairs : List (Stream × Option StreamValue)) : Aggregates where
  values id aggregator := (pairs.lookup ⟨id,aggregator⟩).join
  present id := pairs.any (fun e => e.1.streamID = id && (pairs.lookup e.1).join.isSome)
  present_iff id := by
    simp only [List.any_eq_true,Bool.and_eq_true,decide_eq_true_eq,Option.isSome_iff_exists]
    constructor
    · rintro ⟨⟨⟨_,aggregator⟩,_⟩,_,rfl,v,hv⟩
      exact ⟨aggregator,v,hv⟩
    · rintro ⟨aggregator,v,hv⟩
      obtain ⟨l₁,l₂,rfl,-⟩ := List.lookup_eq_some_iff.1 (Option.join_eq_some_iff.1 hv)
      exact ⟨_,List.mem_append_right _ List.mem_cons_self,rfl,v,hv⟩

/-- Aggregation and then the calculated streams, which v30 evaluates without history. They
do not depend on the pool or on how the work is scheduled. -/
def evaluate (prev : Outcome) (t : ObservationTally) : Go Calculated := do
  let voted := P.votedChannels cache prev t
  let pairs ← (aggregatedStreams voted.definitions).mapM (P.aggregateStream prev t)
  let works ← prepareCalculatedStreams
    ⟨P.libs,P.exprs,voted.definitions,medianTimestamp t.timestampsNanoseconds,some voted.opts,none⟩
    (fun _ => ⟨newDefaultEnvironment,.new⟩) (aggregatesOf pairs)
  .ok (applyCalculatedStreams true works (works.map (evalChannel P.eval)) ⟨voted.definitions,aggregatesOf pairs,[]⟩)

/-- What the first round's outcome decodes to. -/
def initialOutcome : Outcome :=
  ⟨if P.config.predecessorConfigDigest.isNone then .production else .staging,0,∅,∅,fun _ _ => none⟩

def nextOutcome (prev : Outcome) (t : ObservationTally) (calculated : Calculated) : Outcome :=
  let obsTs := medianTimestamp t.timestampsNanoseconds
  { lifeCycleStage := P.nextStage prev t
    observationTimestampNanoseconds := obsTs
    channelDefinitions := calculated.channelDefinitions
    validAfterNanoseconds := P.nextValidAfter cache prev t obsTs
    streamAggregates := calculated.aggregates.values }

def outcome (seqNr : ℕ) (prev : Outcome) (aos : List Bytes) :
    Go (Outcome × OptsCache) :=
  if aos.length < 2 * P.config.f + 1 then
    Go.err "invariant violation: expected at least 2f+1 attributed observations"
  else if seqNr ≤ 1 then .ok (P.initialOutcome,cache)
  else do
    let t ← P.decodeObservations aos .empty
    if t.timestampsNanoseconds = [] then Go.err "no valid observations"
    else do
      let calculated ← P.evaluate cache prev t
      .ok (P.nextOutcome cache prev t calculated,(P.votedChannels cache prev t).opts)

/-- What an oracle computes from the observations of each round: the decoded outcome and
its opts cache. -/
def execute (aos : ℕ → List Bytes) : ℕ → Go (Outcome × OptsCache)
  | 0 => .ok (⟨.unset,0,∅,∅,fun _ _ => none⟩,.empty)
  | n + 1 => do
    let (prev,cache) ← execute aos n
    let (out,cache) ← P.outcome cache (n + 1) prev (aos (n + 1))
    let out ← Go.ofExcept (out.recoded P.config.protocolVersion)
    .ok (out,cache)

/-- An oracle without opts, expressions and a predecessor that reads the given messages. -/
def reading (messages : List ObservationProto) : Plugin where
  config := ⟨1,none,2,0,false⟩
  libs := ⟨.rejecting,fromTable [],digest⟩
  exprs := rejectingExprs
  wire := wireOf messages [] []
  sort := insertionSlice
  marshalDecimal _ := .error "malformed input"
  eval _ _ := .error "malformed input"
  checkAttestedRetirementReport _ _ := .error "malformed input"

end Plugin
end DataStreams.V30
