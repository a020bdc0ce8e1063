import DataStreams.V31.Votes

/-! A round decides under the definitions in effect; the changes it agrees on take effect in the
next one (v31). -/
namespace DataStreams.V31
/-- What the value engine reads in a round. -/
structure RoundInput where
  seqNr : ℕ
  observationTimestampNanoseconds : ℕ
  agreedTimestamps : List ℕ
  effective : ChannelDefinitions
  contributions : SortedMap StreamID (List StreamContribution)

/-- Freshness selection, aggregation, stream history and calculated streams: a function of
the engine's replicated memory and the round. -/
structure ValueEngine (M : Type) where
  initial : M
  evaluate : M → RoundInput → Except String (StreamAggregates × M)

/-- How many observations a round needs, as libocr counts them: at least `2 * f + 1`, and no
more than there are correct oracles. -/
structure ByzQuorum where
  size : ℕ → ℕ → ℕ
  le_size : ∀ {n f}, 3 * f < n → 2 * f + 1 ≤ size n f
  size_le : ∀ {n f}, 3 * f < n → size n f ≤ n - f

/-- What the oracles of an instance share. -/
structure Instance (M : Type) where
  config : Config
  libs : Libs
  wire : WireLibs
  engine : ValueEngine M
  verify : RetirementVerifier
  byzQuorum : ByzQuorum
  /-- The encoded records and the precursor are within the size limits. -/
  persist : KVState M → Precursor → Except String Unit

/-- What is local to an oracle: the facts its codecs and analysis cache give, and its blob
fetcher. -/
structure Node where
  factsOf : FactsOf
  fetcher : BlobFetcher

/-- The upper median. The quorum makes the list non-empty. -/
def medianTimestamp (timestamps : List ℕ) : ℕ :=
  (timestamps.insertionSort (· ≤ ·)).getD (timestamps.length / 2) 0

/-- The median, held to the previous round's timestamp as a floor. -/
def agreedObservationTimestamp (timestamps : List ℕ) (prev : ℕ) : ℕ :=
  if medianTimestamp timestamps < prev then prev else medianTimestamp timestamps

def agreedTimestampWindow : ℕ := 7

def appendAgreedTimestamp (prev : List ℕ) (ts : ℕ) : List ℕ :=
  prev.drop (prev.length + 1 - min (prev.length + 1) agreedTimestampWindow) ++ [ts]

def maxConsensusClockLead : ℕ := 5 * 10 ^ 9

def aheadOfClock (agreed now : ℕ) : Bool := agreed > u64Add now maxConsensusClockLead

/-- A watermark of the predecessor that leads the round's timestamp too far is cut to it. -/
def boundPromotedValidAfter (validAfter obsTs : ℕ) : ℕ :=
  if aheadOfClock validAfter obsTs then obsTs else validAfter

variable (prev : LifeCycleStage)
variable (report : Option RetirementReport)
def promotedStage : LifeCycleStage :=
  if prev = .staging ∧ report.isSome then .production else prev

def nextStage (shouldRetireVotes f : ℕ) :
    LifeCycleStage :=
  if promotedStage prev report = .production ∧ shouldRetireVotes > f then .retired
  else promotedStage prev report

/-- The watermarks a promotion adopts; a report without a map adopts none. -/
def promotedValidAfter :
    Option (SortedMap ChannelID ℕ) :=
  if prev = .staging then report.bind RetirementReport.validAfterNanoseconds else none

variable {M : Type}
def prevReportable (prev : KVState M) (id : ChannelID) : Bool := id ∈ prev.reportedLastRound

/-- A backfill watermark moves to the row emitted last round, and only in production. -/
def carryBackfill (L : Libs) (prev : KVState M) (id : ChannelID) (w : ℕ) : ℕ :=
  if prev.lifeCycleStage ≠ .production then w
  else if prevReportable prev id then
    match selectBackfillCandidate L prev.channelDefinitions prev.validAfterNanoseconds
        prev.observationTimestampNs id prev.opts with
    | some c => c.tsNanos
    | none => w
  else w

/-- The watermark a channel carries into the round; a channel that is no longer in effect
loses its watermark. -/
def carryValidAfter (L : Libs) (prev : KVState M) (id : ChannelID) (w : ℕ) : Option ℕ :=
  match prev.channelDefinitions.get? id with
  | none => none
  | some cd =>
    if cd.isBackfill then some (carryBackfill L prev id w)
    else if prevReportable prev id then some prev.observationTimestampNs
    else some w

def initialValidAfter (cd : ChannelDefinition) (obsTs : ℕ) : ℕ := if cd.isBackfill then 0 else obsTs

/-- Watermarks before channels without one get their first. -/
def carriedValidAfter (L : Libs) (prev : KVState M) (promoted : Option (SortedMap ChannelID ℕ))
    (obsTs : ℕ) : SortedMap ChannelID ℕ :=
  match promoted with
  | some m => m.mapVal (fun _ va => boundPromotedValidAfter va obsTs)
  | none => prev.validAfterNanoseconds.filterMap (carryValidAfter L prev)

def nextValidAfter (L : Libs) (prev : KVState M) (promoted : Option (SortedMap ChannelID ℕ))
    (obsTs : ℕ) : SortedMap ChannelID ℕ :=
  (prev.channelDefinitions.mapVal (fun _ cd => initialValidAfter cd obsTs)).overlay
    (carriedValidAfter L prev promoted obsTs)

/-- The definitions of the next round. A round without votes, or a retired one, applies
none. -/
def nextDefinitions (factsOf : FactsOf) (defs : ChannelDefinitions) (t : ObservationTally) (f : ℕ)
    (stage : LifeCycleStage) : Go ChannelDefinitions :=
  if stage ≠ .retired ∧ t.hasChannelVotes then applyChannelVotes factsOf defs t f else .ok defs

variable (I : Instance M)
def firstRound (seqNr : ℕ) (aos : List AttributedObservation) :
    Go (KVState M × Precursor) :=
  if aos.any (fun ao => ao.observation.length ≠ 0) then
    Go.err "invariant violation: non-empty observation in the first round"
  else
    let stage := if I.config.predecessorConfigDigest.isSome then LifeCycleStage.staging else .production
    .ok (⟨stage,0,∅,seqNr,∅,∅,[],I.engine.initial,[]⟩,⟨stage,0,∅,0,∅,fun _ _ => none,[]⟩)

structure RoundDecision where
  stage : LifeCycleStage
  obsTs : ℕ
  validAfter : SortedMap ChannelID ℕ
  codecSupport : SortedMap OracleID (Finset ReportFormat)
  agreedTimestamps : List ℕ

def decideRound (prev : KVState M) (t : ObservationTally) : RoundDecision :=
  let report := resolvePredecessorRetirement I.config I.verify prev.lifeCycleStage t
  let obsTs := agreedObservationTimestamp t.timestampsNanoseconds prev.observationTimestampNs
  { stage := nextStage prev.lifeCycleStage report t.shouldRetireVotes I.config.f
    obsTs := obsTs
    validAfter := nextValidAfter I.libs prev (promotedValidAfter prev.lifeCycleStage report) obsTs
    codecSupport := prev.codecSupport.overlay t.supportedFormatsByOracle
    agreedTimestamps := appendAgreedTimestamp prev.recentAgreedTimestamps obsTs }

variable (d : RoundDecision)
def RoundDecision.draft (prev : KVState M) (aggregates : StreamAggregates) : Precursor where
  lifeCycleStage := d.stage
  observationTimestampNanoseconds := d.obsTs
  channelDefinitions := prev.channelDefinitions
  channelStateSeqNr := prev.channelStateSeqNr
  validAfterNanoseconds := d.validAfter
  streamAggregates := aggregates
  reportableChannelIDs := []

def RoundDecision.precursor (I : Instance M) (prev : KVState M)
    (aggregates : StreamAggregates) : Precursor :=
  let draft := d.draft prev aggregates
  { draft with
    reportableChannelIDs := draft.reportableChannels I.libs I.config.defaultMinReportIntervalNanoseconds
      I.config.f (supportVotes d.codecSupport prev.channelDefinitions) prev.opts }

def RoundDecision.flush (seqNr : ℕ) (prev : KVState M) (out : Precursor)
    (pending : ChannelDefinitions) (memory : M) : KVState M where
  lifeCycleStage := d.stage
  observationTimestampNs := d.obsTs
  channelDefinitions := pending
  channelStateSeqNr := if pending = prev.channelDefinitions then prev.channelStateSeqNr else seqNr
  codecSupport := d.codecSupport
  validAfterNanoseconds := d.validAfter
  reportedLastRound := out.reportableChannelIDs
  memory := memory
  recentAgreedTimestamps := d.agreedTimestamps

def laterRound (factsOf : FactsOf) (seqNr : ℕ) (prev : KVState M)
    (obs : List Attributed) : Go (KVState M × Precursor) := do
  let t := ObservationTally.ofObservations I.config I.libs obs
  let d := decideRound I prev t
  let pending ← nextDefinitions factsOf prev.channelDefinitions t I.config.f d.stage
  let (aggregates,memory) ← Go.ofExcept (I.engine.evaluate prev.memory
    ⟨seqNr,d.obsTs,d.agreedTimestamps,prev.channelDefinitions,t.streamObservations⟩)
  let out := d.precursor I prev aggregates
  let next := d.flush seqNr prev out pending memory
  Go.ofExcept (I.persist next out)
  .ok (next,{ out with streamAggregates := out.reportedAggregates I.libs prev.opts })

/-- Every observation must decode and pass the checks it was accepted with. -/
def decodeObservations (fetcher : BlobFetcher) (seqNr : ℕ)
    (aos : List AttributedObservation) : Go (List Attributed) :=
  aos.mapM (fun ao => do
    let obs ← fetchBlobsDecodeAndValidateObservation I.config I.wire fetcher seqNr ao.observation
    .ok (ao.observer,obs))

def stateTransition (node : Node) (seqNr : ℕ) (prev : KVState M)
    (aos : List AttributedObservation) : Go (KVState M × Precursor) :=
  if aos.length < I.byzQuorum.size I.config.n I.config.f then
    Go.err s!"invariant violation: {aos.length} attributed observations do not reach the observation quorum (n: {I.config.n}, f: {I.config.f})"
  else if seqNr ≤ 1 then firstRound I seqNr aos
  else do
    let obs ← decodeObservations I node.fetcher seqNr aos
    laterRound I node.factsOf seqNr prev obs

end DataStreams.V31
