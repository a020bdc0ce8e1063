import DataStreams.Protocol.Budget

/-! One analysis finds everything wrong with a definition set; the entry points differ in what
they do with it. -/
namespace DataStreams
/-- Channels being added or changed. -/
abbrev Admitting := List ChannelID

structure AdmissionFinding where
  channels : List ChannelID
  wholeSet : Bool
  err : String
  deriving DecidableEq

def AdmissionFinding.appliesTo (f : AdmissionFinding) (admitting : Admitting) : Bool :=
  if f.wholeSet then admitting ≠ [] else f.channels.any (fun id => id ∈ admitting)

/-- Everything the analysis found. Channel findings are in channel ID order. -/
structure VerifyResult where
  channelErrs : List (ChannelID × String)
  wholeSetErr : Option String
  uniqueStreamIDs : ℕ
  admissionFindings : List AdmissionFinding
  deriving DecidableEq

def ChannelDefinition.hasBoundedStreams (cd : ChannelDefinition) : Bool :=
  cd.streams ≠ [] && cd.streams.length ≤ maxStreamsPerChannel

def backfillFindings (J : JSON) (defs : ChannelDefinitions) (id : ChannelID) (cd : ChannelDefinition) :
    List String :=
  if cd.isBackfill then
    match validateHistoryBackfillAgainstDefinitions J cd defs 0 with
    | .ok () => []
    | .error e => [s!"invalid history backfill channel {id}: {e}"]
  else []

/-- What is wrong with a live definition by itself. -/
def definitionFindings (id : ChannelID) (cd : ChannelDefinition) (f : ChannelFacts) : List String :=
  if cd.streams = [] then [s!"ChannelDefinition with ID {id} has no streams"]
  else if cd.streams.length > maxStreamsPerChannel then
    [s!"ChannelDefinition with ID {id} has too many streams, got: {cd.streams.length}/{maxStreamsPerChannel}"]
  else
    (cd.streams.filter (fun s => s.aggregator = .unset)).map (fun s =>
      s!"ChannelDefinition with ID {id} has stream {s.streamID} with zero aggregator (this may indicate an uninitialized struct)") ++
    f.verifyErr.toList.map (fun e => s!"invalid ChannelDefinition with ID {id}: {e}")

/-- Tombstones have no baseline checks. A definition without a usable stream list has no
further ones. -/
def baselineFindings (J : JSON) (defs : ChannelDefinitions) (id : ChannelID) (cd : ChannelDefinition)
    (f : ChannelFacts) : List String :=
  if cd.tombstone then []
  else definitionFindings id cd f ++ (if cd.hasBoundedStreams then backfillFindings J defs id cd else [])

def countedStreamIDs (defs : ChannelDefinitions) : List StreamID :=
  defs.entries.flatMap (fun e =>
    if !e.2.tombstone && e.2.hasBoundedStreams then
      (e.2.streams.filter (fun s => s.aggregator ≠ .unset)).map Stream.streamID
    else [])

/-- The owners met so far and the findings against later claims. -/
structure AdmissionPass where
  observedBy : SortedMap StreamID ChannelID
  calculatedBy : SortedMap StreamID ChannelID
  feedIDBy : SortedMap ℕ ChannelID
  findings : List AdmissionFinding

namespace AdmissionPass
def start : AdmissionPass := ⟨∅,∅,∅,[]⟩

variable (p : AdmissionPass)
def admitErr (err : String) (channels : List ChannelID) : AdmissionPass :=
  { p with findings := p.findings ++ [⟨channels,false,err⟩] }

def admitIf (c : Bool) (err : String) (channels : List ChannelID) : AdmissionPass :=
  if c then p.admitErr err channels else p

def knownAggregator : Aggregator → Bool
  | .median | .mode | .quote => true
  | _ => false

def stream (id : ChannelID) (p : AdmissionPass) (s : Stream) : AdmissionPass :=
  if s.aggregator = .unset then p
  else
    let p := p.admitIf (s.aggregator ≠ .calculated && !knownAggregator s.aggregator)
      s!"ChannelDefinition with ID {id} has stream {s.streamID} with unknown aggregator" [id]
    if s.aggregator ≠ .calculated ∧ ¬ p.observedBy.contains s.streamID then
      { p with observedBy := p.observedBy.insert s.streamID id }
    else p

def calculatedStream (id : ChannelID) (p : AdmissionPass) (sid : StreamID) : AdmissionPass :=
  match p.calculatedBy.get? sid with
  | some owner =>
    p.admitErr s!"ChannelDefinition with ID {id} declares calculated stream {sid} already declared by channel {owner}" [id,owner]
  | none => { p with calculatedBy := p.calculatedBy.insert sid id }

def calculatedStreams (id : ChannelID) (cd : ChannelDefinition) (f : ChannelFacts) (p : AdmissionPass) :
    AdmissionPass :=
  if cd.hasCalculatedStreams then
    let p := match f.calculatedErr with
      | some e => p.admitErr s!"invalid ChannelDefinition with ID {id}: {e}" [id]
      | none => p
    f.calculatedIDs.foldl (calculatedStream id) p
  else p

def feed (id : ChannelID) (f : ChannelFacts) (p : AdmissionPass) : AdmissionPass :=
  match f.feedIDErr,f.feedID with
  | some e,_ => p.admitErr s!"invalid ChannelDefinition with ID {id}: failed to resolve feed ID: {e}" [id]
  | none,none => p
  | none,some feedID =>
    match p.feedIDBy.get? feedID with
    | some owner => p.admitErr s!"ChannelDefinition with ID {id} has a feed ID already used by channel {owner}" [id,owner]
    | none => { p with feedIDBy := p.feedIDBy.insert feedID id }

def backfill (L : Libs) (defs : ChannelDefinitions) (id : ChannelID) (cd : ChannelDefinition)
    (p : AdmissionPass) : AdmissionPass :=
  if cd.isBackfill then
    let p := match validateHistoryBackfillTarget L.json cd defs with
      | .ok () => p
      | .error e =>
        p.admitErr s!"invalid history backfill channel {id}: {e}"
          (match parseHistoryBackfillOpts L.json cd.opts with
          | .ok opts => [id,opts.targetChannelID]
          | .error _ => [id])
    match validateHistoryBackfillValues L cd defs with
    | .ok () => p
    | .error e => p.admitErr s!"invalid history backfill channel {id}: {e}" [id]
  else p

def live (L : Libs) (defs : ChannelDefinitions) (id : ChannelID) (cd : ChannelDefinition)
    (f : ChannelFacts) (p : AdmissionPass) : AdmissionPass :=
  let p := (cd.streams.foldl (stream id) p).calculatedStreams id cd f
  let p := match f.admissionErr with
    | some e => p.admitErr s!"invalid ChannelDefinition with ID {id}: {e}" [id]
    | none => p
  (p.feed id f).backfill L defs id cd

def channel (L : Libs) (defs : ChannelDefinitions) (p : AdmissionPass)
    (c : ChannelID × ChannelDefinition × ChannelFacts) : AdmissionPass :=
  let (id,cd,f) := c
  let p := p.admitIf (cd.opts.length > maxChannelOptsBytes)
    s!"ChannelDefinition with ID {id} has opts that are too long, got: {cd.opts.length}/{maxChannelOptsBytes}" [id]
  if cd.tombstone then
    p.admitIf (cd.streams.length > maxStreamsPerChannel)
      s!"ChannelDefinition with ID {id} has too many streams, got: {cd.streams.length}/{maxStreamsPerChannel}" [id]
  else if cd.hasBoundedStreams then p.live L defs id cd f
  else p

/-- A calculated stream may not have the ID of an observed one. -/
def clashes : AdmissionPass :=
  p.calculatedBy.entries.foldl (fun p e =>
    match p.observedBy.get? e.1 with
    | some owner =>
      p.admitErr s!"ChannelDefinition with ID {e.2} declares calculated stream {e.1}, which channel {owner} observes" [e.2,owner]
    | none => p) p

end AdmissionPass

variable (L : Libs)
def admissionFindings (defs : ChannelDefinitions)
    (channels : List (ChannelID × ChannelDefinition × ChannelFacts)) : List AdmissionFinding :=
  (channels.foldl (AdmissionPass.channel L defs) .start).clashes.findings ++
    (ChannelDefinitionsBudget.measure (channels.map Prod.snd)).err.toList.map (fun e => ⟨[],true,e⟩)

def tooManyChannels (n : ℕ) : String :=
  s!"too many channels, got: {n}/{maxOutcomeChannelDefinitionsLength}"

def tooManyStreamIDs (n : ℕ) : String :=
  s!"too many unique stream IDs, got: {n}/{maxObservationStreamValuesLength}"

variable (factsOf : FactsOf)
def analyzeChannelDefinitions (defs : ChannelDefinitions) :
    Go VerifyResult :=
  if defs.size > maxOutcomeChannelDefinitionsLength then
    .ok ⟨[],some (tooManyChannels defs.size),0,[]⟩
  else do
    let channels ← allFacts factsOf defs
    .ok {
      channelErrs := channels.flatMap (fun c =>
        (baselineFindings L.json defs c.1 c.2.1 c.2.2).map (fun e => (c.1,e)))
      wholeSetErr := none
      uniqueStreamIDs := (countedStreamIDs defs).dedup.length
      admissionFindings := admissionFindings L defs channels }

namespace VerifyResult
def setErr (r : VerifyResult) : Option String :=
  match r.wholeSetErr with
  | some e => some e
  | none =>
    if r.channelErrs = [] ∧ r.uniqueStreamIDs > maxObservationStreamValuesLength then
      some (tooManyStreamIDs r.uniqueStreamIDs)
    else none

def err (r : VerifyResult) (admitting : Admitting) : Option String :=
  match r.wholeSetErr with
  | some e => some e
  | none =>
    let errs := r.channelErrs.map Prod.snd ++
      (r.admissionFindings.filter (fun f => f.appliesTo admitting)).map AdmissionFinding.err
    if errs ≠ [] then some ("\n".intercalate errs)
    else if r.uniqueStreamIDs > maxObservationStreamValuesLength then
      some (tooManyStreamIDs r.uniqueStreamIDs)
    else none

end VerifyResult

def Go.ofError : Option String → Go Unit
  | none => .ok ()
  | some e => Go.err e

def verifyChannelDefinitionsForAdmission (defs : ChannelDefinitions)
    (admitting : Admitting) : Go Unit := do
  let res ← analyzeChannelDefinitions L factsOf defs
  Go.ofError (res.err admitting)

/-- The checks any set must satisfy: nothing is being admitted. -/
def verifyChannelDefinitions (defs : ChannelDefinitions) : Go Unit :=
  verifyChannelDefinitionsForAdmission L factsOf defs []

/-- The channels with a baseline finding, and the findings against the whole set. -/
def unverifiableChannelIDs (defs : ChannelDefinitions) :
    Go (List ChannelID × Option String) := do
  let res ← analyzeChannelDefinitions L factsOf defs
  .ok ((res.channelErrs.map Prod.fst).dedup,res.setErr)

/-- The channels being admitted that a finding implicates, and the findings that cannot
be withheld selectively. The stream ID budget counts only when no channel is implicated. -/
def inadmissibleChannelIDs (defs : ChannelDefinitions)
    (admitting : Admitting) : Go (List ChannelID × Option String) := do
  let res ← analyzeChannelDefinitions L factsOf defs
  match res.wholeSetErr with
  | some e => .ok ([],some e)
  | none =>
    let implicated := res.channelErrs.map Prod.fst ++
      (res.admissionFindings.filter (fun f => !f.wholeSet)).flatMap AdmissionFinding.channels
    let ids := (implicated.filter (fun id => id ∈ admitting)).dedup
    match (res.admissionFindings.filter (fun f => f.wholeSet && f.appliesTo admitting)).map
        AdmissionFinding.err with
    | [] =>
      if ids = [] ∧ admitting ≠ [] ∧ res.uniqueStreamIDs > maxObservationStreamValuesLength then
        .ok (ids,some (tooManyStreamIDs res.uniqueStreamIDs))
      else .ok (ids,none)
    | errs => .ok (ids,some ("\n".intercalate errs))

def changedChannelIDs (current desired : ChannelDefinitions) : Admitting :=
  (desired.entries.filter (fun e => current.get? e.1 ≠ some e.2)).map Prod.fst

def subtractChannelDefinitions (minuend subtrahend : ChannelDefinitions) (limit : ℕ) :
    List DefinitionEntry :=
  (minuend.entries.filter (fun e => !subtrahend.contains e.1)).take limit

end DataStreams
