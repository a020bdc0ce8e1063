import DataStreams.Protocol.ChannelVotes
import DataStreams.V31.State

/-! Votes are counted over the decoded observations of a round, in their order (v31). -/
namespace DataStreams.V31
structure AttributedObservation where
  observer : OracleID
  observation : Bytes

/-- An observation with its sender, decoded. -/
abbrev Attributed := OracleID × Observation

structure PredecessorConfig where
  signers : List Bytes
  f : ℕ
  deriving DecidableEq

structure PredecessorVote where
  config : PredecessorConfig
  votes : ℕ

structure StreamContribution where
  value : StreamValue
  cycleStartSeqNr : ℕ

structure ObservationTally where
  timestampsNanoseconds : List ℕ
  attestedRetirements : List Bytes
  predecessorVotes : SortedMap VoteHash PredecessorVote
  shouldRetireVotes : ℕ
  removeChannelVotesByID : SortedMap ChannelID ℕ
  updateVotes : SortedMap VoteHash UpdateVote
  supportedFormatsByOracle : SortedMap OracleID (Finset ReportFormat)
  streamObservations : SortedMap StreamID (List StreamContribution)

def ObservationTally.empty : ObservationTally := ⟨[],[],∅,0,∅,∅,∅,∅⟩

/-- The order of the signers is part of the identity. -/
def hashPredecessorConfig (L : Libs) (pc : PredecessorConfig) : VoteHash :=
  L.sha256 (beU64 pc.f ++ pc.signers.flatMap (fun s => beU64 s.length ++ s))

def makeChannelHash (L : Libs) (id : ChannelID) (cd : ChannelDefinition) : VoteHash :=
  channelHashV2 L id cd

namespace ObservationTally
def countPredecessor (cfg : Config) (L : Libs) (obs : Observation) (t : ObservationTally) :
    ObservationTally :=
  if cfg.predecessorConfigDigest.isNone then t
  else
    let t := if obs.attestedPredecessorRetirement ≠ [] then
        { t with attestedRetirements := t.attestedRetirements ++ [obs.attestedPredecessorRetirement] }
      else t
    if obs.predecessorSigners ≠ [] then
      let pc := ⟨obs.predecessorSigners,obs.predecessorF⟩
      let h := hashPredecessorConfig L pc
      let votes := (t.predecessorVotes.get? h).elim 0 PredecessorVote.votes
      { t with predecessorVotes := t.predecessorVotes.insert h ⟨pc,votes + 1⟩ }
    else t

def contribute (cycleStartSeqNr : ℕ) (byStream : SortedMap StreamID (List StreamContribution))
    (e : StreamID × Option StreamValue) : SortedMap StreamID (List StreamContribution) :=
  match e.2 with
  | none => byStream
  | some v => byStream.insert e.1 ((byStream.get? e.1).getD [] ++ [⟨v,cycleStartSeqNr⟩])

def count (cfg : Config) (L : Libs) (t : ObservationTally) (ao : Attributed) : ObservationTally :=
  let obs := ao.2
  let t := t.countPredecessor cfg L obs
  { t with
    shouldRetireVotes := t.shouldRetireVotes + (if obs.shouldRetire then 1 else 0)
    timestampsNanoseconds := t.timestampsNanoseconds ++ [obs.observationTimestampNanoseconds]
    supportedFormatsByOracle := t.supportedFormatsByOracle.insert ao.1 obs.supportedReportFormats
    removeChannelVotesByID := obs.removeChannelIDs.keys.foldl countRemoval t.removeChannelVotesByID
    updateVotes := obs.updateChannelDefinitions.entries.foldl (countUpdate (makeChannelHash L)) t.updateVotes
    streamObservations := obs.streamValues.entries.foldl (contribute obs.cycleStartSeqNr) t.streamObservations }

def ofObservations (cfg : Config) (L : Libs) (aos : List Attributed) : ObservationTally :=
  aos.foldl (count cfg L) .empty

def hasChannelVotes (t : ObservationTally) : Bool :=
  0 < t.removeChannelVotesByID.size || 0 < t.updateVotes.size

end ObservationTally

/-- Verifies an attested report of a predecessor instance against a signer set. -/
abbrev RetirementVerifier := ConfigDigest → PredecessorConfig → Bytes → Except String RetirementReport

def electPredecessorConfig (votes : SortedMap VoteHash PredecessorVote) (f : ℕ) :
    Option PredecessorConfig :=
  (votes.entries.find? (fun e => e.2.votes > f)).map (fun e => e.2.config)

/-- Equal maps; an absent one equals the empty one. -/
def retirementAgrees (a b : RetirementReport) : Bool :=
  a.protocolVersion = b.protocolVersion &&
    a.validAfterNanoseconds.getD ∅ = b.validAfterNanoseconds.getD ∅

def acceptRetirement (cfg : Config) (verify : RetirementVerifier) (digest : ConfigDigest)
    (agreed : PredecessorConfig) (attested : Bytes) : Option RetirementReport :=
  match verify digest agreed attested with
  | .error _ => none
  | .ok r =>
    match r.checkCompatible cfg.protocolVersion with
    | .error _ => none
    | .ok () => some r

/-- The first accepted report, unless a later one disagrees with it. -/
def chooseRetirement : List RetirementReport → Option RetirementReport
  | [] => none
  | r :: rest => if rest.all (retirementAgrees r) then some r else none

def resolvePredecessorRetirement (cfg : Config) (verify : RetirementVerifier) (stage : LifeCycleStage)
    (t : ObservationTally) : Option RetirementReport :=
  match cfg.predecessorConfigDigest with
  | none => none
  | some digest =>
    if stage ≠ .staging then none
    else
      match electPredecessorConfig t.predecessorVotes cfg.f with
      | none => none
      | some agreed =>
        chooseRetirement (t.attestedRetirements.eraseDups.filterMap (acceptRetirement cfg verify digest agreed))

/-- The updates past the threshold, leaving out channels with more than one of them. -/
def passingUpdates (t : ObservationTally) (f : ℕ) : List UpdateVote :=
  let passing := updatesPast t.updateVotes f
  passing.filter (fun v => (passing.filter (fun w => w.channelID = v.channelID)).length ≤ 1)

def applyUpdate (factsOf : FactsOf) (acc : ChannelDefinitionsBudget × ChannelDefinitions)
    (v : UpdateVote) : Go (ChannelDefinitionsBudget × ChannelDefinitions) :=
  let (budget,defs) := acc
  let prev := defs.get? v.channelID
  if prev.isNone ∧ defs.size ≥ maxOutcomeChannelDefinitionsLength then .ok (budget,defs)
  else do
    let (fits,budget) ← budget.replace factsOf v.channelID prev v.definition
    if fits then .ok (budget,defs.insert v.channelID v.definition)
    else .ok (budget,defs)

def applyRemovals (defs : ChannelDefinitions) (t : ObservationTally) (f : ℕ) : ChannelDefinitions :=
  defs.filter (fun id _ => (t.removeChannelVotesByID.get? id).getD 0 ≤ f)

/-- Applies removals, then updates. The budget is measured only if an update passes. -/
def applyChannelVotes (factsOf : FactsOf) (defs : ChannelDefinitions) (t : ObservationTally) (f : ℕ) :
    Go ChannelDefinitions :=
  let defs := applyRemovals defs t f
  match passingUpdates t f with
  | [] => .ok defs
  | updates => do
    let budget ← ChannelDefinitionsBudget.new factsOf defs
    let (_,defs) ← updates.foldlM (applyUpdate factsOf) (budget,defs)
    .ok defs

end DataStreams.V31
