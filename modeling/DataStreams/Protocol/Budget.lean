import DataStreams.ReportCodec.EVM
import Mathlib.Data.Finset.Card

/-! The facts of a definition and the budgets of a whole set of them. -/
namespace DataStreams
open List SortedMap

structure ChannelFacts where
  verifyErr : Option String
  admissionErr : Option String
  feedID : Option ℕ
  feedIDErr : Option String
  calculatedIDs : List StreamID
  calculatedErr : Option String
  twapCalls : ℕ
  deriving DecidableEq

def ChannelFacts.zero : ChannelFacts := ⟨none,none,none,none,[],none,0⟩

def admissionErrorOf : Go Unit → Go (Option String)
  | .ok () => .ok none
  | .error (.error e) => .ok (some e)
  | .error (.panic m) => Go.panics m

namespace ReportCodec
variable (codec : ReportCodec)
def admissionErr (cd : ChannelDefinition) : Go (Option String) :=
  match codec.verifyForAdmission with
  | some check => admissionErrorOf (check cd)
  | none => .ok none

def feedFacts (cd : ChannelDefinition) : Option ℕ × Option String :=
  match codec.feedID with
  | none => (none,none)
  | some feed =>
    match feed cd with
    | .ok id => (id,none)
    | .error e => (none,some e)

def twapCount (cd : ChannelDefinition) : Go ℕ :=
  match codec.twapCalls with
  | some count => count cd
  | none => .ok 0

def acceptedFacts (cd : ChannelDefinition) (facts : ChannelFacts) :
    Go ChannelFacts := do
  let admissionErr ← codec.admissionErr cd
  let twapCalls ← codec.twapCount cd
  .ok { facts with
    admissionErr := admissionErr
    feedID := (codec.feedFacts cd).1
    feedIDErr := (codec.feedFacts cd).2
    twapCalls := twapCalls }

end ReportCodec

def ownFacts (J : JSON) (id : ChannelID) (cd : ChannelDefinition) : ChannelFacts :=
  let (ids,err) := if cd.hasCalculatedStreams then calculatedStreamIDs J none cd id else ([],none)
  { ChannelFacts.zero with calculatedIDs := ids, calculatedErr := err }

/-- Every check that needs nothing but the definition. -/
def deriveChannelFacts (J : JSON) (codecs : ReportCodecs) (id : ChannelID) (cd : ChannelDefinition) :
    Go ChannelFacts :=
  match codecs cd.reportFormat with
  | none => .ok (ownFacts J id cd)
  | some codec =>
    match codec.verify cd with
    | .error e => .ok { ownFacts J id cd with verifyErr := some e }
    | .ok () => codec.acceptedFacts cd (ownFacts J id cd)

abbrev FactsOf := ChannelID → ChannelDefinition → Go ChannelFacts

variable (factsOf : FactsOf)
def liveFacts (id : ChannelID) (cd : ChannelDefinition) : Go ChannelFacts :=
  if cd.tombstone then .ok .zero else factsOf id cd

def optionalFacts (id : ChannelID) : Option ChannelDefinition → Go (Option (ChannelDefinition × ChannelFacts))
  | none => .ok none
  | some cd => do
    let f ← liveFacts factsOf id cd
    .ok (some (cd,f))

def allFacts (defs : ChannelDefinitions) :
    Go (List (ChannelID × ChannelDefinition × ChannelFacts)) :=
  defs.entries.mapM (fun e => do
    let f ← liveFacts factsOf e.1 e.2
    .ok (e.1,e.2,f))

def channelFactsRetained : ℕ := 3

/-- Facts of a channel's recent definitions, oldest first. -/
structure ChannelAnalysisCache where
  facts : SortedMap ChannelID (List (ChannelDefinition × ChannelFacts))

namespace ChannelAnalysisCache
def empty : ChannelAnalysisCache := ⟨∅⟩

def entries (c : ChannelAnalysisCache) (id : ChannelID) : List (ChannelDefinition × ChannelFacts) :=
  (c.facts.get? id).getD []

def get (c : ChannelAnalysisCache) (id : ChannelID) (cd : ChannelDefinition) : Option ChannelFacts :=
  ((c.entries id).find? (fun e => e.1 = cd)).map Prod.snd

/-- Records facts, dropping the channel's oldest entry past the bound. -/
def put (c : ChannelAnalysisCache) (id : ChannelID) (cd : ChannelDefinition) (f : ChannelFacts) :
    ChannelAnalysisCache :=
  if (c.entries id).any (fun e => e.1 = cd) then c
  else
    let entries := c.entries id ++ [(cd,f)]
    ⟨c.facts.insert id (entries.drop (entries.length - channelFactsRetained))⟩

def prune (c : ChannelAnalysisCache) (defs : ChannelDefinitions) : ChannelAnalysisCache :=
  ⟨c.facts.filter (fun id _ => defs.contains id)⟩

/-- The caches a node with these codecs can hold: each entry was put with the facts
derived for its definition. -/
inductive Reachable (J : JSON) (codecs : ReportCodecs) : ChannelAnalysisCache → Prop
  | empty : Reachable J codecs .empty
  | put {c id cd f}
      (h : Reachable J codecs c) (hf : deriveChannelFacts J codecs id cd = .ok f) :
      Reachable J codecs (c.put id cd f)
  | prune {c} (defs : ChannelDefinitions) (h : Reachable J codecs c) :
      Reachable J codecs (c.prune defs)

end ChannelAnalysisCache

def channelFactsFor (J : JSON) (codecs : ReportCodecs) (cache : ChannelAnalysisCache) : FactsOf :=
  fun id cd =>
    match cache.get id cd with
    | some f => .ok f
    | none => deriveChannelFacts J codecs id cd

namespace ChannelAnalysisCache.Reachable
variable {J : JSON} {codecs : ReportCodecs} {c : ChannelAnalysisCache}
lemma derive_eq (h : Reachable J codecs c) {id : ChannelID} {e : ChannelDefinition × ChannelFacts}
    (he : e ∈ c.entries id) : deriveChannelFacts J codecs id e.1 = .ok e.2 := by
  induction h generalizing id e with
  | empty => simp [ChannelAnalysisCache.empty,entries] at he
  | @put c id' cd f _ hf ih =>
    unfold ChannelAnalysisCache.put at he
    split_ifs at he
    · exact ih he
    · by_cases hid : id = id'
      · subst hid
        simp only [entries,get?_insert_self,Option.getD_some] at he
        rcases mem_append.1 (mem_of_mem_drop he) with hold | hnew
        · exact ih hold
        · cases mem_singleton.1 hnew
          exact hf
      · simp only [entries,get?_insert_of_ne _ _ hid] at he
        exact ih he
  | @prune c defs _ ih =>
    refine ih ?_
    simp only [entries,ChannelAnalysisCache.prune,get?_filter] at he ⊢
    cases hget : c.facts.get? id with
    | none => simp [hget] at he
    | some l =>
      by_cases hd : defs.contains id = true
      · simpa [hget,Option.filter,hd] using he
      · simp [hget,Option.filter,hd] at he

/-- A cache changes the cost of facts and not their value. -/
lemma channelFactsFor_eq (h : Reachable J codecs c) :
    channelFactsFor J codecs c = deriveChannelFacts J codecs := by
  funext id cd
  unfold channelFactsFor
  split
  · next f hget =>
    simp only [get,Option.map_eq_some_iff] at hget
    obtain ⟨e,he,rfl⟩ := hget
    have hcd : e.1 = cd := by simpa using find?_some he
    exact (hcd ▸ h.derive_eq (mem_of_find?_eq_some he)).symm
  · rfl

end ChannelAnalysisCache.Reachable

structure ChannelDefinitionsBudget where
  streamEntries : ℤ
  optsBytes : ℤ
  calculatedStreams : ℤ
  twapCalls : ℤ
  aggregatedPairs : Multiset (StreamID × Aggregator)
  streamIDs : Multiset StreamID
  observed : Multiset StreamID
  calculated : Multiset StreamID
  clashes : ℤ

structure BudgetTotals where
  streamEntries : ℤ
  optsBytes : ℤ
  aggregatedPairs : ℤ
  calculatedStreams : ℤ
  twapCalls : ℤ
  streamIDs : ℤ
  clashes : ℤ
  deriving DecidableEq

/-- Whether a set gains a definition or loses it. -/
inductive Delta
  | add
  | remove
  deriving DecidableEq

def Delta.sign : Delta → ℤ
  | .add => 1
  | .remove => -1

/-- One more, or one fewer, holder of a key. -/
def Delta.count {K : Type} [DecidableEq K] (d : Delta) (m : Multiset K) (k : K) : Multiset K :=
  match d with
  | .add => k ::ₘ m
  | .remove => m.erase k

def aggregatedPairsOf (cd : ChannelDefinition) : List (StreamID × Aggregator) :=
  if cd.tombstone ∨ cd.isBackfill then []
  else (cd.streams.filter (fun s => s.aggregator ≠ .unset ∧ s.aggregator ≠ .calculated)).map
    (fun s => (s.streamID,s.aggregator))

namespace ChannelDefinitionsBudget
def empty : ChannelDefinitionsBudget := ⟨0,0,0,0,0,0,0,0,0⟩

def totals (b : ChannelDefinitionsBudget) : BudgetTotals :=
  ⟨b.streamEntries,b.optsBytes,b.aggregatedPairs.dedup.card,b.calculatedStreams,b.twapCalls,
    b.streamIDs.dedup.card,b.clashes⟩

/-- Claims on a stream ID beyond its first owner: the observing channels together are one
owner and each declaring expression is another. -/
def excessClaims (b : ChannelDefinitionsBudget) (sid : StreamID) : ℤ :=
  if b.calculated.count sid = 0 then 0
  else if 0 < b.observed.count sid then b.calculated.count sid
  else b.calculated.count sid - 1

variable (d : Delta)
def ownObserved (b : ChannelDefinitionsBudget) (sid : StreamID) :
    ChannelDefinitionsBudget :=
  let b' := { b with observed := d.count b.observed sid }
  { b' with clashes := b.clashes - b.excessClaims sid + b'.excessClaims sid }

def ownCalculated (b : ChannelDefinitionsBudget) (sid : StreamID) :
    ChannelDefinitionsBudget :=
  let b' := { b with calculated := d.count b.calculated sid }
  { b' with clashes := b.clashes - b.excessClaims sid + b'.excessClaims sid }

def applyStream (b : ChannelDefinitionsBudget) (s : Stream) : ChannelDefinitionsBudget :=
  let b := { b with streamIDs := d.count b.streamIDs s.streamID }
  if s.aggregator ≠ .calculated then b.ownObserved d s.streamID else b

def applyPersisted (b : ChannelDefinitionsBudget) (cd : ChannelDefinition) :
    ChannelDefinitionsBudget :=
  { b with
    streamEntries := b.streamEntries + d.sign * cd.streams.length
    optsBytes := b.optsBytes + d.sign * cd.opts.length
    aggregatedPairs := (aggregatedPairsOf cd).foldl d.count b.aggregatedPairs }

def applyLive (b : ChannelDefinitionsBudget) (cd : ChannelDefinition) (f : ChannelFacts) :
    ChannelDefinitionsBudget :=
  let b := cd.streams.foldl (applyStream d) b
  let b := { b with
    twapCalls := b.twapCalls + d.sign * f.twapCalls
    calculatedStreams := b.calculatedStreams + d.sign * f.calculatedIDs.length }
  f.calculatedIDs.foldl (ownCalculated d) b

/-- Adds a definition to the measured set, or takes it out. A tombstone costs only what
is persisted. -/
def apply (b : ChannelDefinitionsBudget) (cd : ChannelDefinition) (f : ChannelFacts) :
    ChannelDefinitionsBudget :=
  if cd.tombstone then b.applyPersisted d cd else (b.applyPersisted d cd).applyLive d cd f

def measure (channels : List (ChannelDefinition × ChannelFacts)) : ChannelDefinitionsBudget :=
  channels.foldl (fun b c => b.apply .add c.1 c.2) empty

end ChannelDefinitionsBudget

def growsPast (before after limit : ℤ) : Bool := after > limit && after > before

def BudgetTotals.grows (after before : BudgetTotals) : Bool :=
  growsPast before.streamEntries after.streamEntries maxTotalStreamEntries ||
  growsPast before.optsBytes after.optsBytes maxTotalOptsBytes ||
  growsPast before.aggregatedPairs after.aggregatedPairs maxPersistedAggregates ||
  growsPast before.calculatedStreams after.calculatedStreams maxTotalCalculatedStreams ||
  growsPast before.twapCalls after.twapCalls maxTotalTWAPCalls ||
  growsPast before.streamIDs after.streamIDs maxObservationStreamValuesLength ||
  growsPast before.clashes after.clashes 0

namespace ChannelDefinitionsBudget
/-- Swaps a channel's definition, with no previous one for an addition. A change that
grows a total past its budget is refused and undone. -/
def replaceFacts (b : ChannelDefinitionsBudget) (prev : Option (ChannelDefinition × ChannelFacts))
    (next : ChannelDefinition × ChannelFacts) : Bool × ChannelDefinitionsBudget :=
  let taken := prev.elim b (fun p => b.apply .remove p.1 p.2)
  let after := taken.apply .add next.1 next.2
  if after.totals.grows b.totals then
    let undone := after.apply .remove next.1 next.2
    (false,prev.elim undone (fun p => undone.apply .add p.1 p.2))
  else (true,after)

def replace (factsOf : FactsOf) (b : ChannelDefinitionsBudget) (id : ChannelID)
    (prev : Option ChannelDefinition) (next : ChannelDefinition) :
    Go (Bool × ChannelDefinitionsBudget) := do
  let prev ← optionalFacts factsOf id prev
  let f ← liveFacts factsOf id next
  .ok (b.replaceFacts prev (next,f))

def new (factsOf : FactsOf) (defs : ChannelDefinitions) : Go ChannelDefinitionsBudget := do
  let channels ← allFacts factsOf defs
  .ok (measure (channels.map Prod.snd))

/-- The budgets a measured set exceeds, except for the stream IDs. -/
def err (b : ChannelDefinitionsBudget) : Option String :=
  if b.streamEntries > maxTotalStreamEntries then some "too many stream entries across all channels"
  else if b.aggregatedPairs.dedup.card > maxPersistedAggregates then
    some "too many aggregated (stream, aggregator) pairs across all channels"
  else if b.optsBytes > maxTotalOptsBytes then some "too many opts bytes across all channels"
  else if b.calculatedStreams > maxTotalCalculatedStreams then
    some "too many calculated streams across all channels"
  else if b.twapCalls > maxTotalTWAPCalls then some "too many TWAP calls across all channels"
  else none

end ChannelDefinitionsBudget
end DataStreams
