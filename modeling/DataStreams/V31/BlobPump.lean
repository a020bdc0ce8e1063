import DataStreams.V31.Freshness
import DataStreams.V31.ObservationWire

/-! Beside the rounds a loop gathers values, broadcasts them as a blob and parks it for the next
round (v31). -/
namespace DataStreams.V31
open List SortedMap
variable {M : Type} {I : Instance M}

def blobFetchMarginRounds : ℕ := 3
def blobBroadcastAttempts : ℕ := 3

structure PumpInput where
  streams : List StreamID
  seqNr : ℕ
  lifeCycleStage : LifeCycleStage

def PumpInput.observable (i : PumpInput) : Bool := i.seqNr ≠ 0 && i.streams ≠ [] && i.lifeCycleStage ≠ .retired

structure ParkedSnapshot extends BlobSnapshot where
  blobExpirationHintSeqNr : ℕ

structure PumpParams where
  wire : WireLibs
  decimal : DecimalEncoder
  zstd : Bytes → Bytes
  maxBlobPayloadBytes : ℕ
  blobLifetimeRounds : ℕ

/-- Streams that the data source added are dropped. -/
def requestedValues (streams : List StreamID) (sv : StreamValues) :
    StreamValues :=
  if sv.size > streams.length then .ofList (streams.map fun id => (id,(sv.get? id).join)) else sv

def observedValues (sv : StreamValues) : SortedMap StreamID StreamValue :=
  .ofList (sv.entries.filterMap fun e => e.2.map fun v => (e.1,v))

/-- An attempt knows the round published last and the transport, which returns a handle. -/
abbrev BroadcastAttempt := ℕ × (Bytes → ℕ → Option Bytes)

/-- The handle of the first attempt that succeeds, with its expiration hint. -/
def broadcast (blobLifetimeRounds : ℕ) (payload : Bytes) (cycleStartSeqNr : ℕ) (attempts : List BroadcastAttempt) :
    Option (Bytes × ℕ) :=
  (attempts.take blobBroadcastAttempts).findSome? fun (latestSeqNr,broadcastBlob) =>
    let expiresAt := (max cycleStartSeqNr latestSeqNr + blobLifetimeRounds) % 2 ^ 64
    (broadcastBlob payload expiresAt).map fun handle => (handle,expiresAt)

/-- The snapshot of the values `sv` that the data source left. Failures are only logged. -/
def observeStreamValuesAndBroadcastBlob (P : PumpParams) (i : PumpInput) (sv : StreamValues)
    (attempts : List BroadcastAttempt) : Option ParkedSnapshot := do
  let values := dropUnobservable P.wire P.decimal (requestedValues i.streams sv)
  let payload ← (marshalStreamValues P.decimal P.zstd P.maxBlobPayloadBytes values.entries i.seqNr).toOption.join
  let (handle,expiresAt) ← broadcast P.blobLifetimeRounds payload i.seqNr attempts
  some ⟨⟨handle,i.seqNr,observedValues values⟩,expiresAt⟩

lemma mem_keys_observedValues {sv : StreamValues} {id : StreamID}
    (h : id ∈ (observedValues sv).keys) : id ∈ sv.keys := by
  obtain ⟨e,he,rfl⟩ := mem_map.1 h
  rcases mem_entries_insertMany he with he | he
  · exact absurd he not_mem_nil
  · obtain ⟨e',he',hv⟩ := mem_filterMap.1 he
    obtain ⟨v,-,rfl⟩ := Option.map_eq_some_iff.1 hv
    exact mem_map.2 ⟨e',he',rfl⟩

/-- A data source that keeps the streams it was given leaves no others in the blob. -/
lemma keys_requestedValues_subset {streams : List StreamID} {sv : StreamValues}
    (hnodup : streams.Nodup) (hkeys : streams ⊆ sv.keys) : (requestedValues streams sv).keys ⊆ streams := by
  unfold requestedValues
  split_ifs with hsize
  · intro id hid
    obtain ⟨e,he,rfl⟩ := mem_map.1 hid
    rcases mem_entries_insertMany he with he | he
    · exact absurd he not_mem_nil
    · obtain ⟨id,hrequested,rfl⟩ := mem_map.1 he
      exact hrequested
  · have hlength : sv.keys.length ≤ streams.length := by
      rw [SortedMap.keys,length_map]
      exact Nat.not_lt.1 hsize
    exact ((hnodup.subperm hkeys).perm_of_length_le hlength).symm.subset

lemma observeStreamValues_spec {P : PumpParams} {i : PumpInput} {sv : StreamValues}
    {attempts : List BroadcastAttempt} {s : ParkedSnapshot} (hnodup : i.streams.Nodup) (hkeys : i.streams ⊆ sv.keys)
    (h : observeStreamValuesAndBroadcastBlob P i sv attempts = some s) :
    s.cycleStartSeqNr = i.seqNr ∧ s.values.keys ⊆ i.streams := by
  obtain ⟨payload,-,h⟩ := Option.bind_eq_some_iff.1 h
  obtain ⟨⟨handle,expiresAt⟩,-,h⟩ := Option.bind_eq_some_iff.1 h
  cases h
  refine ⟨rfl,fun id hid => keys_requestedValues_subset hnodup hkeys ?_⟩
  have hkept := mem_keys_observedValues hid
  rwa [SortedMap.mem_keys,dropUnobservable,get?_mapVal,Option.isSome_map,← SortedMap.mem_keys] at hkept

structure BlobPump where
  input : PumpInput
  latest : Option ParkedSnapshot
  /-- The input of the cycle in flight. -/
  inFlight : Option PumpInput

def Run.pumpInput (run : Run I) (n : ℕ) : PumpInput :=
  ⟨observableStreams (run.state n).channelDefinitions,n + 1,(run.state n).lifeCycleStage⟩

namespace BlobPump
def isFetchableAtSeqNr (s : ParkedSnapshot) (seqNr : ℕ) : Bool :=
  seqNr ≤ s.blobExpirationHintSeqNr && s.blobExpirationHintSeqNr - seqNr ≥ blobFetchMarginRounds

def isWithinRoundAgeAtSeqNr (s : ParkedSnapshot) (seqNr : ℕ) : Bool :=
  seqNr ≥ s.cycleStartSeqNr && seqNr - s.cycleStartSeqNr ≤ maxStreamValueAgeRounds

/-- What the rounds see of the pump, whether or not they waited for a cycle to end. -/
def take (p : BlobPump) (seqNr : ℕ) : Option BlobSnapshot :=
  (p.latest.filter fun s => isFetchableAtSeqNr s seqNr && isWithinRoundAgeAtSeqNr s seqNr).map ParkedSnapshot.toBlobSnapshot

def start : BlobPump := ⟨⟨[],0,.unset⟩,none,none⟩

/-- Rounds and the loop in any interleaving. A cycle may fail or panic at any point. -/
inductive Step (run : Run I) (P : PumpParams) (p : BlobPump) : BlobPump → Prop
  | setInput {n : ℕ} (hn : 1 ≤ n) (hlen : n ≤ run.len) (hobservable : (run.pumpInput n).observable = true) :
    Step run P p { p with input := run.pumpInput n }
  | beginCycle (h : p.inFlight = none) (hobservable : p.input.observable = true) :
    Step run P p { p with inFlight := some p.input }
  | park {i sv attempts s} (h : p.inFlight = some i) (hkeys : i.streams ⊆ SortedMap.keys sv)
      (hs : observeStreamValuesAndBroadcastBlob P i sv attempts = some s) :
    Step run P p { p with latest := some s,inFlight := none }
  | fail (h : p.inFlight ≠ none) : Step run P p { p with inFlight := none }

inductive Reachable (run : Run I) (P : PumpParams) : BlobPump → Prop
  | start : Reachable run P start
  | step {p p'} (h : Reachable run P p) (hstep : p.Step run P p') : Reachable run P p'

/-- What the pump holds was published by a round. -/
structure Published (run : Run I) (p : BlobPump) : Prop where
  input : p.input.observable = true → ∃ n, 1 ≤ n ∧ p.input = run.pumpInput n
  inFlight : ∀ i ∈ p.inFlight, ∃ n, 1 ≤ n ∧ i = run.pumpInput n
  latest : ∀ s ∈ p.latest, ∃ n, 1 ≤ n ∧ s.cycleStartSeqNr = n + 1 ∧
    s.values.keys ⊆ observableStreams (run.state n).channelDefinitions

lemma Published.step {run : Run I} {P : PumpParams} {p p' : BlobPump} (h : p.Published run) (hstep : p.Step run P p') :
    p'.Published run := by
  cases hstep with
  | @setInput n hn => exact ⟨fun _ => ⟨n,hn,rfl⟩,h.inFlight,h.latest⟩
  | beginCycle hidle hobservable =>
    refine ⟨h.input,?_,h.latest⟩
    rintro i ⟨⟩
    exact h.input hobservable
  | @park i sv attempts s hi hkeys hs =>
    refine ⟨h.input,nofun,?_⟩
    rintro _ ⟨⟩
    obtain ⟨n,hn,rfl⟩ := h.inFlight i hi
    obtain ⟨hcycle,hvalues⟩ := observeStreamValues_spec (nodup_dedup _) hkeys hs
    exact ⟨n,hn,hcycle,hvalues⟩
  | fail => exact ⟨h.input,nofun,h.latest⟩

lemma Reachable.published {run : Run I} {P : PumpParams} {p : BlobPump} (h : Reachable run P p) : p.Published run := by
  induction h with
  | start => exact ⟨fun h => absurd h (by decide),nofun,nofun⟩
  | step _ hstep ih => exact ih.step hstep

end BlobPump
end DataStreams.V31
