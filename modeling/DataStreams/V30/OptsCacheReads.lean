import DataStreams.Calculated.Evaluation
import DataStreams.V30.Watermarks

/-! The opts cache of an oracle is changed by every call, also for rounds that are never
committed (v30). -/
namespace DataStreams.V30.Plugin
open SortedMap Go
variable {P : Plugin} {cache : OptsCache} {prev : Outcome} {t : ObservationTally}

variable (P) in
def encodedOutcome (cache : OptsCache) (seqNr : ℕ) (prev : Outcome) (aos : List Bytes) : Go Outcome := do
  let (out,_) ← P.outcome cache seqNr prev aos
  Go.ofExcept (out.recoded P.config.protocolVersion)

def rawOpts (o : Outcome) : SortedMap ChannelID Bytes := (OptsCache.ofDefinitions o.channelDefinitions).raw

/-- The cache is rebuilt, or it holds these opts and no others. -/
def Current (opts : SortedMap ChannelID Bytes) (cache : OptsCache) : Prop := cache.len ≠ opts.size ∨ cache.raw = opts

variable (P) in
/-- The caches of an oracle that was started at some outcome and has then been called for
each round that follows, on its committed outcome. -/
inductive Follows : Outcome → OptsCache → Prop
  | restart (prev : Outcome) : Follows prev .empty
  | call {prev cache cache' seqNr out aos next} (h : Follows prev cache) (hround : 1 < seqNr)
      (hcall : P.outcome cache seqNr prev aos = .ok (out,cache'))
      (hnext : out.recoded P.config.protocolVersion = .ok next) : Follows next cache'

lemma ofDefinitions_foldl_applyChannel {defs : ChannelDefinitions} {pairs : List (ChannelWork × ChannelResult)}
    (hpairs : ∀ e ∈ pairs, defs.get? e.1.cid = some e.1.cd) {s : Calculated}
    (h : OptsCache.ofDefinitions s.channelDefinitions = .ofDefinitions defs) :
    OptsCache.ofDefinitions (pairs.foldl (applyChannel true) s).channelDefinitions = .ofDefinitions defs := by
  induction pairs generalizing s with
  | nil => exact h
  | cons e pairs ih =>
    refine ih (fun e' he' => hpairs e' (List.mem_cons_of_mem _ he')) ?_
    rw [← h]
    simp only [applyChannel,if_true,appendCalculated]
    split_ifs
    · refine congrArg OptsCache.mk (SortedMap.ext fun id => ?_)
      have hid := congrArg (fun c => c.raw.get? id) h
      simp only [OptsCache.get?_raw_ofDefinitions] at hid
      rw [get?_mapVal,get?_mapVal,get?_insert]
      split_ifs with heq
      · subst heq
        rw [hpairs e List.mem_cons_self] at hid
        exact hid.symm
      · rfl
    · rfl

/-- The calculated streams change no opts. -/
lemma ofDefinitions_evaluate {calculated : Calculated} (h : P.evaluate cache prev t = .ok calculated) :
    OptsCache.ofDefinitions calculated.channelDefinitions = .ofDefinitions (P.votedChannels cache prev t).definitions := by
  obtain ⟨pairs,-,h⟩ := bind_ok_iff.1 h
  obtain ⟨works,hworks,h⟩ := bind_ok_iff.1 h
  cases h
  obtain ⟨works',hworks',-,hprepared,-⟩ := prepareCalculatedStreams_spec
    ⟨P.libs,P.exprs,(P.votedChannels cache prev t).definitions,medianTimestamp t.timestampsNanoseconds,
      some (P.votedChannels cache prev t).opts,none⟩ (fun _ => ⟨newDefaultEnvironment,.new⟩) (aggregatesOf pairs)
  cases hworks.symm.trans hworks'
  refine ofDefinitions_foldl_applyChannel (fun e he => ?_) rfl
  obtain ⟨aggByStream,names,hfrom⟩ := hprepared e.1 (List.of_mem_zip he).1
  exact hfrom.channel.defined

/-- Channels whose opts are those of their definitions. -/
def Channels.InStep (c : Channels) : Prop := c.opts = .ofDefinitions c.definitions

lemma Channels.InStep.remove {c : Channels} (h : c.InStep) (id : ChannelID) : (c.remove id).InStep := by
  refine congrArg OptsCache.mk (SortedMap.ext fun a => ?_)
  rw [h,get?_erase,OptsCache.get?_raw_ofDefinitions,get?_mapVal,Channels.remove,get?_erase]
  split_ifs <;> rfl

lemma Channels.InStep.install {c : Channels} (h : c.InStep) (v : UpdateVote) : (c.install v).InStep := by
  unfold Channels.install
  split_ifs
  · exact h
  · refine congrArg OptsCache.mk (SortedMap.ext fun a => ?_)
    rw [h,get?_insert,OptsCache.get?_raw_ofDefinitions,get?_mapVal,get?_insert]
    split_ifs <;> rfl

lemma size_rawOpts (o : Outcome) : (rawOpts o).size = o.channelDefinitions.size := by
  rw [SortedMap.size,rawOpts,OptsCache.ofDefinitions,entries_mapVal,List.length_map]
  rfl

lemma startChannels_of_current (h : Current (rawOpts prev) cache) :
    startChannels cache prev = ⟨prev.channelDefinitions,.ofDefinitions prev.channelDefinitions⟩ := by
  unfold startChannels
  rcases h with hlen | hraw
  · rw [if_pos (size_rawOpts prev ▸ hlen)]
  · have heq : cache = .ofDefinitions prev.channelDefinitions := congrArg OptsCache.mk hraw
    rw [heq,ite_self]

lemma current_empty (opts : SortedMap ChannelID Bytes) : Current opts .empty := by
  by_cases hsize : opts.size = 0
  · right
    have hnil : opts.entries = [] := List.length_eq_zero_iff.1 hsize
    cases opts
    cases hnil
    rfl
  · exact .inl (Ne.symm hsize)

lemma votedChannels_inStep (h : Current (rawOpts prev) cache) : (P.votedChannels cache prev t).InStep := by
  rw [votedChannels,startChannels_of_current h]
  refine List.foldlRecOn _ _ (motive := Channels.InStep) ?_ fun c hc v _ => hc.install v
  exact List.foldlRecOn _ _ (motive := Channels.InStep) rfl fun c hc id _ => hc.remove id

lemma recoded_eq_ok {o next : Outcome} {v : ℕ} (h : o.recoded v = .ok next) :
    next.channelDefinitions = o.channelDefinitions ∧
      ∀ id, (next.validAfterNanoseconds.get? id).isSome = (o.validAfterNanoseconds.get? id).isSome := by
  unfold Outcome.recoded at h
  split_ifs at h
  · cases h
    exact ⟨rfl,fun _ => rfl⟩
  · cases h
    exact ⟨rfl,fun id => by rw [get?_mapVal,Option.isSome_map]⟩

lemma outcome_eq_ok {seqNr : ℕ} {aos : List Bytes} {out : Outcome} {cache' : OptsCache} (hround : 1 < seqNr)
    (h : P.outcome cache seqNr prev aos = .ok (out,cache')) :
    ∃ t calculated, P.decodeObservations aos .empty = .ok t ∧ P.evaluate cache prev t = .ok calculated ∧
      out = P.nextOutcome cache prev t calculated ∧ cache' = (P.votedChannels cache prev t).opts := by
  unfold outcome at h
  split_ifs at h with hq hseq
  · exact absurd h (err_ne_ok _ _)
  · omega
  · obtain ⟨t,ht,h⟩ := bind_ok_iff.1 h
    split_ifs at h
    · exact absurd h (err_ne_ok _ _)
    · obtain ⟨calculated,hcalculated,h⟩ := bind_ok_iff.1 h
      cases h
      exact ⟨t,calculated,ht,hcalculated,rfl,rfl⟩

lemma Follows.current (h : P.Follows prev cache) : Current (rawOpts prev) cache := by
  induction h with
  | restart prev => exact current_empty _
  | call _ hround hcall hnext ih =>
    obtain ⟨t,calculated,-,hcalculated,rfl,rfl⟩ := outcome_eq_ok hround hcall
    right
    rw [rawOpts,(recoded_eq_ok hnext).1,votedChannels_inStep ih]
    exact congrArg OptsCache.raw (ofDefinitions_evaluate hcalculated).symm

variable {opts : SortedMap ChannelID Bytes} {id : ChannelID} {raw : Bytes} {stale : Option Bytes}
end DataStreams.V30.Plugin
