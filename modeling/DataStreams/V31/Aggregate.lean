import DataStreams.Protocol.AggregateOrder
import DataStreams.V31.HistoryRequirements

/-! A round aggregates every pair of a stream and an aggregator that a live channel lists, one
pair once (v31). -/
namespace DataStreams
open List Go

def Aggregator.named : Aggregator → Bool
  | .other _ => false
  | _ => true

lemma Aggregator.eq_of_code_of_named {a b : Aggregator} (hcode : a.code = b.code) (hnamed : a.named = b.named) : a = b := by
  cases a <;> cases b <;> simp_all [code,named]

def Stream.toProd (s : Stream) : ℕ ×ₗ ℕ ×ₗ Bool := toLex (s.streamID,toLex (s.aggregator.code,s.aggregator.named))

lemma Stream.toProd_injective : Function.Injective Stream.toProd := by
  rintro ⟨id,a⟩ ⟨id',a'⟩ h
  have hid : id = id' := congrArg (fun p : ℕ ×ₗ ℕ ×ₗ Bool => (ofLex p).1) h
  have hcode : a.code = a'.code := congrArg (fun p : ℕ ×ₗ ℕ ×ₗ Bool => (ofLex (ofLex p).2).1) h
  have hnamed : a.named = a'.named := congrArg (fun p : ℕ ×ₗ ℕ ×ₗ Bool => (ofLex (ofLex p).2).2) h
  rw [hid,Aggregator.eq_of_code_of_named hcode hnamed]

/-- By stream, then by the number of the aggregator. -/
instance : LinearOrder Stream := LinearOrder.lift' Stream.toProd Stream.toProd_injective

namespace V31
structure TimestampedStreamValue where
  observedAtNanoseconds : ℕ
  streamValue : StreamValue
  deriving DecidableEq

variable (v : TimestampedStreamValue)
def TimestampedStreamValue.toValue : StreamValue :=
  .timestamped v.observedAtNanoseconds v.streamValue

abbrev CarryForward := SortedMap Stream TimestampedStreamValue

def maxTimestampedFutureSkew : ℕ := 10 * 10 ^ 9

def tooFarAhead (now : ℕ) : Bool :=
  v.observedAtNanoseconds > u64Add now maxTimestampedFutureSkew

/-- What a round makes of a pair: the value it publishes, the one it carries on and the one
it offers to stream history. -/
structure AggregateOutcome where
  published : Option StreamValue
  kept : Option TimestampedStreamValue
  recorded : Option StreamValue

/-- The carried value again, if there is one. -/
def AggregateOutcome.republish (prev : Option TimestampedStreamValue) : AggregateOutcome :=
  ⟨prev.map TimestampedStreamValue.toValue,prev,none⟩

def AggregateOutcome.adopt : AggregateOutcome := ⟨some v.toValue,some v,some v.toValue⟩

def usableCarry (prev : Option TimestampedStreamValue) (now : ℕ) : Option TimestampedStreamValue :=
  prev.filter (fun v => !tooFarAhead v now)

def newerWins (prev : Option TimestampedStreamValue) (v : TimestampedStreamValue) : TimestampedStreamValue :=
  match prev with
  | none => v
  | some p => if v.observedAtNanoseconds > p.observedAtNanoseconds then v else p

def settlePair (prev : Option TimestampedStreamValue) (now : ℕ) : Option StreamValue → AggregateOutcome
  | none => .republish prev
  | some (.timestamped t v) =>
    if tooFarAhead ⟨t,v⟩ now then .republish prev else .adopt (newerWins prev ⟨t,v⟩)
  -- a value without a timestamp drops the carried one
  | some v => ⟨some v,none,some v⟩

/-- An unknown aggregator keeps what the pair had without publishing it. -/
def aggregatePair (aggF : Option AggregatorFunc) (values : List (Option StreamValue)) (minContributions : ℕ)
    (prev : Option TimestampedStreamValue) (now : ℕ) : Go AggregateOutcome :=
  match aggF with
  | none => .ok ⟨none,usableCarry prev now,none⟩
  | some aggF =>
    match aggF values minContributions with
    | .error (.panic e) => .error (.panic e)
    | .error (.error _) => .ok (.republish (usableCarry prev now))
    | .ok result => .ok (settlePair (usableCarry prev now) now result)

structure AggregateState (σ : Type) where
  out : StreamAggregates
  carry : CarryForward
  history : σ

section Loop
variable {σ : Type} (outcome : Stream → Go AggregateOutcome) (record : σ → Stream → StreamValue → Except HistoryError σ)
def asHistoryError {α : Type} : Go α → Except HistoryError α
  | .ok a => .ok a
  | .error (.error e) => .error (.failure e)
  | .error (.panic e) => .error (.panic e)

def publish (out : StreamAggregates) (s : Stream) (v : StreamValue) : StreamAggregates :=
  fun id aggregator => if id = s.streamID ∧ aggregator = s.aggregator then some v else out id aggregator

/-- Calculated streams are not observed. A pair that has a value is not aggregated again. -/
def aggregateStream (st : AggregateState σ) (s : Stream) : Except HistoryError (AggregateState σ) :=
  if s.aggregator = .calculated then .ok st
  else if (st.out s.streamID s.aggregator).isSome then .ok st
  else do
    let o ← asHistoryError (outcome s)
    let history ← o.recorded.elim (.ok st.history) (record st.history s)
    .ok ⟨o.published.elim st.out (publish st.out s),o.kept.elim st.carry (st.carry.insert s),history⟩

def aggregateChannel (st : AggregateState σ) (cd : ChannelDefinition) : Except HistoryError (AggregateState σ) :=
  if cd.tombstone ∨ cd.isBackfill then .ok st else cd.streams.foldlM (aggregateStream outcome record) st

def aggregateListed (history : σ) (listed : List DefinitionEntry) : Except HistoryError (AggregateState σ) :=
  listed.foldlM (fun st e => aggregateChannel outcome record st e.2) ⟨fun _ _ => none,∅,history⟩

end Loop

def aggregatedStreams (listed : List DefinitionEntry) : List Stream :=
  listed.flatMap (fun e =>
    if e.2.tombstone ∨ e.2.isBackfill then [] else e.2.streams.filter (fun s => s.aggregator ≠ .calculated))

/-- What the oracles of an instance aggregate with. -/
structure AggregateLibs where
  sort : SliceSort
  history : HistoryLibs
  aggregationFaultTolerance : ℕ

variable (A : AggregateLibs)
def AggregateLibs.minContributions : ℕ := 2 * A.aggregationFaultTolerance + 1

def AggregateLibs.aggF (s : Stream) : Option AggregatorFunc :=
  getAggregatorFuncV31 A.sort A.history.wire A.history.marshalDecimal s.aggregator

def contributionsTo (streamObservations : SortedMap StreamID (List StreamValue)) (s : Stream) : List (Option StreamValue) :=
  ((streamObservations.get? s.streamID).getD []).map some

def AggregateLibs.outcome (prevCarry : CarryForward)
    (streamObservations : SortedMap StreamID (List StreamValue)) (now : ℕ) (s : Stream) : Go AggregateOutcome :=
  aggregatePair (A.aggF s) (contributionsTo streamObservations s) A.minContributions (prevCarry.get? s) now

/-- The pair of a stream and its aggregator under which history is kept. -/
def histKeyOf (s : Stream) : HistKey := ⟨s.streamID,s.aggregator.code⟩

variable {prev : Option TimestampedStreamValue} {now minContributions : ℕ} {values : List (Option StreamValue)}
lemma aggF_returns (A : AggregateLibs) {s : Stream} {aggF : AggregatorFunc} (h : A.aggF s = some aggF)
    (hmin : 1 ≤ minContributions) : SameResult (aggF values minContributions) (aggF values minContributions) := by
  obtain ⟨_,hmedian,hmode,hquote⟩ := aggregators_perm A.sort A.sort A.history.wire A.history.marshalDecimal (List.Perm.refl values) hmin
  unfold AggregateLibs.aggF getAggregatorFuncV31 getAggregatorFunc at h
  generalize s.aggregator = a at h
  split_ifs at h with ha
  · cases h
    exact hmedian
  · cases a with
    | median => exact absurd rfl ha
    | mode =>
      cases h
      exact hmode
    | quote =>
      cases h
      exact hquote
    | unset => cases h
    | calculated => cases h
    | other code => cases h

def outcomeOf (aggF : Option AggregatorFunc) (values : List (Option StreamValue)) (minContributions : ℕ)
    (prev : Option TimestampedStreamValue) (now : ℕ) : AggregateOutcome :=
  match aggF with
  | none => ⟨none,usableCarry prev now,none⟩
  | some aggF => settlePair (usableCarry prev now) now ((aggF values minContributions).getD none)

def AggregateLibs.outcomeOf (A : AggregateLibs) (prevCarry : CarryForward)
    (streamObservations : SortedMap StreamID (List StreamValue)) (now : ℕ) (s : Stream) : AggregateOutcome :=
  V31.outcomeOf (A.aggF s) (contributionsTo streamObservations s) A.minContributions (prevCarry.get? s) now

lemma AggregateLibs.outcome_eq_ok (A : AggregateLibs) (prevCarry : CarryForward)
    (streamObservations : SortedMap StreamID (List StreamValue)) (now : ℕ) (s : Stream) :
    A.outcome prevCarry streamObservations now s = .ok (A.outcomeOf prevCarry streamObservations now s) := by
  unfold outcome aggregatePair AggregateLibs.outcomeOf V31.outcomeOf
  cases haggF : A.aggF s with
  | none => rfl
  | some aggF =>
    have hreturns := @aggF_returns A.minContributions (contributionsTo streamObservations s) A s aggF haggF (Nat.le_add_left _ _)
    dsimp only
    generalize aggF (contributionsTo streamObservations s) A.minContributions = result at hreturns
    cases hreturns with
    | failed e e' => rfl
    | nothing => rfl
    | value h => rfl

lemma recorded_eq_none (aggF : Option AggregatorFunc)
    (h : (outcomeOf aggF values minContributions prev now).published = none) :
    (outcomeOf aggF values minContributions prev now).recorded = none := by
  unfold outcomeOf at h ⊢
  cases aggF with
  | none => rfl
  | some aggF =>
    dsimp only at h ⊢
    unfold settlePair at h ⊢
    split at h
    · rfl
    · split_ifs at h ⊢ with hfar
      · rfl
      · cases h
    · cases h

variable {σ : Type} {record : σ → Stream → StreamValue → Except HistoryError σ} {outcome : Stream → Go AggregateOutcome}
  {f : Stream → AggregateOutcome} {init : σ}

/-- The loop after it has visited these pairs. Every value that was offered to history was
offered once. -/
structure Visited (record : σ → Stream → StreamValue → Except HistoryError σ) (f : Stream → AggregateOutcome) (init : σ)
    (visited : List Stream) (st : AggregateState σ) : Prop where
  out : ∀ s : Stream, st.out s.streamID s.aggregator = if s ∈ visited then (f s).published else none
  carry : ∀ s, st.carry.get? s = if s ∈ visited then (f s).kept else none
  history : ∃ log : List (Stream × StreamValue), (log.map Prod.fst).Nodup ∧
    (∀ e, e ∈ log ↔ e.1 ∈ visited ∧ (f e.1).recorded = some e.2) ∧
    log.foldlM (fun h e => record h e.1 e.2) init = .ok st.history

lemma visited_nil : Visited record f init [] ⟨fun _ _ => none,∅,init⟩ where
  out _ := rfl
  carry _ := rfl
  history := ⟨[],nodup_nil,fun _ => by simp,rfl⟩

variable {visited : List Stream} {st : AggregateState σ}
lemma Visited.perm {visited' : List Stream} (h : Visited record f init visited st)
    (hmem : ∀ s, s ∈ visited ↔ s ∈ visited') : Visited record f init visited' st where
  out s := by rw [h.out s,if_congr (hmem s) rfl rfl]
  carry s := by rw [h.carry s,if_congr (hmem s) rfl rfl]
  history := by
    obtain ⟨log,hnodup,hlog,hrun⟩ := h.history
    exact ⟨log,hnodup,fun e => by rw [hlog,hmem],hrun⟩

lemma Visited.again {s : Stream}
    (h : Visited record f init visited st) (hs : s ∈ visited) : Visited record f init (visited ++ [s]) st := by
  apply h.perm
  intro t
  rw [mem_append,mem_singleton]
  constructor
  · exact .inl
  · rintro (ht | rfl)
    · exact ht
    · exact hs

variable (houtcome : ∀ s, outcome s = .ok (f s)) (hrecorded : ∀ s, (f s).published = none → (f s).recorded = none)
include houtcome hrecorded

variable {st' : AggregateState σ}
lemma Visited.aggregateStream {s : Stream} (h : Visited record f init visited st) (hs : s.aggregator ≠ .calculated)
    (hstep : V31.aggregateStream outcome record st s = .ok st') : Visited record f init (visited ++ [s]) st' := by
  rw [V31.aggregateStream,if_neg hs] at hstep
  by_cases hdone : (st.out s.streamID s.aggregator).isSome = true
  · -- the pair was visited before
    rw [if_pos hdone] at hstep
    cases hstep
    refine h.again ?_
    by_contra hnew
    rw [h.out s,if_neg hnew] at hdone
    cases hdone
  rw [if_neg hdone,houtcome s] at hstep
  obtain ⟨_,⟨⟩,hstep⟩ := bind_ok_iff.1 hstep
  obtain ⟨history,hhistory,⟨⟩⟩ := bind_ok_iff.1 hstep
  have hnone : st.out s.streamID s.aggregator = none := Option.not_isSome_iff_eq_none.1 hdone
  constructor
  · intro t
    simp only [mem_append,mem_singleton]
    by_cases hts : t = s
    · subst hts
      rw [if_pos (.inr rfl)]
      cases hpub : (f t).published with
      | none => exact hnone
      | some v => exact if_pos ⟨rfl,rfl⟩
    · rw [if_congr (or_iff_left hts) rfl rfl,← h.out t]
      cases hpub : (f s).published with
      | none => rfl
      | some v =>
        apply if_neg
        rintro ⟨hid,hagg⟩
        apply hts
        cases t
        cases s
        cases hid
        cases hagg
        rfl
  · intro t
    simp only [mem_append,mem_singleton]
    by_cases hts : t = s
    · subst hts
      rw [if_pos (.inr rfl)]
      cases hkept : (f t).kept with
      | none =>
        show st.carry.get? t = none
        rw [h.carry t,hkept,ite_self]
      | some v => exact SortedMap.get?_insert_self _ _ _
    · rw [if_congr (or_iff_left hts) rfl rfl,← h.carry t]
      cases hkept : (f s).kept with
      | none => rfl
      | some v => exact SortedMap.get?_insert_of_ne _ _ hts
  · obtain ⟨log,hnodup,hlog,hrun⟩ := h.history
    cases hrec : (f s).recorded with
    | none =>
      rw [hrec] at hhistory
      cases hhistory
      refine ⟨log,hnodup,?_,hrun⟩
      intro e
      rw [hlog,mem_append,mem_singleton]
      constructor
      · rintro ⟨he,hv⟩
        exact ⟨.inl he,hv⟩
      · rintro ⟨he | he,hv⟩
        · exact ⟨he,hv⟩
        · rw [he,hrec] at hv
          cases hv
    | some v =>
      rw [hrec] at hhistory
      -- a pair that records publishes too, so it cannot have been visited
      have hnew : s ∉ visited := by
        intro hs'
        have hpub := h.out s
        rw [if_pos hs',hnone] at hpub
        rw [hrecorded s hpub.symm] at hrec
        cases hrec
      refine ⟨log ++ [(s,v)],?_,?_,?_⟩
      · rw [map_append,nodup_append]
        refine ⟨hnodup,nodup_singleton _,?_⟩
        intro t ht u hu htu
        obtain ⟨e,he,rfl⟩ := mem_map.1 ht
        rw [map_singleton,mem_singleton] at hu
        have hmem := ((hlog e).1 he).1
        rw [htu,hu] at hmem
        exact hnew hmem
      · intro e
        rw [mem_append,mem_singleton,hlog,mem_append,mem_singleton]
        constructor
        · rintro (⟨he,hv⟩ | rfl)
          · exact ⟨.inl he,hv⟩
          · exact ⟨.inr rfl,hrec⟩
        · rintro ⟨he | he,hv⟩
          · exact .inl ⟨he,hv⟩
          · obtain ⟨t,w⟩ := e
            cases he
            rw [hrec] at hv
            cases hv
            exact .inr rfl
      · rw [foldlM_append,hrun,ok_bind,foldlM_cons]
        exact bind_ok_iff.2 ⟨history,hhistory,rfl⟩

lemma Visited.foldlM {streams : List Stream} (h : Visited record f init visited st)
    (hrun : streams.foldlM (V31.aggregateStream outcome record) st = .ok st') :
    Visited record f init (visited ++ streams.filter (fun s => s.aggregator ≠ .calculated)) st' := by
  induction streams generalizing visited st with
  | nil =>
    cases hrun
    rwa [filter_nil,append_nil]
  | cons s streams ih =>
    rw [foldlM_cons] at hrun
    obtain ⟨st₁,hstep,hrest⟩ := bind_ok_iff.1 hrun
    by_cases hs : s.aggregator = .calculated
    · rw [V31.aggregateStream,if_pos hs] at hstep
      cases hstep
      rw [filter_cons_of_neg (by simpa using hs)]
      exact ih h hrest
    · rw [filter_cons_of_pos (by simpa using hs)]
      have hnext := ih (h.aggregateStream houtcome hrecorded hs hstep) hrest
      rwa [append_assoc,singleton_append] at hnext

/-- The loop over the channels visits every pair once. -/
lemma visited_aggregateListed {listed : List DefinitionEntry}
    (h : aggregateListed outcome record init listed = .ok st) :
    Visited record f init (aggregatedStreams listed) st := by
  have hgeneral : ∀ (listed : List DefinitionEntry) visited (st₀ : AggregateState σ),
      Visited record f init visited st₀ →
      listed.foldlM (fun st e => aggregateChannel outcome record st e.2) st₀ = .ok st →
      Visited record f init (visited ++ aggregatedStreams listed) st := by
    intro listed
    induction listed with
    | nil =>
      intro visited st₀ hv hrun
      cases hrun
      rwa [aggregatedStreams,flatMap_nil,append_nil]
    | cons e listed ih =>
      intro visited st₀ hv hrun
      rw [foldlM_cons] at hrun
      obtain ⟨st₁,hstep,hrest⟩ := bind_ok_iff.1 hrun
      rw [aggregatedStreams,flatMap_cons,← append_assoc]
      refine ih _ _ ?_ hrest
      rw [aggregateChannel] at hstep
      split_ifs at hstep ⊢ with hskip
      · cases hstep
        rwa [append_nil]
      · exact hv.foldlM houtcome hrecorded hstep
  exact hgeneral listed [] _ visited_nil h

end V31
end DataStreams
