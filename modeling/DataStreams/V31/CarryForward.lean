import DataStreams.Protocol.AggregateValues
import DataStreams.V31.HistoryRuns
import DataStreams.V31.StateCodec

/-! The time of what a pair publishes never goes back, and never leads a round by more than the
skew (v31). -/
namespace DataStreams.V31
open List

section Pair
variable {prev : Option TimestampedStreamValue} {now minContributions : ℕ} {values : List (Option StreamValue)}
  {aggF : Option AggregatorFunc} {v p : TimestampedStreamValue}

section
variable (hnow : now + maxTimestampedFutureSkew < 2 ^ 64)
include hnow

lemma tooFarAhead_iff : tooFarAhead v now = true ↔ now + maxTimestampedFutureSkew < v.observedAtNanoseconds := by
  rw [tooFarAhead,u64Add,Nat.mod_eq_of_lt hnow,decide_eq_true_iff]

lemma usableCarry_of_le
    (hp : p.observedAtNanoseconds ≤ now + maxTimestampedFutureSkew) : usableCarry (some p) now = some p := by
  have hnear : tooFarAhead p now = false := by
    rw [← Bool.not_eq_true,tooFarAhead_iff hnow]
    omega
  rw [usableCarry,Option.filter_some,hnear]
  rfl

lemma le_of_usableCarry (h : usableCarry prev now = some v) :
    prev = some v ∧ v.observedAtNanoseconds ≤ now + maxTimestampedFutureSkew := by
  rw [usableCarry,Option.filter_eq_some_iff,Bool.not_eq_true',← Bool.not_eq_true,tooFarAhead_iff hnow] at h
  exact ⟨h.1,not_lt.1 h.2⟩

end

lemma newerWins_cases (prev : Option TimestampedStreamValue) (v : TimestampedStreamValue) :
    (newerWins prev v = v ∨ prev = some (newerWins prev v)) ∧
      ∀ p, prev = some p → p.observedAtNanoseconds ≤ (newerWins prev v).observedAtNanoseconds := by
  cases prev with
  | none => exact ⟨.inl rfl,fun _ h => by cases h⟩
  | some q =>
    rw [newerWins]
    split_ifs with hnewer
    · refine ⟨.inl rfl,?_⟩
      rintro p ⟨⟩
      exact hnewer.le
    · refine ⟨.inr rfl,?_⟩
      rintro p ⟨⟩
      exact le_rfl

/-- What a pair carries on: its carried value, or a fresh aggregate that does not lead too
far. It is never older than what was carried, and it is what the pair publishes. -/
structure Kept (prev : Option TimestampedStreamValue) (now : ℕ) (result : Option StreamValue) (o : AggregateOutcome)
    (v : TimestampedStreamValue) : Prop where
  origin : prev = some v ∨ result = some v.toValue
  near : tooFarAhead v now = false
  newest : ∀ p, prev = some p → p.observedAtNanoseconds ≤ v.observedAtNanoseconds
  published : o.published = some v.toValue

variable {result : Option StreamValue}
/-- What is kept is published, and no older than what was carried. -/
lemma kept_settlePair (hprev : ∀ p, prev = some p → tooFarAhead p now = false)
    (h : (settlePair prev now result).kept = some v) : Kept prev now result (settlePair prev now result) v := by
  have hcarried : prev = some v → Kept prev now result (.republish prev) v := by
    rintro rfl
    refine ⟨.inl rfl,hprev v rfl,?_,rfl⟩
    rintro p ⟨⟩
    exact le_rfl
  match result,h with
  | none,h => exact hcarried h
  | some (.decimal d),h => cases h
  | some (.quote q),h => cases h
  | some (.timestamped t w),h =>
    rw [settlePair] at h ⊢
    split_ifs at h ⊢ with hfar
    · exact hcarried h
    · obtain rfl := Option.some.inj h
      obtain ⟨horigin,hnewest⟩ := newerWins_cases prev ⟨t,w⟩
      refine ⟨?_,?_,hnewest,rfl⟩
      · rcases horigin with hfresh | hold
        · rw [hfresh]
          exact .inr rfl
        · exact .inl hold
      · rcases horigin with hfresh | hold
        · rw [hfresh]
          exact Bool.eq_false_iff.2 hfar
        · exact hprev _ hold

variable {t : ℕ} {w : StreamValue}
lemma eq_of_toValue (h : v.toValue = .timestamped t w) : v = ⟨t,w⟩ := by
  cases v
  cases h
  rfl

lemma kept_of_published (h : (settlePair prev now result).published = some (.timestamped t w)) :
    (settlePair prev now result).kept = some ⟨t,w⟩ := by
  have hrepublish : (AggregateOutcome.republish prev).published = some (.timestamped t w) → prev = some ⟨t,w⟩ := by
    intro h
    obtain ⟨p,hp,htoValue⟩ := Option.map_eq_some_iff.1 h
    rw [hp,eq_of_toValue htoValue]
  match result,h with
  | none,h => exact hrepublish h
  | some (.decimal d),h => cases h
  | some (.quote q),h => cases h
  | some (.timestamped t' w'),h =>
    rw [settlePair] at h ⊢
    split_ifs at h ⊢ with hfar
    · exact hrepublish h
    · exact congrArg some (eq_of_toValue (Option.some.inj h))

/-- The aggregation failed, agreed on nothing, or on nothing newer than what is carried. A
value that leads the round too far does not count either. -/
def NotNewer (p : TimestampedStreamValue) (now : ℕ) : Go (Option StreamValue) → Prop
  | .error _ => True
  | .ok none => True
  | .ok (some (.timestamped t _)) => t ≤ p.observedAtNanoseconds ∨ now + maxTimestampedFutureSkew < t
  | .ok (some _) => False

lemma settlePair_notNewer {result : Go (Option StreamValue)} (hnow : now + maxTimestampedFutureSkew < 2 ^ 64)
    (h : NotNewer p now result) : (settlePair (some p) now (result.getD none)).published = some p.toValue ∧
      (settlePair (some p) now (result.getD none)).kept = some p := by
  match result with
  | .error e => exact ⟨rfl,rfl⟩
  | .ok none => exact ⟨rfl,rfl⟩
  | .ok (some (.timestamped t w)) =>
    simp only [Go.getD,settlePair]
    split_ifs with hfar
    · exact ⟨rfl,rfl⟩
    · rw [tooFarAhead_iff hnow] at hfar
      have hold : ¬ t > p.observedAtNanoseconds := not_lt.2 (h.resolve_right hfar)
      have hwins : newerWins (some p) ⟨t,w⟩ = p := if_neg hold
      rw [hwins]
      exact ⟨rfl,rfl⟩
  | .ok (some (.decimal d)) => exact h.elim
  | .ok (some (.quote q)) => exact h.elim

end Pair

/-- What a round aggregates: the channels in effect in the order they are visited, the values of
the streams, the timestamp and the pairs that require history. -/
structure CarryRound where
  listed : List DefinitionEntry
  streamObservations : SortedMap StreamID (List StreamValue)
  observationTimestampNanoseconds : ℕ
  requirements : HistoryRequirements

abbrev AppendLog := List (Stream × StreamHistoryRecord)

def logAppend (requirements : HistoryRequirements) (now : ℕ) (log : AppendLog) (s : Stream) (v : StreamValue) :
    Except HistoryError AppendLog :=
  .ok (if requirements.requires (histKeyOf s) then log ++ [(s,⟨observedAt now v,v⟩)] else log)

def CarryRound.aggregate (x : CarryRound) (A : AggregateLibs) (prevCarry : CarryForward) :
    Except HistoryError (AggregateState AppendLog) :=
  aggregateListed (A.outcome prevCarry x.streamObservations x.observationTimestampNanoseconds)
    (logAppend x.requirements x.observationTimestampNanoseconds) [] x.listed

namespace CarryRound
variable {x : CarryRound} {A : AggregateLibs} {prevCarry : CarryForward} {st : AggregateState AppendLog}
abbrev outcomeOf (x : CarryRound) (A : AggregateLibs) (prevCarry : CarryForward) (s : Stream) : AggregateOutcome :=
  A.outcomeOf prevCarry x.streamObservations x.observationTimestampNanoseconds s

lemma aggregate_returns (x : CarryRound) (A : AggregateLibs) (prevCarry : CarryForward) :
    ∃ st, x.aggregate A prevCarry = .ok st := by
  have hstream : ∀ (st : AggregateState AppendLog) s, ∃ st',
      aggregateStream (A.outcome prevCarry x.streamObservations x.observationTimestampNanoseconds)
        (logAppend x.requirements x.observationTimestampNanoseconds) st s = .ok st' := by
    intro st s
    rw [aggregateStream]
    split_ifs
    · exact ⟨_,rfl⟩
    · exact ⟨_,rfl⟩
    · rw [A.outcome_eq_ok]
      cases hrec : (A.outcomeOf prevCarry x.streamObservations x.observationTimestampNanoseconds s).recorded with
      | none => exact ⟨_,Go.bind_ok_iff.2 ⟨_,rfl,by rw [hrec]; rfl⟩⟩
      | some v => exact ⟨_,Go.bind_ok_iff.2 ⟨_,rfl,by rw [hrec]; rfl⟩⟩
  apply foldlM_returns
  intro st e
  rw [aggregateChannel]
  split_ifs
  · exact ⟨_,rfl⟩
  · exact foldlM_returns hstream _ _

lemma visited (h : x.aggregate A prevCarry = .ok st) :
    Visited (logAppend x.requirements x.observationTimestampNanoseconds) (x.outcomeOf A prevCarry) []
      (aggregatedStreams x.listed) st :=
  visited_aggregateListed (A.outcome_eq_ok prevCarry x.streamObservations x.observationTimestampNanoseconds)
    (fun _ => recorded_eq_none _) h

lemma foldlM_logAppend (requirements : HistoryRequirements) (now : ℕ) (recorded : List (Stream × StreamValue)) (log : AppendLog) :
    recorded.foldlM (fun log e => logAppend requirements now log e.1 e.2) log = .ok (log ++
      (recorded.filter (fun e => requirements.requires (histKeyOf e.1))).map (fun e => (e.1,⟨observedAt now e.2,e.2⟩))) := by
  induction recorded generalizing log with
  | nil => rw [filter_nil,map_nil,append_nil]; rfl
  | cons e recorded ih =>
    rw [foldlM_cons,logAppend,Go.ok_bind,ih]
    split_ifs with hreq
    · rw [filter_cons,if_pos hreq,map_cons,append_assoc,singleton_append]
    · rw [filter_cons,if_neg hreq]

lemma appends (h : x.aggregate A prevCarry = .ok st) : (st.history.map Prod.fst).Nodup ∧
    ∀ s r, (s,r) ∈ st.history ↔ s ∈ aggregatedStreams x.listed ∧ x.requirements.requires (histKeyOf s) = true ∧
      ∃ v, (x.outcomeOf A prevCarry s).recorded = some v ∧ r = ⟨observedAt x.observationTimestampNanoseconds v,v⟩ := by
  obtain ⟨log,hnodup,hlog,hrun⟩ := (visited h).history
  rw [foldlM_logAppend,nil_append] at hrun
  rw [← Except.ok.inj hrun]
  constructor
  · rw [map_map]
    exact (hnodup.sublist ((filter_sublist).map Prod.fst))
  · intro s r
    simp only [mem_map,mem_filter,hlog,Prod.mk.injEq]
    constructor
    · rintro ⟨e,⟨⟨hmem,hrec⟩,hreq⟩,rfl,rfl⟩
      exact ⟨hmem,hreq,e.2,hrec,rfl⟩
    · rintro ⟨hmem,hreq,v,hrec,rfl⟩
      exact ⟨(s,v),⟨⟨hmem,hrec⟩,hreq⟩,rfl,rfl⟩

lemma aggregate_listing {listed : List DefinitionEntry} {st' : AggregateState AppendLog}
    (hsame : ∀ s, s ∈ aggregatedStreams listed ↔ s ∈ aggregatedStreams x.listed) (h : x.aggregate A prevCarry = .ok st)
    (h' : { x with listed := listed }.aggregate A prevCarry = .ok st') :
    st'.out = st.out ∧ st'.carry = st.carry ∧ st'.history.Perm st.history := by
  have hv := visited h
  have hv' := visited h'
  refine ⟨?_,?_,?_⟩
  · funext id aggregator
    have hout := hv.out ⟨id,aggregator⟩
    have hout' := hv'.out ⟨id,aggregator⟩
    dsimp only at hout hout'
    rw [hout,hout',if_congr (hsame _) rfl rfl]
  · ext1 s
    rw [hv.carry,hv'.carry,if_congr (hsame _) rfl rfl]
  · obtain ⟨hnodup,hmem⟩ := appends h
    obtain ⟨hnodup',hmem'⟩ := appends h'
    rw [perm_ext_iff_of_nodup hnodup'.of_map hnodup.of_map]
    rintro ⟨s,r⟩
    rw [hmem,hmem',hsame]

end CarryRound

/-- What may be carried: values of known aggregators that decoding lets through, none of them
later than this. -/
structure Carried (A : AggregateLibs) (carry : CarryForward) (latest : ℕ) : Prop where
  known : ∀ s v, carry.get? s = some v → (A.aggF s).isSome
  decodable : ∀ s v, carry.get? s = some v → v.toValue.Decodable
  near : ∀ s v, carry.get? s = some v → v.observedAtNanoseconds ≤ latest

lemma carried_empty (A : AggregateLibs) (latest : ℕ) : Carried A ∅ latest where
  known _ _ h := by cases h
  decodable _ _ h := by cases h
  near _ _ h := by cases h

variable {A : AggregateLibs} {s : Stream}
lemma onWire_of_aggF (h : (A.aggF s).isSome) : s.aggregator.OnWire := by
  obtain ⟨aggF,haggF⟩ := Option.isSome_iff_exists.1 h
  unfold AggregateLibs.aggF getAggregatorFuncV31 getAggregatorFunc at haggF
  generalize s.aggregator = a at haggF ⊢
  cases a with
  | median => exact ⟨by decide,fun _ h => by cases h⟩
  | mode => exact ⟨by decide,fun _ h => by cases h⟩
  | quote => exact ⟨by decide,fun _ h => by cases h⟩
  | unset => cases haggF
  | calculated => cases haggF
  | other code => cases haggF

lemma Carried.storable {h : HotState} {latest : ℕ} (hc : Carried A h.carryForward latest)
    (hsize : h.carryForward.size ≤ maxPersistedAggregates) : h.Storable :=
  ⟨hsize,fun s v hv => onWire_of_aggF (hc.known s v hv),hc.decodable⟩

section Round
variable {x : CarryRound} {prevCarry : CarryForward} {latest : ℕ}
  (hvalues : A.history.wire.ReadsValues A.history.marshalDecimal)
  (hobserved : ∀ id vs, x.streamObservations.get? id = some vs → ∀ v ∈ vs, v.Decodable)
  (hnow : x.observationTimestampNanoseconds + maxTimestampedFutureSkew < 2 ^ 64)

include hobserved in
lemma decodable_contributionsTo : ∀ v, some v ∈ contributionsTo x.streamObservations s → v.Decodable := by
  intro v hv
  obtain ⟨w,hw,⟨⟩⟩ := mem_map.1 hv
  cases hget : x.streamObservations.get? s.streamID with
  | none =>
    rw [hget] at hw
    exact absurd hw not_mem_nil
  | some vs =>
    rw [hget] at hw
    exact hobserved _ vs hget v hw

include hnow in
lemma kept_outcomeOf {v : TimestampedStreamValue} {aggF : AggregatorFunc} (haggF : A.aggF s = some aggF)
    (h : (x.outcomeOf A prevCarry s).kept = some v) :
    Kept (usableCarry (prevCarry.get? s) x.observationTimestampNanoseconds) x.observationTimestampNanoseconds
      ((aggF (contributionsTo x.streamObservations s) A.minContributions).getD none) (x.outcomeOf A prevCarry s) v := by
  rw [CarryRound.outcomeOf,AggregateLibs.outcomeOf,haggF] at h ⊢
  refine kept_settlePair ?_ h
  intro p hp
  rw [← Bool.not_eq_true,tooFarAhead_iff hnow,not_lt]
  exact (le_of_usableCarry hnow hp).2

include hvalues hobserved hnow in
/-- A round carries only values near its own time. -/
lemma Carried.aggregate {st : AggregateState AppendLog} (hc : Carried A prevCarry latest)
    (h : x.aggregate A prevCarry = .ok st) :
    Carried A st.carry (x.observationTimestampNanoseconds + maxTimestampedFutureSkew) := by
  have hkept : ∀ s v, st.carry.get? s = some v → ∃ aggF, A.aggF s = some aggF ∧
      Kept (usableCarry (prevCarry.get? s) x.observationTimestampNanoseconds) x.observationTimestampNanoseconds
        ((aggF (contributionsTo x.streamObservations s) A.minContributions).getD none) (x.outcomeOf A prevCarry s) v := by
    intro s v hv
    rw [(CarryRound.visited h).carry] at hv
    split_ifs at hv
    cases haggF : A.aggF s with
    | some aggF => exact ⟨aggF,rfl,kept_outcomeOf hnow haggF hv⟩
    | none =>
      -- a pair of an unknown aggregator only carries what it had, and it had nothing
      rw [CarryRound.outcomeOf,AggregateLibs.outcomeOf,haggF] at hv
      have hknown := hc.known s v (le_of_usableCarry hnow hv).1
      rw [haggF] at hknown
      cases hknown
  refine ⟨?_,?_,?_⟩
  · intro s v hv
    obtain ⟨aggF,haggF,_⟩ := hkept s v hv
    rw [haggF]
    rfl
  · intro s v hv
    obtain ⟨aggF,haggF,hk⟩ := hkept s v hv
    rcases hk.origin with hold | hfresh
    · exact hc.decodable s v (le_of_usableCarry hnow hold).1
    · cases hresult : aggF (contributionsTo x.streamObservations s) A.minContributions with
      | error e =>
        rw [hresult] at hfresh
        cases hfresh
      | ok r =>
        rw [hresult] at hfresh
        cases hfresh
        exact decodable_of_aggregator (decodable_contributionsTo hobserved) hvalues haggF (Nat.le_add_left _ _) hresult
  · intro s v hv
    obtain ⟨aggF,_,hk⟩ := hkept s v hv
    have hnear := hk.near
    rw [← Bool.not_eq_true,tooFarAhead_iff hnow,not_lt] at hnear
    exact hnear

end Round

/-- The record a round loaded, what it aggregated, and the record it wrote. -/
structure CarryOutput where
  loaded : HotState
  aggregated : AggregateState AppendLog
  written : HotState

structure CarryStep (L : StateLibs) (_seqNr : ℕ) (x : CarryRound) (before after : Option Bytes) (o : CarryOutput) : Prop where
  load : readHotState L before = .ok o.loaded
  aggregate : x.aggregate L.toAggregateLibs o.loaded.carryForward = .ok o.aggregated
  carry : o.written.carryForward = o.aggregated.carry
  store : ∃ listing b, writeHotState L o.written listing = .ok b ∧ after = some b

/-- Rounds from an empty store, each on the record the one before it wrote. -/
abbrev CarryRun (L : StateLibs) := Trace (CarryStep L) none

abbrev CarryRun.now {L : StateLibs} (R : CarryRun L) (n : ℕ) : ℕ := (R.input n).observationTimestampNanoseconds

/-- Rounds whose timestamps do not go back and stay clear of the largest one, whose values were
decoded, and whose carried values fit the record, which the protobuf library reads back. -/
structure CarryRun.Regular {L : StateLibs} (R : CarryRun L) : Prop where
  mono : ∀ n, 1 ≤ n → n < R.len → R.now n ≤ R.now (n + 1)
  headroom : ∀ n, 1 ≤ n → n ≤ R.len → R.now n + maxTimestampedFutureSkew < 2 ^ 64
  observed : ∀ n, 1 ≤ n → n ≤ R.len → ∀ id vs, (R.input n).streamObservations.get? id = some vs → ∀ v ∈ vs, v.Decodable
  size_le : ∀ n, 1 ≤ n → n ≤ R.len → (R.out n).aggregated.carry.size ≤ maxPersistedAggregates
  readBack : ∀ n, 1 ≤ n → n ≤ R.len → L.ReadsHotState (R.out n).written

lemma CarryRun.carry_of_out {L : StateLibs} {R : CarryRun L} {n : ℕ} (hn : n < R.len) {t : ℕ} {v : StreamValue}
    (h : (R.out (n + 1)).aggregated.out s.streamID s.aggregator = some (.timestamped t v)) :
    (R.out (n + 1)).aggregated.carry.get? s = some ⟨t,v⟩ := by
  have hvisited := CarryRound.visited (R.step_ok n hn).aggregate
  rw [hvisited.out] at h
  split_ifs at h with hmem
  rw [hvisited.carry,if_pos hmem]
  rw [CarryRound.outcomeOf,AggregateLibs.outcomeOf] at h ⊢
  cases haggF : L.aggF s with
  | none =>
    rw [haggF] at h
    cases h
  | some aggF =>
    rw [haggF] at h
    exact kept_of_published h

/-- What a round loads is empty in the first one, and what the one before it wrote later. It
does not lead the round too far. -/
lemma CarryRun.carried {L : StateLibs} {R : CarryRun L} (hR : R.Regular)
    (hvalues : L.history.wire.ReadsValues L.history.marshalDecimal) (hz : ReadsZstd L.history.wire L.history.zstd)
    (n : ℕ) (hn : n < R.len) :
    Carried L.toAggregateLibs (R.out (n + 1)).loaded.carryForward (R.now (n + 1) + maxTimestampedFutureSkew) ∧
      (1 ≤ n → (R.out (n + 1)).loaded = (R.out n).written) := by
  induction n with
  | zero =>
    have hload := (R.step_ok 0 hn).load
    rw [R.state_zero] at hload
    have hempty : (R.out 1).loaded = .empty := (Except.ok.inj hload).symm
    rw [hempty]
    exact ⟨carried_empty _ _,fun h => absurd h (by decide)⟩
  | succ n ih =>
    have hstep := R.step_ok n (by omega)
    have hround := (ih (by omega)).1.aggregate hvalues (hR.observed (n + 1) (by omega) (by omega))
      (hR.headroom (n + 1) (by omega) (by omega)) hstep.aggregate
    rw [← hstep.carry] at hround
    obtain ⟨listing,b,hb,hafter⟩ := hstep.store
    have hsize := hR.size_le (n + 1) (by omega) (by omega)
    rw [← hstep.carry] at hsize
    have hload := (R.step_ok (n + 1) hn).load
    rw [hafter,readHotState_writeHotState hvalues hz (hR.readBack (n + 1) (by omega) (by omega)) (hround.storable hsize) hb]
      at hload
    have hsame := (Except.ok.inj hload).symm
    refine ⟨?_,fun _ => hsame⟩
    rw [hsame]
    have hlater := hR.mono (n + 1) (by omega) hn
    refine ⟨hround.known,hround.decodable,?_⟩
    intro s v hv
    exact (hround.near s v hv).trans (Nat.add_le_add_right hlater _)

/-- Timestamped values across the rounds of a run: the time a pair publishes does not go back,
nothing published or carried leads its round by more than the skew, the carried value stands in
for an aggregation that fails or yields nothing newer, and all of it depends on the listed pairs
alone, neither on their order nor on how many channels list them. -/
theorem carryForward_monotone {L : StateLibs} {R : CarryRun L} (hR : R.Regular)
    (hvalues : L.history.wire.ReadsValues L.history.marshalDecimal) (hz : ReadsZstd L.history.wire L.history.zstd) :
    (∀ n, 1 ≤ n → n < R.len → ∀ (s : Stream) t v t' v',
      (R.out n).aggregated.out s.streamID s.aggregator = some (.timestamped t v) →
      (R.out (n + 1)).aggregated.out s.streamID s.aggregator = some (.timestamped t' v') → t ≤ t') ∧
    (∀ n, 1 ≤ n → n ≤ R.len → ∀ (s : Stream) t v,
      (R.out n).aggregated.out s.streamID s.aggregator = some (.timestamped t v) ∨
        (R.out n).written.carryForward.get? s = some ⟨t,v⟩ → t ≤ R.now n + maxTimestampedFutureSkew) ∧
    (∀ n, 1 ≤ n → n ≤ R.len → ∀ s ∈ aggregatedStreams (R.input n).listed, ∀ aggF p, L.aggF s = some aggF →
      (R.out n).loaded.carryForward.get? s = some p →
      NotNewer p (R.now n) (aggF (contributionsTo (R.input n).streamObservations s) L.minContributions) →
      (R.out n).aggregated.out s.streamID s.aggregator = some p.toValue ∧
        (R.out n).written.carryForward.get? s = some p) ∧
    ∀ n, 1 ≤ n → n ≤ R.len → ((R.out n).aggregated.history.map Prod.fst).Nodup ∧
      ∀ listed, (∀ s, s ∈ aggregatedStreams listed ↔ s ∈ aggregatedStreams (R.input n).listed) →
        ∃ st, { R.input n with listed := listed }.aggregate L.toAggregateLibs (R.out n).loaded.carryForward = .ok st ∧
          st.out = (R.out n).aggregated.out ∧ st.carry = (R.out n).aggregated.carry ∧
          st.history.Perm (R.out n).aggregated.history := by
  have hcarried := fun n => CarryRun.carried hR hvalues hz n
  refine ⟨?_,?_,?_,?_⟩
  · intro n hn hlen s t v t' v' hpub hpub'
    obtain ⟨k,rfl⟩ := Nat.exists_eq_add_of_le' hn
    have hkept := CarryRun.carry_of_out (by omega) hpub
    have hkept' := CarryRun.carry_of_out hlen hpub'
    have hnow := hR.headroom (k + 2) (by omega) hlen
    -- the value was loaded by the next round, where it does not lead too far
    obtain ⟨hload,hsame⟩ := hcarried (k + 1) hlen
    have hprev : (R.out (k + 2)).loaded.carryForward.get? s = some ⟨t,v⟩ := by
      rw [hsame (by omega),(R.step_ok k (by omega)).carry]
      exact hkept
    have hvisited := CarryRound.visited (R.step_ok (k + 1) hlen).aggregate
    rw [hvisited.carry] at hkept'
    split_ifs at hkept'
    obtain ⟨aggF,haggF⟩ := Option.isSome_iff_exists.1 (hload.known s _ hprev)
    have hk := kept_outcomeOf hnow haggF hkept'
    rw [hprev,usableCarry_of_le hnow (hload.near s _ hprev)] at hk
    exact hk.newest _ rfl
  · intro n hn hlen s t v h
    obtain ⟨k,rfl⟩ := Nat.exists_eq_add_of_le' hn
    have hstep := R.step_ok k hlen
    have hround := (hcarried k hlen).1.aggregate hvalues (hR.observed (k + 1) (by omega) hlen)
      (hR.headroom (k + 1) (by omega) hlen) hstep.aggregate
    rcases h with h | h
    · exact hround.near s _ (CarryRun.carry_of_out hlen h)
    · rw [hstep.carry] at h
      exact hround.near s _ h
  · intro n hn hlen s hs aggF p haggF hp hold
    obtain ⟨k,rfl⟩ := Nat.exists_eq_add_of_le' hn
    have hstep := R.step_ok k hlen
    have hnow := hR.headroom (k + 1) (by omega) hlen
    have hvisited := CarryRound.visited hstep.aggregate
    have hsettled := settlePair_notNewer hnow hold
    rw [hvisited.out,hstep.carry,hvisited.carry,if_pos hs,if_pos hs,CarryRound.outcomeOf,AggregateLibs.outcomeOf,haggF,hp,
      V31.outcomeOf,usableCarry_of_le hnow ((hcarried k hlen).1.near s p hp)]
    exact hsettled
  · intro n hn hlen
    obtain ⟨k,rfl⟩ := Nat.exists_eq_add_of_le' hn
    have hstep := R.step_ok k hlen
    refine ⟨(CarryRound.appends hstep.aggregate).1,?_⟩
    intro listed hsame
    obtain ⟨st,hst⟩ := CarryRound.aggregate_returns { R.input (k + 1) with listed := listed } L.toAggregateLibs
      (R.out (k + 1)).loaded.carryForward
    exact ⟨st,hst,CarryRound.aggregate_listing hsame hstep.aggregate hst⟩

def stampedPrice : TimestampedStreamValue := ⟨100,.decimal ⟨5,0⟩⟩

def pricedCarry : CarryForward := .ofList [(⟨1,.median⟩,stampedPrice)]

def pricedHotState (now : ℕ) : HotState := ⟨now,∅,∅,pricedCarry,[]⟩

def pricedAggregate : StreamAggregateProto :=
  ⟨1,some ⟨.timestamped,marshalTimestamped 100 ⟨.decimal,[0,0,0,0,2,5]⟩⟩,1⟩

def pricedMessage (now : ℕ) : HotStateProto := ⟨now,[],[],[pricedAggregate],[]⟩

/-- The protobuf library on the two records. -/
def pricedLibs : StateLibs where
  sort := insertionSlice
  history := historyLibs
  aggregationFaultTolerance := 0
  unmarshalHotState := fromTable ([1000,2000].map (fun now => (marshalHotState (pricedMessage now),pricedMessage now)))
  unmarshalChannelState _ := .error "malformed input"
  unmarshalCodecSupport _ := .error "malformed input"

/-- Two channels report the stream. It is observed in the first round, and not after. -/
def pricedRound (n : ℕ) : CarryRound where
  listed := [(1,jsonChannel),(2,jsonChannel)]
  streamObservations := if n ≤ 1 then .ofList [(1,[stampedPrice.toValue])] else ∅
  observationTimestampNanoseconds := 1000 * n
  requirements := ⟨.ofList [(⟨1,1⟩,3)],[]⟩

def pricedRecord (n : ℕ) : Option Bytes :=
  if n = 0 then none else some (payloadCodecRaw :: marshalHotState (pricedMessage (1000 * n)))

def pricedOutput (n : ℕ) : CarryOutput where
  loaded := if n ≤ 1 then .empty else pricedHotState 1000
  aggregated :=
    match (pricedRound n).aggregate pricedLibs.toAggregateLibs (if n ≤ 1 then ∅ else pricedCarry) with
    | .ok st => st
    | .error _ => ⟨fun _ _ => none,∅,[]⟩
  written := pricedHotState (1000 * n)

lemma carried_priced (n : ℕ) (now : ℕ) (h : 100 ≤ n) : Carried pricedLibs.toAggregateLibs (pricedHotState now).carryForward n := by
  have hentry : ∀ s v, (pricedHotState now).carryForward.get? s = some v → s = ⟨1,.median⟩ ∧ v = stampedPrice := by
    intro s v hv
    have hmem := SortedMap.get?_eq_some_iff.1 hv
    obtain ⟨rfl,rfl⟩ := Prod.mk.inj (mem_singleton.1 hmem)
    exact ⟨rfl,rfl⟩
  refine ⟨?_,?_,?_⟩
  · intro s v hv
    obtain ⟨rfl,rfl⟩ := hentry s v hv
    rfl
  · intro s v hv
    obtain ⟨rfl,rfl⟩ := hentry s v hv
    exact ⟨⟨by decide,show Decimal.ExponentInRange ⟨5,0⟩ by decide⟩,show 1 ≤ maxStreamValueNesting by decide⟩
  · intro s v hv
    obtain ⟨rfl,rfl⟩ := hentry s v hv
    exact h

lemma storable_priced (now : ℕ) : (pricedHotState now).Storable := (carried_priced 100 now le_rfl).storable (show 1 ≤ maxPersistedAggregates by decide)

def pricedListing (now : ℕ) : (pricedHotState now).Listing :=
  ⟨[],[],[(⟨1,.median⟩,stampedPrice)],.refl _,.refl _,.refl _⟩

lemma hotStateToProto_priced {now : ℕ} (listing : (pricedHotState now).Listing) {m : HotStateProto}
    (h : hotStateToProto pricedLibs (pricedHotState now) listing = .ok m) : m = pricedMessage now := by
  obtain ⟨pbs,hpbs,rfl⟩ := hotStateToProto_eq (storable_priced now) listing h
  have hentries : pricedCarry.entries.mapM (carryToProto marshalDecimal) = .ok [pricedAggregate] := by decide +kernel
  rw [show pbs = [pricedAggregate] from Except.ok.inj (hpbs.symm.trans hentries)]
  rfl

def pricedRun : CarryRun pricedLibs where
  len := 2
  input := pricedRound
  state := pricedRecord
  out := pricedOutput
  state_zero := rfl
  step_ok n hn := by
    have hstore : ∀ now, now = 1000 ∨ now = 2000 → writeHotState pricedLibs (pricedHotState now) (pricedListing now) =
        .ok (payloadCodecRaw :: marshalHotState (pricedMessage now)) := by
      rintro now (rfl | rfl)
      · decide +kernel
      · decide +kernel
    have haggregate : ∀ n, (pricedRound n).aggregate pricedLibs.toAggregateLibs (if n ≤ 1 then ∅ else pricedCarry) =
        .ok (pricedOutput n).aggregated := by
      intro n
      obtain ⟨st,hst⟩ := CarryRound.aggregate_returns (pricedRound n) pricedLibs.toAggregateLibs
        (if n ≤ 1 then ∅ else pricedCarry)
      rw [pricedOutput,hst]
    match n,hn with
    | 0,_ => exact ⟨rfl,haggregate 1,by decide +kernel,pricedListing 1000,_,hstore 1000 (.inl rfl),rfl⟩
    | 1,_ => exact ⟨by decide +kernel,haggregate 2,by decide +kernel,pricedListing 2000,_,hstore 2000 (.inr rfl),rfl⟩

lemma regular_pricedRun : pricedRun.Regular := by
  have hrounds : ∀ n, 1 ≤ n → n ≤ pricedRun.len → n = 1 ∨ n = 2 := by
    intro n hn hlen
    have hlen : n ≤ 2 := hlen
    omega
  refine ⟨?_,?_,?_,?_,?_⟩
  · intro n _ _
    show 1000 * n ≤ 1000 * (n + 1)
    omega
  · intro n hn hlen
    rcases hrounds n hn hlen with rfl | rfl
    · decide
    · decide
  · intro n hn hlen id vs hvs v hv
    rcases hrounds n hn hlen with rfl | rfl
    · obtain ⟨rfl,rfl⟩ := Prod.mk.inj (mem_singleton.1 (SortedMap.get?_eq_some_iff.1 hvs))
      rw [mem_singleton.1 hv]
      exact (carried_priced 100 0 le_rfl).decodable ⟨1,.median⟩ stampedPrice (by decide +kernel)
    · cases hvs
  · intro n hn hlen
    rcases hrounds n hn hlen with rfl | rfl
    · decide +kernel
    · decide +kernel
  · intro n hn hlen listing m hm
    have hm : m = pricedMessage (1000 * n) := hotStateToProto_priced listing hm
    rw [hm]
    rcases hrounds n hn hlen with rfl | rfl
    · decide +kernel
    · decide +kernel

/-- The silent round republishes the price, and its time does not go back. -/
theorem carryForward_monotone_priced :
    (pricedOutput 2).aggregated.out 1 .median = some stampedPrice.toValue ∧
      ∀ t v, (pricedOutput 2).aggregated.out 1 .median = some (.timestamped t v) → 100 ≤ t := by
  obtain ⟨hmono,_,hrepublish,_⟩ := carryForward_monotone regular_pricedRun readsBack_historyLibs.values readsBack_historyLibs.zstd
  constructor
  · exact (hrepublish 2 (by decide) (by decide) ⟨1,.median⟩ (by decide) _ stampedPrice rfl (by decide +kernel)
      trivial).1
  · intro t v h
    exact hmono 1 (by decide) (by decide) ⟨1,.median⟩ 100 (.decimal ⟨5,0⟩) t v (by decide +kernel) h

/-- The record of a round is read back; the order of its maps does not change its bytes. -/
theorem hotState_roundTrip (hvalues : L.history.wire.ReadsValues L.history.marshalDecimal)
    (hz : ReadsZstd L.history.wire L.history.zstd) {h : HotState} (hread : L.ReadsHotState h) (hs : h.Storable)
    (listing listing' : h.Listing) {b : Bytes} (hb : writeHotState L h listing = .ok b) :
    readHotState L (some b) = .ok h ∧ writeHotState L h listing' = .ok b := by
  refine ⟨readHotState_writeHotState hvalues hz hread hs hb,?_⟩
  obtain ⟨m,hm,hb⟩ := Go.bind_ok_iff.1 hb
  obtain ⟨pbs,hpbs,rfl⟩ := hotStateToProto_eq hs listing hm
  obtain ⟨pbs',hpbs',-⟩ := Go.mapM_perm listing'.carry_perm.symm hpbs
  obtain ⟨m',hm'⟩ : ∃ m', hotStateToProto L h listing' = .ok m' := ⟨_,by rw [hotStateToProto,hpbs',Go.ok_bind]⟩
  obtain ⟨pbs'',hpbs'',rfl⟩ := hotStateToProto_eq hs listing' hm'
  cases hpbs.symm.trans hpbs''
  exact Go.bind_ok_iff.2 ⟨_,hm',hb⟩

theorem hotState_roundTrip_priced : ∃ b, readHotState pricedLibs (some b) = .ok (pricedHotState 1000) := by
  refine ⟨_,(hotState_roundTrip readsBack_historyLibs.values readsBack_historyLibs.zstd ?_ (storable_priced 1000)
    (pricedListing 1000) (pricedListing 1000) rfl).1⟩
  intro listing m hm
  rw [hotStateToProto_priced listing hm]
  decide +kernel

end DataStreams.V31
