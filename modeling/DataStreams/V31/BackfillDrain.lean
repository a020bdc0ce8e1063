import DataStreams.Foundation.Drain
import DataStreams.V31.Backfill

/-! Over rounds on one definition set, a backfill channel drains the emittable rows in order. -/
namespace DataStreams.V31
open List Drain SortedMap
variable {L : Libs} {defs : ChannelDefinitions} {opts : OptsCache} {c : ChannelID}
  {o : HistoryBackfillOpts} {target : ChannelDefinition}

/-- The rows whose key is a timestamp in nanoseconds. -/
def representableRows (o : HistoryBackfillOpts) (res : TimeResolution) : List BackfillRow :=
  o.observations.entries.filterMap (fun e =>
    (observationTimestampKeyToNanoseconds e.1 res).map (fun ts => ⟨e.1,ts,e.2⟩))

def emittableTimestamps (L : Libs) (opts : OptsCache) (target : ChannelDefinition)
    (o : HistoryBackfillOpts) : List ℕ :=
  match targetChannelTimeResolution L.json target with
  | .error _ => []
  | .ok res =>
    ((representableRows o res).filter (rowEmittable L opts target o.targetChannelID)).map
      BackfillRow.tsNanos

/-- The row's key is a timestamp at the target's resolution, and its values build and can be
encoded by the target's format. -/
def EmittableRow (L : Libs) (opts : OptsCache) (target : ChannelDefinition) (o : HistoryBackfillOpts)
    (key : ℕ) (row : SortedMap StreamID Text) (ts : ℕ) : Prop :=
  ∃ res values, targetChannelTimeResolution L.json target = .ok res ∧
    observationTimestampKeyToNanoseconds key res = some ts ∧
    buildBackfillStreamValues L target row = .ok values ∧
    checkEncodableValues L.json (some opts) target o.targetChannelID (values.map some) = .ok ()

lemma rowEmittable_iff {row : BackfillRow} :
    rowEmittable L opts target o.targetChannelID row = true ↔
      ∃ values, buildBackfillStreamValues L target row.values = .ok values ∧
        checkEncodableValues L.json (some opts) target o.targetChannelID (values.map some) = .ok () := by
  rw [rowEmittable]
  cases hb : buildBackfillStreamValues L target row.values with
  | error e => simp
  | ok values =>
    cases hc : checkEncodableValues L.json (some opts) target o.targetChannelID (values.map some) with
    | error e => simp [hc,Except.isOk,Except.toBool]
    | ok u => simp [hc,Except.isOk,Except.toBool]

lemma mem_emittableTimestamps {ts : ℕ} : ts ∈ emittableTimestamps L opts target o ↔
    ∃ key row, o.observations.get? key = some row ∧ EmittableRow L opts target o key row ts := by
  rw [emittableTimestamps]
  cases hres : targetChannelTimeResolution L.json target with
  | error e =>
    simp only [not_mem_nil,EmittableRow,hres,false_iff]
    rintro ⟨_,_,_,_,_,h,_⟩
    cases h
  | ok res =>
    simp only [mem_map,mem_filter,rowEmittable_iff,representableRows,mem_filterMap,
      Option.map_eq_some_iff,EmittableRow,hres,Except.ok.injEq]
    constructor
    · rintro ⟨_,⟨⟨⟨key,row⟩,hmem,_,hts,rfl⟩,values,hbuild,hcheck⟩,rfl⟩
      exact ⟨key,row,get?_eq_some_iff.2 hmem,res,values,rfl,hts,hbuild,hcheck⟩
    · rintro ⟨key,row,hmem,_,values,rfl,hts,hbuild,hcheck⟩
      exact ⟨⟨key,ts,row⟩,⟨⟨⟨key,row⟩,get?_eq_some_iff.1 hmem,ts,hts,rfl⟩,values,hbuild,hcheck⟩,rfl⟩

lemma representableRows_sorted (o : HistoryBackfillOpts) (res : TimeResolution) :
    (representableRows o res).Pairwise (fun a b => a.tsNanos < b.tsNanos) := by
  refine o.observations.sorted.filterMap _ ?_
  intro a b hab r hr s hs
  obtain ⟨x,hx,rfl⟩ := Option.map_eq_some_iff.1 hr
  obtain ⟨y,hy,rfl⟩ := Option.map_eq_some_iff.1 hs
  exact observationTimestampKeyToNanoseconds_lt hab hx hy

lemma emittableTimestamps_sorted : (emittableTimestamps L opts target o).Pairwise (· < ·) := by
  rw [emittableTimestamps]
  split
  · exact List.Pairwise.nil
  · rw [pairwise_map]
    exact (representableRows_sorted o _).filter _

lemma length_emittableTimestamps_le : (emittableTimestamps L opts target o).length ≤ o.observations.size := by
  rw [emittableTimestamps]
  split
  · exact Nat.zero_le _
  · rw [length_map]
    exact (length_filter_le _ _).trans (length_filterMap_le _ _)

lemma backfillRows_eq_filter (o : HistoryBackfillOpts) (res : TimeResolution) (watermark obsTsNanos : ℕ) :
    backfillRows o res watermark obsTsNanos =
      (representableRows o res).filter (fun r => watermark < r.tsNanos ∧ r.tsNanos < obsTsNanos) := by
  rw [backfillRows,representableRows,filter_filterMap]
  apply filterMap_congr
  intro e _
  cases observationTimestampKeyToNanoseconds e.1 res with
  | none => rfl
  | some ts =>
    by_cases h : obsTsNanos ≤ ts ∨ ts ≤ watermark
    · have hout : ¬ (watermark < ts ∧ ts < obsTsNanos) := by omega
      simp [h,hout,Option.filter]
    · have hin : watermark < ts ∧ ts < obsTsNanos := by omega
      simp [h,hin,Option.filter]

/-- The channel is a backfill channel of the definitions, its opts are read, and its target is
there and not a tombstone. -/
structure LiveBackfill (L : Libs) (defs : ChannelDefinitions) (opts : OptsCache) (c : ChannelID)
    (o : HistoryBackfillOpts) (target : ChannelDefinition) : Prop where
  reads : ∃ cd, defs.get? c = some cd ∧ cd.isBackfill = true ∧
    getHistoryBackfillOpts L.json (some opts) cd c = .ok o
  target_eq : defs.get? o.targetChannelID = some target
  live : target.tombstone = false

lemma LiveBackfill.select_eq_next (h : LiveBackfill L defs opts c o target)
    {validAfter : SortedMap ChannelID ℕ} {w t : ℕ} (hw : validAfter.get? c = some w) :
    (selectBackfillCandidate L defs validAfter t c opts).map BackfillCandidate.tsNanos =
      next (emittableTimestamps L opts target o) w t := by
  obtain ⟨cd,hcd,hbackfill,hopts⟩ := h.reads
  rw [selectBackfillCandidate,emittableTimestamps]
  simp only [hcd,hbackfill,hopts,h.target_eq,h.live,hw]
  cases targetChannelTimeResolution L.json target with
  | error e => rfl
  | ok res =>
    dsimp only
    rw [pickRow,backfillRows_eq_filter,Drain.next,find?_map,find?_filter,find?_filter]
    simp only [not_true_eq_false,if_false,Bool.false_eq_true,Option.map_map]
    refine congrArg (fun p => ((representableRows o res).find? p).map BackfillRow.tsNanos) ?_
    funext r
    simp [Bool.and_comm]

/-- A round of the drain: its observation timestamp and the watermarks of the other channels. -/
abbrev DrainRound := ℕ × SortedMap ChannelID ℕ

def drainRounds (L : Libs) (defs : ChannelDefinitions) (opts : OptsCache) (c : ChannelID) :
    ℕ → List DrainRound → List ℕ
  | _,[] => []
  | w,r :: rounds =>
    match selectBackfillCandidate L defs (r.2.insert c w) r.1 c opts with
    | none => drainRounds L defs opts c w rounds
    | some row => row.tsNanos :: drainRounds L defs opts c row.tsNanos rounds

lemma LiveBackfill.drainRounds_eq_drain (h : LiveBackfill L defs opts c o target) (w : ℕ)
    (rounds : List DrainRound) : drainRounds L defs opts c w rounds =
      drain (emittableTimestamps L opts target o) w (rounds.map Prod.fst) := by
  induction rounds generalizing w with
  | nil => rfl
  | cons r rounds ih =>
    have hnext := h.select_eq_next (t := r.1) (get?_insert_self r.2 c w)
    rw [drainRounds,map_cons,drain,← hnext]
    cases selectBackfillCandidate L defs (r.2.insert c w) r.1 c opts with
    | none => exact ih w
    | some row => exact congrArg (row.tsNanos :: ·) (ih row.tsNanos)

lemma le_of_getLast {rounds : List DrainRound} {t : ℕ} (hmono : rounds.Pairwise (fun r s => r.1 ≤ s.1))
    (hlast : rounds.getLast?.map Prod.fst = some t) : ∀ ts ∈ rounds.map Prod.fst, ts ≤ t := by
  obtain ⟨last,heq,rfl⟩ := Option.map_eq_some_iff.1 hlast
  obtain ⟨init,rfl⟩ := getLast?_eq_some_iff.1 heq
  intro ts hts
  obtain ⟨r,hr,rfl⟩ := mem_map.1 hts
  rcases mem_append.1 hr with hr | hr
  · exact (pairwise_append.1 hmono).2.2 r hr last (mem_singleton_self last)
  · rw [mem_singleton.1 hr]

/-- What rounds select is a strictly increasing prefix of the emittable timestamps past the first
watermark, each before its round's observation timestamp. Rounds that go on at the last
observation timestamp select all that lie before it, and a round that selects nothing finds
nothing left. -/
theorem backfill_drains (h : LiveBackfill L defs opts c o target) (w : ℕ) (rounds : List DrainRound)
    (hmono : rounds.Pairwise (fun r s => r.1 ≤ s.1)) :
    let emittable := emittableTimestamps L opts target o
    let selected := drainRounds L defs opts c w rounds
    (∀ ts, ts ∈ emittable ↔
        ∃ key row, o.observations.get? key = some row ∧ EmittableRow L opts target o key row ts) ∧
      emittable.Pairwise (· < ·) ∧ selected.Pairwise (· < ·) ∧
      selected <+: emittable.filter (fun ts => w < ts) ∧
      (∀ ts ∈ selected, ∃ r ∈ rounds, ts < r.1) ∧
      selected.length ≤ o.observations.size ∧
      ∀ t, rounds.getLast?.map Prod.fst = some t →
        (∀ more : List DrainRound, (∀ r ∈ more, r.1 = t) → o.observations.size ≤ more.length →
          drainRounds L defs opts c w (rounds ++ more) = emittable.filter (fun ts => w < ts ∧ ts < t)) ∧
        (∀ others : SortedMap ChannelID ℕ,
          selectBackfillCandidate L defs (others.insert c (selected.getLast?.getD w)) t c opts = none →
          selected = emittable.filter (fun ts => w < ts ∧ ts < t)) := by
  have hsorted : (emittableTimestamps L opts target o).Pairwise (· < ·) := emittableTimestamps_sorted
  have hdrained := drain_prefix hsorted w (rounds.map Prod.fst)
  intro emittable selected
  have hselected : selected = drain emittable w (rounds.map Prod.fst) := h.drainRounds_eq_drain w rounds
  rw [← hselected] at hdrained
  refine ⟨fun _ => mem_emittableTimestamps,hsorted,?_,hdrained,?_,?_,?_⟩
  · exact (hsorted.filter _).sublist hdrained.sublist
  · intro ts hts
    rw [hselected] at hts
    obtain ⟨_,hmem,hlt⟩ := drain_lt hts
    obtain ⟨r,hr,rfl⟩ := mem_map.1 hmem
    exact ⟨r,hr,hlt⟩
  · calc selected.length ≤ (above emittable w).length := hdrained.length_le
      _ ≤ emittable.length := length_filter_le _ _
      _ ≤ o.observations.size := length_emittableTimestamps_le
  · intro t hlast
    have hle := le_of_getLast hmono hlast
    constructor
    · intro more hmore hlen
      have hreplicate := eq_replicate_of_mem (a := t) (l := more.map Prod.fst) (by simpa using hmore)
      rw [h.drainRounds_eq_drain,map_append,hreplicate,length_map]
      exact drain_append_replicate hsorted hle (length_emittableTimestamps_le.trans hlen)
    · intro others hnone
      have hnext := h.select_eq_next (t := t)
        (get?_insert_self others c (selected.getLast?.getD w))
      rw [hnone,hselected] at hnext
      rw [hselected]
      exact drain_eq_between hsorted hle hnext.symm

/-- A channel and its backfill with rows at 5 and 7 seconds. -/
def drainedDefinitions : ChannelDefinitions := .ofList [(1,jsonChannel),(2,backfillChannel)]

def drainedOpts : HistoryBackfillOpts :=
  ⟨1,.ofList [(5,.ofList [(1,['5'])]),(7,.ofList [(1,['5'])])]⟩

lemma drainedDefinitions_live : LiveBackfill backfillInstance.libs drainedDefinitions
    (.ofDefinitions drainedDefinitions) 2 drainedOpts jsonChannel where
  reads := ⟨backfillChannel,by decide +kernel,by decide,by decide +kernel⟩
  target_eq := by decide +kernel
  live := rfl

/-- At 6 seconds one row is due, at 10 seconds the other, and a third round finds none. -/
theorem backfill_drains_twoRows :
    drainRounds backfillInstance.libs drainedDefinitions (.ofDefinitions drainedDefinitions) 2 0
        [(6 * 10 ^ 9,∅),(10 * 10 ^ 9,∅)] = [5 * 10 ^ 9,7 * 10 ^ 9] ∧
      [5 * 10 ^ 9,7 * 10 ^ 9] =
        (emittableTimestamps backfillInstance.libs (.ofDefinitions drainedDefinitions) jsonChannel drainedOpts).filter
          (fun ts => 0 < ts ∧ ts < 10 * 10 ^ 9) := by
  have hrun : drainRounds backfillInstance.libs drainedDefinitions (.ofDefinitions drainedDefinitions) 2 0
      [(6 * 10 ^ 9,∅),(10 * 10 ^ 9,∅)] = [5 * 10 ^ 9,7 * 10 ^ 9] := by decide +kernel
  have hlast := (backfill_drains drainedDefinitions_live 0 [(6 * 10 ^ 9,∅),(10 * 10 ^ 9,∅)]
    (by decide)).2.2.2.2.2.2 (10 * 10 ^ 9) rfl
  have hdrained := hlast.2 ∅ (by decide +kernel)
  rw [hrun] at hdrained
  exact ⟨hrun,hdrained⟩

end DataStreams.V31
