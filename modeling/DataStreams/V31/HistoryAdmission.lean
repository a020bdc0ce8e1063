import DataStreams.Calculated.HistoryDepths
import DataStreams.V31.HistoryRequirements
import Mathlib.Data.Set.Card

/-! Admission takes the pairs that have a window first, so rounds that only require more keep
them. -/
namespace DataStreams.V31
open List SortedMap
variable {L : Libs} {E : ExprLib} {defs : ChannelDefinitions} {opts : OptsCache} {k : HistKey} {n d : ℕ}
  {required : SortedMap HistKey ℕ} {incumbents : List HistKey}

abbrev ExpressionVisit := List (StreamID × Aggregator) × Text

def requireVisit (L : Libs) (E : ExprLib) (required : SortedMap HistKey ℕ) (v : ExpressionVisit) :
    Go (SortedMap HistKey ℕ) := requireExpression L E v.1 required v.2

def channelVisits (L : Libs) (opts : OptsCache) (e : DefinitionEntry) : List ExpressionVisit :=
  if e.2.tombstone ∨ e.2.reportFormat ≠ .evmABIEncodeUnpackedExpr then []
  else
    match aggregatorByStream e.2.streams with
    | .error _ => []
    | .ok aggByStream =>
      match expressions L.json (some opts) e.2 e.1 with
      | .error _ => []
      | .ok exprs => exprs.map (fun expression => (aggByStream,expression))

def expressionVisits (L : Libs) (defs : ChannelDefinitions) (opts : OptsCache) : List ExpressionVisit :=
  defs.entries.flatMap (channelVisits L opts)

variable (aggByStream : List (StreamID × Aggregator))
def refRequest (ref : HistoryRef) : Option (HistKey × ℕ) :=
  (aggByStream.lookup ref.streamID).map (fun aggregator => (⟨ref.streamID,aggregator.code⟩,ref.count))

/-- The pairs an expression asks for, and how deep. -/
def visitRequests (L : Libs) (E : ExprLib) (v : ExpressionVisit) : List (HistKey × ℕ) :=
  match analyzeHistoryExpression L E v.2 with
  | .error _ => []
  | .ok entry => if entry.err.isSome then [] else entry.refs.filterMap (refRequest v.1)

/-- The map the loops build from requests. -/
def deepest (required : SortedMap HistKey ℕ) (requests : List (HistKey × ℕ)) : SortedMap HistKey ℕ :=
  requests.foldl (fun required q => requireDepth required q.1 q.2) required

/-- A live expression channel has an analysable expression that resolves to the pair, at this
depth. -/
def Asks (L : Libs) (E : ExprLib) (defs : ChannelDefinitions) (opts : OptsCache) (k : HistKey) (n : ℕ) : Prop :=
  ∃ c cd aggByStream exprs expression entry ref aggregator,
    defs.get? c = some cd ∧ cd.tombstone = false ∧ cd.reportFormat = .evmABIEncodeUnpackedExpr ∧
    aggregatorByStream cd.streams = .ok aggByStream ∧ expressions L.json (some opts) cd c = .ok exprs ∧
    expression ∈ exprs ∧ analyzeHistoryExpression L E expression = .ok entry ∧ entry.err = none ∧
    ref ∈ entry.refs ∧ aggByStream.lookup ref.streamID = some aggregator ∧
    k = ⟨ref.streamID,aggregator.code⟩ ∧ n = ref.count

lemma foldl_requireRef (refs : List HistoryRef)
    (required : SortedMap HistKey ℕ) :
    refs.foldl (requireRef aggByStream) required = deepest required (refs.filterMap (refRequest aggByStream)) := by
  induction refs generalizing required with
  | nil => rfl
  | cons ref refs ih =>
    rw [foldl_cons,ih,requireRef]
    cases hlookup : aggByStream.lookup ref.streamID with
    | none => rw [filterMap_cons_none (by rw [refRequest,hlookup]; rfl)]
    | some aggregator =>
      rw [filterMap_cons_some (b := (⟨ref.streamID,aggregator.code⟩,ref.count)) (by rw [refRequest,hlookup]; rfl)]
      rfl

lemma requireVisit_eq (L : Libs) (E : ExprLib) (required : SortedMap HistKey ℕ) (v : ExpressionVisit) :
    requireVisit L E required v = .ok (deepest required (visitRequests L E v)) := by
  obtain ⟨entry,hentry⟩ := analyzeHistoryExpression_returns L E v.2
  rw [requireVisit,requireExpression,visitRequests,hentry,Go.ok_bind]
  cases herr : entry.err with
  | some e => simp [herr,deepest]
  | none => simp [herr,foldl_requireRef]

lemma foldlM_requireVisit (L : Libs) (E : ExprLib) (visits : List ExpressionVisit) (required : SortedMap HistKey ℕ) :
    visits.foldlM (requireVisit L E) required = .ok (deepest required (visits.flatMap (visitRequests L E))) := by
  induction visits generalizing required with
  | nil => rfl
  | cons v visits ih =>
    rw [foldlM_cons,requireVisit_eq,Go.ok_bind,ih,flatMap_cons,deepest,deepest,deepest,foldl_append]

lemma requireChannel_eq (required : SortedMap HistKey ℕ) (e : DefinitionEntry) :
    requireChannel L E opts required e = (channelVisits L opts e).foldlM (requireVisit L E) required := by
  rw [requireChannel,channelVisits]
  split_ifs
  · rfl
  cases aggregatorByStream e.2.streams with
  | error _ => rfl
  | ok aggByStream =>
    cases expressions L.json (some opts) e.2 e.1 with
    | error _ => rfl
    | ok exprs =>
      dsimp only
      rw [foldlM_map]
      rfl

lemma foldlM_requireChannel (entries : List DefinitionEntry) (required : SortedMap HistKey ℕ) :
    entries.foldlM (requireChannel L E opts) required =
      (entries.flatMap (channelVisits L opts)).foldlM (requireVisit L E) required := by
  induction entries generalizing required with
  | nil => rfl
  | cons e entries ih =>
    rw [foldlM_cons,flatMap_cons,foldlM_append,requireChannel_eq]
    congr 1
    funext required
    exact ih required

variable {v : ExpressionVisit}
lemma mem_visitRequests {q : HistKey × ℕ} : q ∈ visitRequests L E v ↔
    ∃ entry ref aggregator, analyzeHistoryExpression L E v.2 = .ok entry ∧ entry.err = none ∧ ref ∈ entry.refs ∧
      v.1.lookup ref.streamID = some aggregator ∧ q = (⟨ref.streamID,aggregator.code⟩,ref.count) := by
  obtain ⟨entry,hentry⟩ := analyzeHistoryExpression_returns L E v.2
  rw [visitRequests,hentry]
  cases herr : entry.err with
  | some e =>
    simp only [herr,Option.isSome_some,if_true,not_mem_nil,Except.ok.injEq,false_iff]
    rintro ⟨_,_,_,rfl,hnone,_⟩
    rw [herr] at hnone
    cases hnone
  | none =>
    simp only [herr,Option.isSome_none,Bool.false_eq_true,if_false,mem_filterMap,refRequest,
      Option.map_eq_some_iff,Except.ok.injEq]
    constructor
    · rintro ⟨ref,href,aggregator,hlookup,rfl⟩
      exact ⟨entry,ref,aggregator,rfl,herr,href,hlookup,rfl⟩
    · rintro ⟨_,ref,aggregator,rfl,_,href,hlookup,rfl⟩
      exact ⟨ref,href,aggregator,hlookup,rfl⟩

lemma mem_channelVisits {e : DefinitionEntry} : v ∈ channelVisits L opts e ↔
    e.2.tombstone = false ∧ e.2.reportFormat = .evmABIEncodeUnpackedExpr ∧
      ∃ exprs, aggregatorByStream e.2.streams = .ok v.1 ∧ expressions L.json (some opts) e.2 e.1 = .ok exprs ∧
        v.2 ∈ exprs := by
  rw [channelVisits]
  split_ifs with hskip
  · simp only [not_mem_nil,false_iff]
    rintro ⟨hlive,hformat,_⟩
    rcases hskip with htombstone | hother
    · rw [hlive] at htombstone
      cases htombstone
    · exact hother hformat
  · obtain ⟨hlive,hformat⟩ := not_or.1 hskip
    cases aggregatorByStream e.2.streams with
    | error _ => simp
    | ok aggByStream =>
      cases expressions L.json (some opts) e.2 e.1 with
      | error _ => simp
      | ok exprs =>
        simp only [mem_map,Except.ok.injEq]
        constructor
        · rintro ⟨expression,hmem,rfl⟩
          exact ⟨Bool.eq_false_iff.2 hlive,not_not.1 hformat,exprs,rfl,rfl,hmem⟩
        · rintro ⟨_,_,_,rfl,rfl,hmem⟩
          exact ⟨v.2,hmem,rfl⟩

lemma asks_iff : Asks L E defs opts k n ↔ (k,n) ∈ (expressionVisits L defs opts).flatMap (visitRequests L E) := by
  simp only [Asks,expressionVisits,mem_flatMap,mem_visitRequests,mem_channelVisits]
  constructor
  · rintro ⟨c,cd,aggByStream,exprs,expression,entry,ref,aggregator,hcd,hlive,hformat,haggs,hexprs,hmem,hentry,
      herr,href,hlookup,rfl,rfl⟩
    exact ⟨(aggByStream,expression),⟨(c,cd),get?_eq_some_iff.1 hcd,hlive,hformat,exprs,haggs,hexprs,hmem⟩,
      entry,ref,aggregator,hentry,herr,href,hlookup,rfl⟩
  · rintro ⟨⟨aggByStream,expression⟩,⟨⟨c,cd⟩,hcd,hlive,hformat,exprs,haggs,hexprs,hmem⟩,entry,ref,aggregator,hentry,
      herr,href,hlookup,hq⟩
    cases hq
    exact ⟨c,cd,aggByStream,exprs,expression,entry,ref,aggregator,get?_eq_some_iff.2 hcd,hlive,hformat,
      haggs,hexprs,hmem,hentry,herr,href,hlookup,rfl,rfl⟩

lemma Asks.pos (h : Asks L E defs opts k n) : 1 ≤ n := by
  obtain ⟨_,_,_,_,_,entry,ref,_,_,_,_,_,_,_,hentry,_,href,_,_,rfl⟩ := h
  exact (analyzeHistoryExpression_refsWithin hentry ref href).1

structure HoldsDeepest (requests : List (HistKey × ℕ)) (required : SortedMap HistKey ℕ) : Prop where
  le : ∀ k n, (k,n) ∈ requests → n ≤ (required.get? k).getD 0
  mem : ∀ k d, required.get? k = some d → (k,d) ∈ requests

/-- One more request keeps the map at the deepest ones. -/
lemma HoldsDeepest.requireDepth {requests : List (HistKey × ℕ)} (h : HoldsDeepest requests required) (k : HistKey)
    (n : ℕ) : HoldsDeepest (requests ++ [(k,n)]) (requireDepth required k n) := by
  rw [V31.requireDepth]
  split_ifs with hdeeper
  · constructor
    · intro a m hm
      rw [get?_insert]
      split_ifs with ha
      · rcases mem_append.1 hm with hold | hnew
        · rw [ha] at hold
          exact (h.le k m hold).trans (Nat.le_of_lt hdeeper)
        · cases mem_singleton.1 hnew
          exact Nat.le_refl _
      · rcases mem_append.1 hm with hm | hm
        · exact h.le a m hm
        · cases mem_singleton.1 hm
          exact absurd rfl ha
    · intro a m hm
      rw [get?_insert] at hm
      split_ifs at hm with ha
      · cases hm
        rw [ha]
        exact mem_append_right _ (mem_singleton_self _)
      · exact mem_append_left _ (h.mem a m hm)
  · constructor
    · intro a m hm
      rcases mem_append.1 hm with hm | hm
      · exact h.le a m hm
      · cases mem_singleton.1 hm
        exact not_lt.1 hdeeper
    · intro a m hm
      exact mem_append_left _ (h.mem a m hm)

lemma holdsDeepest_deepest (requests : List (HistKey × ℕ)) : HoldsDeepest requests (deepest ∅ requests) := by
  induction requests using List.reverseRecOn with
  | nil =>
    refine ⟨fun _ _ h => absurd h not_mem_nil,fun k d h => ?_⟩
    rw [deepest,foldl_nil,get?_emptyCollection] at h
    cases h
  | append_singleton requests q ih =>
    rw [deepest,foldl_append]
    exact ih.requireDepth q.1 q.2

namespace HoldsDeepest
variable {requests requests' : List (HistKey × ℕ)} {required' : SortedMap HistKey ℕ}
variable (h : HoldsDeepest requests required)
include h

lemma contains_iff (hpos : ∀ q ∈ requests, 1 ≤ q.2) : required.contains k = true ↔ ∃ n, (k,n) ∈ requests := by
  rw [contains_eq_true]
  constructor
  · rintro ⟨d,hd⟩
    exact ⟨d,h.mem k d hd⟩
  · rintro ⟨n,hn⟩
    have hle := h.le k n hn
    have hn : 1 ≤ n := hpos (k,n) hn
    cases hget : required.get? k with
    | some d => exact ⟨d,rfl⟩
    | none =>
      rw [hget,Option.getD_none] at hle
      omega

lemma isGreatest (hd : required.get? k = some d) : IsGreatest {n | (k,n) ∈ requests} d := by
  refine ⟨h.mem k d hd,fun n hn => ?_⟩
  have hle := h.le k n hn
  rwa [hd,Option.getD_some] at hle

/-- Requests alone determine the map, not their order. -/
lemma unique (h' : HoldsDeepest requests' required')
    (hpos : ∀ q ∈ requests, 1 ≤ q.2) (hsame : ∀ q, q ∈ requests ↔ q ∈ requests') : required = required' := by
  have hpos' : ∀ q ∈ requests', 1 ≤ q.2 := fun q hq => hpos q ((hsame q).2 hq)
  apply SortedMap.ext
  intro k
  have hcontains : required.contains k = true ↔ required'.contains k = true := by
    rw [h.contains_iff hpos,h'.contains_iff hpos']
    exact exists_congr fun n => hsame (k,n)
  cases hget : required.get? k with
  | none =>
    cases hget' : required'.get? k with
    | none => rfl
    | some d' =>
      obtain ⟨d,hd⟩ := contains_eq_true.1 (hcontains.2 (contains_eq_true.2 ⟨d',hget'⟩))
      rw [hget] at hd
      cases hd
  | some d =>
    obtain ⟨d',hd'⟩ := contains_eq_true.1 (hcontains.1 (contains_eq_true.2 ⟨d,hget⟩))
    have hset : {n | (k,n) ∈ requests} = {n | (k,n) ∈ requests'} := Set.ext fun n => hsame (k,n)
    rw [hd',(h.isGreatest hget).unique (hset ▸ h'.isGreatest hd')]

end HoldsDeepest

lemma computeHistoryRequirements_eq (L : Libs) (E : ExprLib) (defs : ChannelDefinitions) (opts : OptsCache)
    (incumbents : List HistKey) : computeHistoryRequirements L E defs opts incumbents =
      .ok (admitHistoryRequirements
        (deepest ∅ ((expressionVisits L defs opts).flatMap (visitRequests L E))) incumbents) := by
  rw [computeHistoryRequirements,foldlM_requireChannel,foldlM_requireVisit,Go.ok_bind]
  rfl

/-- The order pairs are admitted in. -/
def admissionOrder (required : SortedMap HistKey ℕ) (incumbents : List HistKey) : List HistKey :=
  let held := (incumbents.filter (fun k => required.contains k)).insertionSort (· ≤ ·)
  held ++ required.keys.filter (fun k => k ∉ held)

/-- Pairs are admitted in order until the limit is reached. -/
lemma foldl_admitPair (required : SortedMap HistKey ℕ) {order : List HistKey} {out : HistoryRequirements}
    (hnodup : order.Nodup) (hnew : ∀ k ∈ order, out.depths.get? k = none)
    (hsize : out.depths.size ≤ maxHistoryPairs) :
    order.foldl (admitPair required) out =
      ⟨out.depths.insertMany ((order.take (maxHistoryPairs - out.depths.size)).map
          (fun k => (k,(required.get? k).getD 0))),
        out.denied ++ order.drop (maxHistoryPairs - out.depths.size)⟩ := by
  induction order generalizing out with
  | nil => simp [SortedMap.insertMany]
  | cons k order ih =>
    obtain ⟨hk,hrest⟩ := nodup_cons.1 hnodup
    rw [foldl_cons,admitPair]
    split_ifs with hfull
    · have hzero : maxHistoryPairs - out.depths.size = 0 := by omega
      have hfolded := @ih ⟨out.depths,out.denied ++ [k]⟩ hrest (fun a ha => hnew a (mem_cons_of_mem k ha)) hsize
      rw [hfolded,hzero]
      simp
    · have hgrown : (out.depths.insert k ((required.get? k).getD 0)).size = out.depths.size + 1 := by
        apply le_antisymm (size_insert_le _ _ _)
        apply size_lt_size (k := k) _ (hnew k mem_cons_self)
        · rw [get?_insert_self]
          rfl
        · intro a ha
          rw [get?_insert]
          split_ifs
          · rfl
          · exact ha
      have hstep : maxHistoryPairs - out.depths.size = (maxHistoryPairs - (out.depths.size + 1)) + 1 := by omega
      rw [ih hrest,hgrown,hstep,take_succ_cons,drop_succ_cons]
      · rfl
      · intro a ha
        have hne : a ≠ k := fun hak => hk (hak ▸ ha)
        rw [get?_insert_of_ne _ _ hne]
        exact hnew a (mem_cons_of_mem k ha)
      · rw [hgrown]
        omega

section Admission
lemma mem_admissionOrder (h : k ∈ admissionOrder required incumbents) : required.contains k = true := by
  rcases mem_append.1 h with h | h
  · rw [mem_insertionSort] at h
    exact (mem_filter.1 h).2
  · exact SortedMap.mem_keys.1 (mem_filter.1 h).1

lemma mem_admissionOrder_iff : k ∈ admissionOrder required incumbents ↔ required.contains k = true := by
  refine ⟨mem_admissionOrder,fun h => ?_⟩
  rw [admissionOrder,mem_append]
  by_cases hheld : k ∈ (incumbents.filter (fun k => required.contains k)).insertionSort (· ≤ ·)
  · exact .inl hheld
  · exact .inr (mem_filter.2 ⟨SortedMap.mem_keys.2 h,by simpa using hheld⟩)

section
variable (h : incumbents.Nodup)
include h

lemma admissionOrder_nodup : (admissionOrder required incumbents).Nodup := by
  refine nodup_append.2 ⟨?_,required.keys_nodup.filter _,?_⟩
  · exact (perm_insertionSort _ _).nodup_iff.2 (h.filter _)
  · rintro a ha _ hb rfl
    exact absurd ha (by simpa using (mem_filter.1 hb).2)

lemma admitHistoryRequirements_eq : admitHistoryRequirements required incumbents =
    ⟨.ofList (((admissionOrder required incumbents).take maxHistoryPairs).map
        (fun k => (k,(required.get? k).getD 0))),
      (admissionOrder required incumbents).drop maxHistoryPairs⟩ :=
  foldl_admitPair required (admissionOrder_nodup h) (fun _ _ => rfl) (Nat.zero_le _)

lemma requires_admitHistoryRequirements :
    (admitHistoryRequirements required incumbents).requires k = true ↔
      k ∈ (admissionOrder required incumbents).take maxHistoryPairs := by
  rw [admitHistoryRequirements_eq h,HistoryRequirements.requires,SortedMap.ofList,contains_insertMany]
  simp [Function.comp_def]

lemma denied_admitHistoryRequirements :
    (admitHistoryRequirements required incumbents).denied = (admissionOrder required incumbents).drop maxHistoryPairs := by
  rw [admitHistoryRequirements_eq h]

lemma requires_iff_not_denied (hk : required.contains k = true) :
    (admitHistoryRequirements required incumbents).requires k = true ↔
      k ∉ (admitHistoryRequirements required incumbents).denied := by
  rw [requires_admitHistoryRequirements h,denied_admitHistoryRequirements h]
  have hmem : k ∈ admissionOrder required incumbents := mem_admissionOrder_iff.2 hk
  have hnodup : (admissionOrder required incumbents).Nodup := admissionOrder_nodup h
  rw [← take_append_drop maxHistoryPairs (admissionOrder required incumbents)] at hmem hnodup
  have hdisjoint := (nodup_append.1 hnodup).2.2
  constructor
  · exact fun htake hdrop => hdisjoint k htake k hdrop rfl
  · intro hdrop
    exact (mem_append.1 hmem).resolve_right hdrop

lemma requires_of_incumbent
    (hfit : (incumbents.filter (fun k => required.contains k)).length ≤ maxHistoryPairs)
    (hk : k ∈ incumbents) (hrequired : required.contains k = true) :
    (admitHistoryRequirements required incumbents).requires k = true := by
  rw [requires_admitHistoryRequirements h,admissionOrder,take_append,take_of_length_le (by rwa [length_insertionSort])]
  apply mem_append_left
  rw [mem_insertionSort]
  exact mem_filter.2 ⟨hk,hrequired⟩

end

variable {incumbents' : List HistKey}
lemma admissionOrder_perm (h : incumbents'.Perm incumbents) :
    admissionOrder required incumbents' = admissionOrder required incumbents := by
  have hsorted := fun l : List HistKey => pairwise_insertionSort (· ≤ ·) l
  have hperm : ((incumbents'.filter (fun k => required.contains k)).insertionSort (· ≤ ·)).Perm
      ((incumbents.filter (fun k => required.contains k)).insertionSort (· ≤ ·)) :=
    (perm_insertionSort _ _).trans ((h.filter _).trans (perm_insertionSort _ _).symm)
  have heq := hperm.eq_of_pairwise (fun a b _ _ => le_antisymm) (hsorted _) (hsorted _)
  rw [admissionOrder,admissionOrder,heq]

lemma admitHistoryRequirements_perm (h : incumbents.Nodup)
    (hperm : incumbents'.Perm incumbents) :
    admitHistoryRequirements required incumbents' = admitHistoryRequirements required incumbents := by
  rw [admitHistoryRequirements_eq h,admitHistoryRequirements_eq (hperm.nodup_iff.2 h),admissionOrder_perm hperm]

end Admission

/-- What a round's admission is, said of the definitions. -/
structure AdmitsFairly (L : Libs) (E : ExprLib) (defs : ChannelDefinitions) (opts : OptsCache)
    (incumbents : List HistKey) (r : HistoryRequirements) : Prop where
  size_le : r.depths.size ≤ maxHistoryPairs
  /-- When the required incumbents fit under the cap, none of them is denied. -/
  warm : Set.ncard {k | k ∈ incumbents ∧ ∃ n, Asks L E defs opts k n} ≤ maxHistoryPairs →
    ∀ k ∈ incumbents, k ∉ r.denied
  depth : ∀ k d, r.depths.get? k = some d → IsGreatest {n | Asks L E defs opts k n} d
  /-- A pair is required exactly if it is admitted or denied. -/
  required_iff : ∀ k, (∃ n, Asks L E defs opts k n) ↔ (r.requires k = true ∨ k ∈ r.denied)
  not_both : ∀ k, r.requires k = true → k ∉ r.denied
  /-- The expressions visited in another order and the incumbents listed in another order give
  the same result. -/
  order : ∀ (visits : List ExpressionVisit) (incumbents' : List HistKey), visits.Perm (expressionVisits L defs opts) → incumbents'.Perm incumbents →
    (visits.foldlM (requireVisit L E) ∅ >>= fun required => .ok (admitHistoryRequirements required incumbents')) =
      .ok r

lemma admitsFairly (h : incumbents.Nodup) {r : HistoryRequirements}
    (hr : computeHistoryRequirements L E defs opts incumbents = .ok r) : AdmitsFairly L E defs opts incumbents r := by
  rw [computeHistoryRequirements_eq] at hr
  generalize hrequests : (expressionVisits L defs opts).flatMap (visitRequests L E) = requests at hr
  have hasks : ∀ {k n}, Asks L E defs opts k n ↔ (k,n) ∈ requests := hrequests ▸ asks_iff
  have hpos : ∀ q ∈ requests, 1 ≤ q.2 := fun q hq => (hasks.2 hq).pos
  have hdeepest := holdsDeepest_deepest requests
  have hcontains : ∀ k, (∃ n, Asks L E defs opts k n) ↔ (deepest ∅ requests).contains k = true := by
    intro k
    rw [hdeepest.contains_iff hpos]
    exact exists_congr fun n => hasks
  have hadmits := admits_admitHistoryRequirements (deepest ∅ requests) incumbents
  cases hr
  constructor
  case size_le => exact hadmits.size_le
  case warm =>
    intro hcard k hk hdenied
    have hrequired : (deepest ∅ requests).contains k = true := by
      rw [denied_admitHistoryRequirements h] at hdenied
      exact mem_admissionOrder (mem_of_mem_drop hdenied)
    have hset : {k | k ∈ incumbents ∧ ∃ n, Asks L E defs opts k n} =
        ((incumbents.filter (fun k => (deepest ∅ requests).contains k)).toFinset : Set HistKey) := by
      ext a
      simp [hcontains]
    rw [hset,Set.ncard_coe_finset,toFinset_card_of_nodup (h.filter _)] at hcard
    exact (requires_iff_not_denied h hrequired).1 (requires_of_incumbent h hcard hk hrequired) hdenied
  case depth =>
    intro k d hd
    have hset : {n | Asks L E defs opts k n} = {n | (k,n) ∈ requests} := Set.ext fun n => hasks
    rw [hset]
    exact hdeepest.isGreatest (hadmits.depth k d hd)
  case required_iff =>
    intro k
    rw [hcontains]
    constructor
    · intro hk
      rw [requires_iff_not_denied h hk]
      exact em' _
    · rintro (hk | hk)
      · exact mem_admissionOrder (mem_of_mem_take ((requires_admitHistoryRequirements h).1 hk))
      · rw [denied_admitHistoryRequirements h] at hk
        exact mem_admissionOrder (mem_of_mem_drop hk)
  case not_both =>
    intro k hk
    have hmem := mem_of_mem_take ((requires_admitHistoryRequirements h).1 hk)
    exact (requires_iff_not_denied h (mem_admissionOrder hmem)).1 hk
  case order =>
    intro visits incumbents' hvisits hincumbents
    have hsame : ∀ q, q ∈ requests ↔ q ∈ visits.flatMap (visitRequests L E) := by
      intro q
      rw [← hrequests,mem_flatMap,mem_flatMap]
      exact exists_congr fun v => and_congr_left fun _ => hvisits.mem_iff.symm
    rw [foldlM_requireVisit,Go.ok_bind,← hdeepest.unique (holdsDeepest_deepest _) hpos hsame,
      admitHistoryRequirements_perm h hincumbents]

/-- Rounds in which what is admitted are the next incumbents, and whatever was required stays
required. -/
structure AdmissionRounds (L : Libs) (E : ExprLib) where
  defs : ℕ → ChannelDefinitions
  opts : ℕ → OptsCache
  incumbents : ℕ → List HistKey
  result : ℕ → HistoryRequirements
  nodup : (incumbents 0).Nodup
  computes : ∀ n, computeHistoryRequirements L E (defs n) (opts n) (incumbents n) = .ok (result n)
  next : ∀ n, (incumbents (n + 1)).Perm (result n).depths.keys
  grows : ∀ n k, (∃ d, Asks L E (defs n) (opts n) k d) → ∃ d, Asks L E (defs (n + 1)) (opts (n + 1)) k d

namespace AdmissionRounds
variable (R : AdmissionRounds L E)
lemma incumbents_nodup (n : ℕ) : (R.incumbents n).Nodup := by
  cases n with
  | zero => exact R.nodup
  | succ n => exact (R.next n).nodup_iff.2 (keys_nodup _)

lemma admitsFairly (n : ℕ) : AdmitsFairly L E (R.defs n) (R.opts n) (R.incumbents n) (R.result n) :=
  V31.admitsFairly (R.incumbents_nodup n) (R.computes n)

lemma mem_incumbents {n : ℕ} : k ∈ R.incumbents (n + 1) ↔ (R.result n).requires k = true := by
  rw [(R.next n).mem_iff,SortedMap.mem_keys]
  rfl

lemma ncard_incumbents_le (n : ℕ) : Set.ncard
    {k | k ∈ R.incumbents (n + 1) ∧ ∃ d, Asks L E (R.defs (n + 1)) (R.opts (n + 1)) k d} ≤ maxHistoryPairs := by
  have hsub : {k | k ∈ R.incumbents (n + 1) ∧ ∃ d, Asks L E (R.defs (n + 1)) (R.opts (n + 1)) k d} ⊆
      ((R.incumbents (n + 1)).toFinset : Set HistKey) := fun k hk => mem_toFinset.2 hk.1
  calc Set.ncard _ ≤ Set.ncard ((R.incumbents (n + 1)).toFinset : Set HistKey) :=
        Set.ncard_le_ncard hsub (Finset.finite_toSet _)
    _ = (R.incumbents (n + 1)).toFinset.card := Set.ncard_coe_finset _
    _ ≤ (R.incumbents (n + 1)).length := toFinset_card_le _
    _ = (R.result n).depths.size := by rw [(R.next n).length_eq,SortedMap.keys,length_map]; rfl
    _ ≤ maxHistoryPairs := (R.admitsFairly n).size_le

lemma requires_succ {n : ℕ} (h : (R.result n).requires k = true) : (R.result (n + 1)).requires k = true := by
  have hasked := R.grows n k (((R.admitsFairly n).required_iff k).2 (.inl h))
  have hwarm := (R.admitsFairly (n + 1)).warm (R.ncard_incumbents_le n) k (R.mem_incumbents.2 h)
  exact (((R.admitsFairly (n + 1)).required_iff k).1 hasked).resolve_right hwarm

lemma requires_of_le {n m : ℕ} (hnm : n ≤ m) (h : (R.result n).requires k = true) :
    (R.result m).requires k = true := by
  induction m, hnm using Nat.le_induction with
  | base => exact h
  | succ m _ ih => exact R.requires_succ ih

end AdmissionRounds

/-- Admission of every definition set and every list of distinct incumbents is fair, and over
rounds that only require more a pair once admitted is never denied. -/
theorem history_admission (L : Libs) (E : ExprLib) :
    (∀ defs opts incumbents, incumbents.Nodup → ∃ r,
      computeHistoryRequirements L E defs opts incumbents = .ok r ∧ AdmitsFairly L E defs opts incumbents r) ∧
    ∀ (R : AdmissionRounds L E) k n m, n ≤ m → (R.result n).requires k = true →
      (R.result m).requires k = true ∧ k ∉ (R.result m).denied := by
  constructor
  · intro defs opts incumbents h
    have hr := computeHistoryRequirements_eq L E defs opts incumbents
    exact ⟨_,hr,admitsFairly h hr⟩
  · intro R k n m hnm h
    have hm := R.requires_of_le hnm h
    exact ⟨hm,(R.admitsFairly m).not_both k hm⟩

/-- One expression over the last two values of stream 1. -/
def average : Text := "Avg(History(s1, 2))".toList

def averageExprs : ExprLib :=
  ⟨fromTable [(average,.call (.identifier "Avg".toList)
      [.call (.identifier "History".toList) [.identifier "s1".toList,.integer 2]])],
    fromTable []⟩

def averageLibs : Libs := ⟨.ofExpressions [(1,[(average,100)])],fromTable [],digest⟩

def averageDefinitions : ChannelDefinitions :=
  .ofList [(1,⟨.evmABIEncodeUnpackedExpr,[⟨1,.median⟩],(JSONText.exprOpts 1 [(average,100)]).bytes,false,0,false⟩)]

def averagePair : HistKey := ⟨1,Aggregator.median.code⟩

lemma computes_average {incumbents : List HistKey} (h : incumbents ∈ [[],[averagePair]]) :
    computeHistoryRequirements averageLibs averageExprs averageDefinitions (.ofDefinitions averageDefinitions)
      incumbents = .ok ⟨.ofList [(averagePair,2)],[]⟩ := by
  have hall : ∀ incumbents ∈ [[],[averagePair]],
      computeHistoryRequirements averageLibs averageExprs averageDefinitions (.ofDefinitions averageDefinitions)
        incumbents = .ok ⟨.ofList [(averagePair,2)],[]⟩ := by decide +kernel
  exact hall incumbents h

/-- The pair is admitted in the first round and is an incumbent from then on. -/
def averageRounds : AdmissionRounds averageLibs averageExprs where
  defs _ := averageDefinitions
  opts _ := .ofDefinitions averageDefinitions
  incumbents n := if n = 0 then [] else [averagePair]
  result _ := ⟨.ofList [(averagePair,2)],[]⟩
  nodup := nodup_nil
  computes n := computes_average (by split_ifs <;> simp)
  next _ := List.Perm.refl _
  grows _ _ h := h

theorem history_admission_average :
    (averageRounds.result 7).requires averagePair = true ∧ averagePair ∉ (averageRounds.result 7).denied :=
  (history_admission averageLibs averageExprs).2 averageRounds averagePair 0 7 (Nat.zero_le _) (by decide)

end DataStreams.V31
