import DataStreams.Protocol.Budget
import Mathlib.Algebra.Order.BigOperators.Group.Finset

/-! A budget is a function of the definitions that are in, whatever the order of the changes. -/
namespace DataStreams
open List

/-- The stream IDs a definition holds; a tombstone holds none. -/
def ChannelDefinition.liveStreamIDs (cd : ChannelDefinition) : List StreamID :=
  if cd.tombstone then [] else cd.streams.map Stream.streamID

def ChannelDefinition.liveObservedIDs (cd : ChannelDefinition) : List StreamID :=
  if cd.tombstone then [] else (cd.streams.filter (fun s => s.aggregator ≠ .calculated)).map Stream.streamID

def liveCalculatedIDs (c : ChannelDefinition × ChannelFacts) : List StreamID :=
  if c.1.tombstone then [] else c.2.calculatedIDs

def liveTWAPCalls (c : ChannelDefinition × ChannelFacts) : ℕ := if c.1.tombstone then 0 else c.2.twapCalls

/-- Claims on a stream ID beyond its first owner. -/
def excessAt (observed calculated : Multiset StreamID) (sid : StreamID) : ℤ :=
  if calculated.count sid = 0 then 0
  else if 0 < observed.count sid then calculated.count sid
  else calculated.count sid - 1

def excessTotal (observed calculated : Multiset StreamID) : ℤ :=
  ∑ sid ∈ calculated.toFinset, excessAt observed calculated sid

lemma sum_excessAt_of_subset {observed calculated : Multiset StreamID} {s : Finset StreamID}
    (h : calculated.toFinset ⊆ s) : ∑ sid ∈ s, excessAt observed calculated sid = excessTotal observed calculated := by
  refine (Finset.sum_subset h fun sid _ hsid => ?_).symm
  rw [excessAt,if_pos (Multiset.count_eq_zero.2 fun hmem => hsid (Multiset.mem_toFinset.2 hmem))]

variable {o o' c c' : Multiset StreamID}
lemma excessTotal_update {sid : StreamID}
    (ho : ∀ a, a ≠ sid → o'.count a = o.count a) (hc : ∀ a, a ≠ sid → c'.count a = c.count a) :
    excessTotal o' c' = excessTotal o c - excessAt o c sid + excessAt o' c' sid := by
  let s := insert sid (c.toFinset ∪ c'.toFinset)
  have hsid : sid ∈ s := Finset.mem_insert_self _ _
  have hsub : c.toFinset ⊆ s := Finset.subset_union_left.trans (Finset.subset_insert _ _)
  have hsub' : c'.toFinset ⊆ s := Finset.subset_union_right.trans (Finset.subset_insert _ _)
  have hrest : ∑ a ∈ s.erase sid, excessAt o' c' a = ∑ a ∈ s.erase sid, excessAt o c a := by
    refine Finset.sum_congr rfl fun a ha => ?_
    have hne := Finset.ne_of_mem_erase ha
    rw [excessAt,excessAt,ho a hne,hc a hne]
  rw [← sum_excessAt_of_subset hsub,← sum_excessAt_of_subset hsub',← Finset.add_sum_erase s _ hsid,
    ← Finset.add_sum_erase s (excessAt o c) hsid,hrest]
  omega

lemma excessAt_mono (ho : o ≤ o') (hc : c ≤ c') (sid : StreamID) :
    excessAt o c sid ≤ excessAt o' c' sid := by
  have ho := Multiset.count_le_of_le sid ho
  have hc := Multiset.count_le_of_le sid hc
  unfold excessAt
  split_ifs <;> omega

lemma excessTotal_mono (ho : o ≤ o') (hc : c ≤ c') :
    excessTotal o c ≤ excessTotal o' c' := by
  have hsub : c.toFinset ⊆ c'.toFinset := by
    intro sid hsid
    exact Multiset.mem_toFinset.2 (Multiset.mem_of_le hc (Multiset.mem_toFinset.1 hsid))
  rw [← sum_excessAt_of_subset hsub]
  exact Finset.sum_le_sum fun sid _ => excessAt_mono ho hc sid

namespace Delta
variable {K : Type} [DecidableEq K]
variable (d : Delta)
def counts (m : Multiset K) (l : List K) : Multiset K :=
  match d with
  | .add => m + l
  | .remove => m - l

variable (m : Multiset K)
@[simp] lemma counts_nil : d.counts m [] = m := by
  cases d <;> simp [counts]

lemma counts_cons (k : K) (l : List K) :
    d.counts m (k :: l) = d.counts (d.count m k) l := by
  cases d with
  | add =>
    rw [counts,counts,count,← Multiset.cons_coe,Multiset.add_cons,Multiset.cons_add]
  | remove =>
    rw [counts,counts,count,← Multiset.cons_coe,Multiset.sub_cons]

lemma foldl_count (l : List K) : l.foldl d.count m = d.counts m l := by
  induction l generalizing m with
  | nil => simp
  | cons k l ih => rw [foldl_cons,ih,counts_cons]

lemma count_count_of_ne {k a : K} (h : a ≠ k) : (d.count m k).count a = m.count a := by
  cases d with
  | add => exact Multiset.count_cons_of_ne h m
  | remove => exact Multiset.count_erase_of_ne h m

end Delta

namespace ChannelDefinitionsBudget

variable (d : Delta)
variable (b : ChannelDefinitionsBudget)
lemma ownObserved_eq (sid : StreamID) :
    b.ownObserved d sid =
      { b with
        observed := d.count b.observed sid
        clashes := b.clashes - excessTotal b.observed b.calculated +
          excessTotal (d.count b.observed sid) b.calculated } := by
  have hmove := @excessTotal_update b.observed _ b.calculated _ sid
    (fun a ha => d.count_count_of_ne _ ha) (fun _ _ => rfl)
  rw [hmove]
  simp only [ownObserved,mk.injEq,true_and]
  show b.clashes - excessAt b.observed b.calculated sid + excessAt (d.count b.observed sid) b.calculated sid = _
  omega

lemma ownCalculated_eq (sid : StreamID) :
    b.ownCalculated d sid =
      { b with
        calculated := d.count b.calculated sid
        clashes := b.clashes - excessTotal b.observed b.calculated +
          excessTotal b.observed (d.count b.calculated sid) } := by
  have hmove := @excessTotal_update b.observed _ b.calculated _ sid
    (fun _ _ => rfl) (fun a ha => d.count_count_of_ne _ ha)
  rw [hmove]
  simp only [ownCalculated,mk.injEq,true_and]
  show b.clashes - excessAt b.observed b.calculated sid + excessAt b.observed (d.count b.calculated sid) sid = _
  omega

lemma foldl_ownCalculated (ids : List StreamID) (b : ChannelDefinitionsBudget) :
    ids.foldl (ownCalculated d) b =
      { b with
        calculated := d.counts b.calculated ids
        clashes := b.clashes - excessTotal b.observed b.calculated +
          excessTotal b.observed (d.counts b.calculated ids) } := by
  induction ids generalizing b with
  | nil => simp
  | cons sid ids ih =>
    rw [foldl_cons,ih,ownCalculated_eq,Delta.counts_cons]
    simp only [mk.injEq,true_and]
    omega

lemma foldl_applyStream (streams : List Stream) (b : ChannelDefinitionsBudget) :
    streams.foldl (applyStream d) b =
      { b with
        streamIDs := d.counts b.streamIDs (streams.map Stream.streamID)
        observed := d.counts b.observed ((streams.filter (fun s => s.aggregator ≠ .calculated)).map Stream.streamID)
        clashes := b.clashes - excessTotal b.observed b.calculated +
          excessTotal (d.counts b.observed
            ((streams.filter (fun s => s.aggregator ≠ .calculated)).map Stream.streamID)) b.calculated } := by
  induction streams generalizing b with
  | nil => simp
  | cons s streams ih =>
    rw [foldl_cons,ih,applyStream,map_cons,Delta.counts_cons]
    by_cases hs : s.aggregator = .calculated
    · simp [hs]
    · rw [if_pos hs,ownObserved_eq,filter_cons_of_pos (by simpa using hs),map_cons,Delta.counts_cons]
      simp only [mk.injEq,true_and]
      omega

lemma apply_eq (cd : ChannelDefinition) (f : ChannelFacts) :
    b.apply d cd f =
      { streamEntries := b.streamEntries + d.sign * cd.streams.length
        optsBytes := b.optsBytes + d.sign * cd.opts.length
        calculatedStreams := b.calculatedStreams + d.sign * (liveCalculatedIDs (cd,f)).length
        twapCalls := b.twapCalls + d.sign * liveTWAPCalls (cd,f)
        aggregatedPairs := d.counts b.aggregatedPairs (aggregatedPairsOf cd)
        streamIDs := d.counts b.streamIDs cd.liveStreamIDs
        observed := d.counts b.observed cd.liveObservedIDs
        calculated := d.counts b.calculated (liveCalculatedIDs (cd,f))
        clashes := b.clashes - excessTotal b.observed b.calculated +
          excessTotal (d.counts b.observed cd.liveObservedIDs) (d.counts b.calculated (liveCalculatedIDs (cd,f))) } := by
  unfold apply liveCalculatedIDs liveTWAPCalls ChannelDefinition.liveStreamIDs ChannelDefinition.liveObservedIDs
  split_ifs with ht
  · simp [applyPersisted,Delta.foldl_count]
  · rw [applyLive,foldl_ownCalculated,foldl_applyStream]
    simp only [applyPersisted,Delta.foldl_count,mk.injEq,true_and]
    omega

variable (channels : List (ChannelDefinition × ChannelFacts))
def measured : ChannelDefinitionsBudget where
  streamEntries := (channels.map (fun c => (c.1.streams.length : ℤ))).sum
  optsBytes := (channels.map (fun c => (c.1.opts.length : ℤ))).sum
  calculatedStreams := (channels.map (fun c => ((liveCalculatedIDs c).length : ℤ))).sum
  twapCalls := (channels.map (fun c => (liveTWAPCalls c : ℤ))).sum
  aggregatedPairs := channels.flatMap (fun c => aggregatedPairsOf c.1)
  streamIDs := channels.flatMap (fun c => c.1.liveStreamIDs)
  observed := channels.flatMap (fun c => c.1.liveObservedIDs)
  calculated := channels.flatMap liveCalculatedIDs
  clashes := excessTotal (channels.flatMap (fun c => c.1.liveObservedIDs)) (channels.flatMap liveCalculatedIDs)

lemma measured_perm {l l' : List (ChannelDefinition × ChannelFacts)} (h : l.Perm l') : measured l = measured l' := by
  have hflat : ∀ {K : Type} (g : ChannelDefinition × ChannelFacts → List K),
      ((l.flatMap g : List K) : Multiset K) = (l'.flatMap g : List K) :=
    fun g => Multiset.coe_eq_coe.2 (h.flatMap_right g)
  simp only [measured,hflat,(h.map _).sum_eq]

lemma coe_flatMap_cons {K : Type} (g : ChannelDefinition × ChannelFacts → List K)
    (c : ChannelDefinition × ChannelFacts) (l : List (ChannelDefinition × ChannelFacts)) :
    (((c :: l).flatMap g : List K) : Multiset K) = (l.flatMap g : List K) + (g c : Multiset K) := by
  rw [flatMap_cons,← Multiset.coe_add,add_comm]

variable (c : ChannelDefinition × ChannelFacts) (l : List (ChannelDefinition × ChannelFacts))
lemma apply_add_measured :
    (measured l).apply .add c.1 c.2 = measured (c :: l) := by
  rw [apply_eq]
  simp only [measured,coe_flatMap_cons,Delta.counts,Delta.sign,map_cons,sum_cons,one_mul,Prod.mk.eta,
    sub_self,zero_add,mk.injEq,and_true]
  refine ⟨?_,?_,?_,?_⟩ <;> omega

lemma apply_remove_measured :
    (measured (c :: l)).apply .remove c.1 c.2 = measured l := by
  rw [apply_eq]
  simp only [measured,coe_flatMap_cons,Delta.counts,Delta.sign,map_cons,sum_cons,Prod.mk.eta,
    Multiset.add_sub_cancel_right,sub_self,zero_add,mk.injEq,and_true]
  refine ⟨?_,?_,?_,?_⟩ <;> omega

lemma measure_eq : measure channels = measured channels := by
  have hfold : ∀ (l l' : List (ChannelDefinition × ChannelFacts)),
      l.foldl (fun b c => b.apply .add c.1 c.2) (measured l') = measured (l.reverse ++ l') := by
    intro l
    induction l with
    | nil => exact fun _ => rfl
    | cons c l ih =>
      intro l'
      rw [foldl_cons,apply_add_measured,ih,reverse_cons,append_assoc,singleton_append]
  have hempty : empty = measured [] := rfl
  rw [measure,hempty,hfold,append_nil]
  exact measured_perm channels.reverse_perm

lemma replaceFacts_measured (prev : Option (ChannelDefinition × ChannelFacts))
    (next : ChannelDefinition × ChannelFacts) (rest : List (ChannelDefinition × ChannelFacts)) :
    (measured (prev.toList ++ rest)).replaceFacts prev next =
      if (measured (next :: rest)).totals.grows (measured (prev.toList ++ rest)).totals
      then (false,measured (prev.toList ++ rest)) else (true,measured (next :: rest)) := by
  have htaken : prev.elim (measured (prev.toList ++ rest)) (fun p => (measured (prev.toList ++ rest)).apply .remove p.1 p.2) =
      measured rest := by
    cases prev with
    | none => rfl
    | some p => exact apply_remove_measured p rest
  have hback : prev.elim (measured rest) (fun p => measured (p :: rest)) = measured (prev.toList ++ rest) := by
    cases prev <;> rfl
  simp only [replaceFacts,htaken,apply_add_measured,apply_remove_measured,hback]

end ChannelDefinitionsBudget
end DataStreams
