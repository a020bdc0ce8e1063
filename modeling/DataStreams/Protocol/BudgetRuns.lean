import DataStreams.Protocol.StreamBudget
import Mathlib.Algebra.BigOperators.Ring.Finset

/-! Budgets over sequences of changes are those recomputed from the set. -/
namespace DataStreams
open List

/-- The facts of a definition, the same on every call. -/
abbrev PureFacts := ChannelID → ChannelDefinition → ChannelFacts

def PureFacts.factsOf (facts : PureFacts) : FactsOf := fun id cd => .ok (facts id cd)

def liveEntries (defs : ChannelDefinitions) : List DefinitionEntry :=
  defs.entries.filter (fun e => !e.2.tombstone)

def declaredIDs (facts : PureFacts) (defs : ChannelDefinitions) : List StreamID :=
  (liveEntries defs).flatMap (fun e => (facts e.1 e.2).calculatedIDs)

def observedIDs (defs : ChannelDefinitions) : List StreamID :=
  (liveEntries defs).flatMap (fun e => (e.2.streams.filter (fun s => s.aggregator ≠ .calculated)).map Stream.streamID)

def owners (facts : PureFacts) (defs : ChannelDefinitions) (sid : StreamID) : ℤ :=
  (declaredIDs facts defs).count sid + if sid ∈ observedIDs defs then 1 else 0

def recomputedTotals (facts : PureFacts) (defs : ChannelDefinitions) : BudgetTotals where
  streamEntries := (defs.entries.map (fun e => (e.2.streams.length : ℤ))).sum
  optsBytes := (defs.entries.map (fun e => (e.2.opts.length : ℤ))).sum
  aggregatedPairs := (defs.entries.flatMap (fun e => aggregatedPairsOf e.2)).dedup.length
  calculatedStreams := (declaredIDs facts defs).length
  twapCalls := ((liveEntries defs).map (fun e => ((facts e.1 e.2).twapCalls : ℤ))).sum
  streamIDs := ((liveEntries defs).flatMap (fun e => e.2.streams.map Stream.streamID)).dedup.length
  clashes := ((declaredIDs facts defs).dedup.map (fun sid => owners facts defs sid - 1)).sum

lemma flatMap_live {K : Type} (g : DefinitionEntry → List K) (l : List DefinitionEntry) :
    l.flatMap (fun e => if e.2.tombstone then [] else g e) = (l.filter (fun e => !e.2.tombstone)).flatMap g := by
  induction l with
  | nil => rfl
  | cons e l ih =>
    rw [flatMap_cons,ih]
    cases ht : e.2.tombstone with
    | true => rw [filter_cons_of_neg (by simp [ht])]; rfl
    | false => rw [filter_cons_of_pos (by simp [ht]),flatMap_cons]; rfl

lemma sum_live (g : DefinitionEntry → ℕ) (l : List DefinitionEntry) :
    (l.map (fun e => ((if e.2.tombstone then 0 else g e : ℕ) : ℤ))).sum =
      ((l.filter (fun e => !e.2.tombstone)).map (fun e => (g e : ℤ))).sum := by
  induction l with
  | nil => rfl
  | cons e l ih =>
    rw [map_cons,sum_cons,ih]
    cases ht : e.2.tombstone with
    | true => rw [filter_cons_of_neg (by simp [ht])]; simp
    | false => rw [filter_cons_of_pos (by simp [ht]),map_cons,sum_cons]; simp

lemma excessTotal_eq (observed calculated : List StreamID) :
    excessTotal observed calculated =
      (calculated.dedup.map (fun sid => (calculated.count sid : ℤ) + (if sid ∈ observed then 1 else 0) - 1)).sum := by
  have hset : (calculated : Multiset StreamID).toFinset = calculated.dedup.toFinset := by
    ext sid
    simp
  rw [excessTotal,hset,sum_toFinset _ calculated.nodup_dedup]
  congr 1
  apply map_congr_left
  intro sid hsid
  have hpos := count_pos_iff.2 (mem_dedup.1 hsid)
  simp only [excessAt,Multiset.coe_count,count_pos_iff]
  split_ifs <;> omega

lemma totalsOf_pure (facts : PureFacts) (defs : ChannelDefinitions) :
    totalsOf facts.factsOf defs = recomputedTotals facts defs := by
  have hcosts : costs facts.factsOf defs =
      defs.entries.map (fun e => (e.2,if e.2.tombstone then ChannelFacts.zero else facts e.1 e.2)) := by
    apply map_congr_left
    intro e _
    rw [factsAt,liveFacts]
    split_ifs <;> rfl
  have hcalculated : (costs facts.factsOf defs).flatMap liveCalculatedIDs = declaredIDs facts defs := by
    rw [hcosts,flatMap_map,declaredIDs,liveEntries,← flatMap_live]
    apply flatMap_congr
    intro e _
    rw [liveCalculatedIDs]
    split_ifs <;> rfl
  have hobserved : (costs facts.factsOf defs).flatMap (fun c => c.1.liveObservedIDs) = observedIDs defs := by
    rw [hcosts,flatMap_map,observedIDs,liveEntries,← flatMap_live]
    rfl
  have hids : (costs facts.factsOf defs).flatMap (fun c => c.1.liveStreamIDs) =
      (liveEntries defs).flatMap (fun e => e.2.streams.map Stream.streamID) := by
    rw [hcosts,flatMap_map,liveEntries,← flatMap_live]
    rfl
  have htwap : ((costs facts.factsOf defs).map (fun c => (liveTWAPCalls c : ℤ))).sum =
      ((liveEntries defs).map (fun e => ((facts e.1 e.2).twapCalls : ℤ))).sum := by
    rw [hcosts,map_map,liveEntries,← sum_live]
    congr 1
    apply map_congr_left
    intro e _
    rw [Function.comp_apply,liveTWAPCalls]
    split_ifs <;> rfl
  have hdeclared : ((costs facts.factsOf defs).map (fun c => ((liveCalculatedIDs c).length : ℤ))).sum =
      (declaredIDs facts defs).length := by
    rw [← hcalculated,length_flatMap]
    rw [Nat.cast_list_sum,map_map]
    rfl
  have hpairs : (costs facts.factsOf defs).flatMap (fun c => aggregatedPairsOf c.1) =
      defs.entries.flatMap (fun e => aggregatedPairsOf e.2) := by
    rw [hcosts,flatMap_map]
  have hentries : ((costs facts.factsOf defs).map (fun c => (c.1.streams.length : ℤ))).sum =
      (defs.entries.map (fun e => (e.2.streams.length : ℤ))).sum := by
    rw [hcosts,map_map]
    rfl
  have hopts : ((costs facts.factsOf defs).map (fun c => (c.1.opts.length : ℤ))).sum =
      (defs.entries.map (fun e => (e.2.opts.length : ℤ))).sum := by
    rw [hcosts,map_map]
    rfl
  simp only [totalsOf,ChannelDefinitionsBudget.totals,ChannelDefinitionsBudget.measured,recomputedTotals,hentries,hopts,
    hpairs,hdeclared,htwap,hids,hobserved,hcalculated,excessTotal_eq,owners,Multiset.coe_dedup,Multiset.coe_card]

structure BudgetedSet where
  definitions : ChannelDefinitions
  budget : ChannelDefinitionsBudget

namespace BudgetedSet
variable (facts : PureFacts)
def replace (s : BudgetedSet) (id : ChannelID) (next : ChannelDefinition) : Go (Bool × BudgetedSet) := do
  let (fits,b) ← s.budget.replace facts.factsOf id (s.definitions.get? id) next
  .ok (fits,⟨if fits then s.definitions.insert id next else s.definitions,b⟩)

def replaceAll (s : BudgetedSet) (changes : List DefinitionEntry) : Go BudgetedSet :=
  changes.foldlM (fun s change => do .ok (← s.replace facts change.1 change.2).2) s

/-- The budget is the one of the set, whatever order the set is read in. -/
def Exact (s : BudgetedSet) : Prop :=
  s.budget = .measured (costs facts.factsOf s.definitions)

variable {facts} {s : BudgetedSet}
lemma Exact.totals (h : s.Exact facts) : s.budget.totals = recomputedTotals facts s.definitions := by
  rw [h,← totalsOf_pure]
  rfl

lemma Exact.measure_eq (h : s.Exact facts) {order : List DefinitionEntry}
    (hperm : order.Perm s.definitions.entries) :
    ChannelDefinitionsBudget.measure (order.map (fun e => (e.2,factsAt facts.factsOf e))) = s.budget := by
  rw [ChannelDefinitionsBudget.measure_eq,h]
  exact ChannelDefinitionsBudget.measured_perm (hperm.map _)

/-- A replacement is refused exactly when a recomputed total over its limit grows. -/
lemma Exact.replace (h : s.Exact facts) (id : ChannelID) (next : ChannelDefinition) :
    ∃ fits s', s.replace facts id next = .ok (fits,s') ∧ s'.Exact facts ∧
      s'.definitions = (if fits then s.definitions.insert id next else s.definitions) ∧
      (fits = false ↔
        (recomputedTotals facts (s.definitions.insert id next)).grows (recomputedTotals facts s.definitions) = true) := by
  have hlive : ∀ cd, ∃ f, liveFacts facts.factsOf id cd = .ok f := by
    intro cd
    unfold liveFacts
    split_ifs
    · exact ⟨_,rfl⟩
    · exact ⟨_,rfl⟩
  have hprev : ∃ prev, optionalFacts facts.factsOf id (s.definitions.get? id) = .ok prev := by
    cases s.definitions.get? id with
    | none => exact ⟨none,rfl⟩
    | some cd =>
      obtain ⟨f,hf⟩ := hlive cd
      rw [optionalFacts,hf]
      exact ⟨_,rfl⟩
  obtain ⟨prev,hprev⟩ := hprev
  obtain ⟨f,hf⟩ := hlive next
  obtain ⟨⟨fits,b⟩,hreplace⟩ : ∃ r, s.budget.replace facts.factsOf id (s.definitions.get? id) next = .ok r := by
    rw [ChannelDefinitionsBudget.replace,hprev,hf]
    exact ⟨_,rfl⟩
  have hinv := hreplace
  rw [h] at hinv
  obtain ⟨hfits,hb⟩ := ChannelDefinitionsBudget.replace_inv hinv
  refine ⟨fits,⟨if fits then s.definitions.insert id next else s.definitions,b⟩,?_,hb,rfl,?_⟩
  · rw [BudgetedSet.replace,hreplace]
    rfl
  rw [totalsOf_pure,totalsOf_pure] at hfits
  rw [← Bool.not_eq_true,hfits,not_not]

lemma Exact.replaceAll (h : s.Exact facts) (changes : List DefinitionEntry) :
    ∃ s', s.replaceAll facts changes = .ok s' ∧ s'.Exact facts := by
  induction changes generalizing s with
  | nil => exact ⟨s,rfl,h⟩
  | cons change changes ih =>
    obtain ⟨fits,s₁,hstep,hexact,_⟩ := h.replace change.1 change.2
    obtain ⟨s',hrest,hexact'⟩ := ih hexact
    refine ⟨s',?_,hexact'⟩
    rw [BudgetedSet.replaceAll,foldlM_cons,hstep]
    exact hrest

lemma exists_new (facts : PureFacts) (defs : ChannelDefinitions) :
    ∃ b, ChannelDefinitionsBudget.new facts.factsOf defs = .ok b ∧ (BudgetedSet.mk defs b).Exact facts := by
  obtain ⟨channels,hchannels⟩ : ∃ channels, allFacts facts.factsOf defs = .ok channels := by
    apply mapM_returns
    intro e _
    unfold liveFacts
    split_ifs
    · exact ⟨_,rfl⟩
    · exact ⟨_,rfl⟩
  have hnew : ChannelDefinitionsBudget.new facts.factsOf defs = .ok (.measure (channels.map Prod.snd)) := by
    rw [ChannelDefinitionsBudget.new,hchannels]
    rfl
  exact ⟨_,hnew,ChannelDefinitionsBudget.new_eq hnew⟩

end BudgetedSet

/-- Through any sequence of changes: the totals are those of the current set, a budget built from
scratch is the same, and a change is refused, and changes nothing, exactly when it brings a
recomputed total past its limit and past its value before. -/
theorem budget_bookkeeping (facts : PureFacts) (defs : ChannelDefinitions)
    (changes : List DefinitionEntry) :
    ∃ b s, ChannelDefinitionsBudget.new facts.factsOf defs = .ok b ∧
      BudgetedSet.replaceAll facts ⟨defs,b⟩ changes = .ok s ∧
      s.budget.totals = recomputedTotals facts s.definitions ∧
      (∀ order : List DefinitionEntry, order.Perm s.definitions.entries →
        ChannelDefinitionsBudget.measure (order.map (fun e => (e.2,factsAt facts.factsOf e))) = s.budget) ∧
      ∀ id next, ∃ fits s', s.replace facts id next = .ok (fits,s') ∧
        s'.budget.totals = recomputedTotals facts s'.definitions ∧
        s'.definitions = (if fits then s.definitions.insert id next else s.definitions) ∧
        (fits = false → s'.budget = s.budget) ∧
        (fits = false ↔
          (recomputedTotals facts (s.definitions.insert id next)).grows (recomputedTotals facts s.definitions) = true) := by
  obtain ⟨b,hnew,hexact⟩ := BudgetedSet.exists_new facts defs
  obtain ⟨s,hrun,hs⟩ := hexact.replaceAll changes
  refine ⟨b,s,hnew,hrun,hs.totals,fun order hperm => hs.measure_eq hperm,?_⟩
  intro id next
  obtain ⟨fits,s',hstep,hs',hdefs,hrefused⟩ := hs.replace id next
  refine ⟨fits,s',hstep,hs'.totals,hdefs,?_,hrefused⟩
  intro hfits
  rw [hs',hs,hdefs,hfits]
  rfl

end DataStreams
