import DataStreams.Protocol.Baseline
import DataStreams.Protocol.Measure

/-! While votes are applied, no total of the set grows past its limit. -/
namespace DataStreams
open List Go SortedMap

def liveStreamIDs (defs : ChannelDefinitions) : List StreamID :=
  defs.entries.flatMap (fun e => e.2.liveStreamIDs)

lemma growsPast_eq_true {before after limit : ℤ} :
    growsPast before after limit = true ↔ limit < after ∧ before < after := by
  simp [growsPast]

def factsAt (factsOf : FactsOf) (e : DefinitionEntry) : ChannelFacts :=
  ((liveFacts factsOf e.1 e.2).toOption).getD .zero

def costs (factsOf : FactsOf) (defs : ChannelDefinitions) : List (ChannelDefinition × ChannelFacts) :=
  defs.entries.map (fun e => (e.2,factsAt factsOf e))

def totalsOf (factsOf : FactsOf) (defs : ChannelDefinitions) : BudgetTotals :=
  (ChannelDefinitionsBudget.measured (costs factsOf defs)).totals

lemma factsAt_of_ok {factsOf : FactsOf} {e : DefinitionEntry} {f : ChannelFacts}
    (h : liveFacts factsOf e.1 e.2 = .ok f) : factsAt factsOf e = f := by
  rw [factsAt,h]
  rfl

variable (factsOf : FactsOf) (defs : ChannelDefinitions)
lemma costs_perm_erase (id : ChannelID) : (costs factsOf defs).Perm
      (((defs.get? id).map (fun cd => (cd,factsAt factsOf (id,cd)))).toList ++ costs factsOf (defs.erase id)) := by
  have hperm := (defs.entries_perm_erase id).map (fun e => (e.2,factsAt factsOf e))
  rw [map_append] at hperm
  refine hperm.trans (.of_eq ?_)
  congr 1
  cases h : defs.get? id <;> simp [SortedMap.entryAt,h]

lemma costs_insert_perm (id : ChannelID) (cd : ChannelDefinition) :
    (costs factsOf (defs.insert id cd)).Perm ((cd,factsAt factsOf (id,cd)) :: costs factsOf (defs.erase id)) :=
  (defs.insert_perm_erase id cd).map (fun e : DefinitionEntry => (e.2,factsAt factsOf e))

lemma totalsOf_streamIDs : (totalsOf factsOf defs).streamIDs = (liveStreamIDs defs).dedup.length := by
  have hids : (costs factsOf defs).flatMap (fun c => c.1.liveStreamIDs) = liveStreamIDs defs := by
    rw [costs,flatMap_map]
    rfl
  simp only [totalsOf,ChannelDefinitionsBudget.totals,ChannelDefinitionsBudget.measured,hids]
  rfl

namespace ChannelDefinitionsBudget
variable {factsOf : FactsOf} {defs : ChannelDefinitions} {b : ChannelDefinitionsBudget}
lemma new_eq (h : new factsOf defs = .ok b) : b = measured (costs factsOf defs) := by
  obtain ⟨channels,hfacts,h⟩ := bind_ok_iff.1 h
  cases Except.ok.inj h
  have hmap : channels.map Prod.snd = costs factsOf defs := by
    refine map_mapM_ok ?_ hfacts
    intro e c hc
    obtain ⟨f,hf,hc⟩ := bind_ok_iff.1 hc
    cases Except.ok.inj hc
    rw [factsAt_of_ok hf]
  rw [measure_eq,hmap]

/-- The budget measures the definitions it would have after the replacement. -/
lemma replace_inv {id : ChannelID} {cd : ChannelDefinition}
    {fits : Bool}
    (h : (measured (costs factsOf defs)).replace factsOf id (defs.get? id) cd = .ok (fits,b)) :
    (fits = true ↔ ¬ (totalsOf factsOf (defs.insert id cd)).grows (totalsOf factsOf defs)) ∧
      b = measured (costs factsOf (if fits then defs.insert id cd else defs)) := by
  obtain ⟨prev,hprev,h⟩ := bind_ok_iff.1 h
  obtain ⟨f,hf,h⟩ := bind_ok_iff.1 h
  have hprev' : prev = (defs.get? id).map (fun cd => (cd,factsAt factsOf (id,cd))) := by
    cases hget : defs.get? id with
    | none =>
      rw [hget] at hprev
      cases Except.ok.inj hprev
      rfl
    | some cd' =>
      rw [hget] at hprev
      obtain ⟨f',hf',hprev⟩ := bind_ok_iff.1 hprev
      cases Except.ok.inj hprev
      rw [Option.map_some,factsAt_of_ok (e := (id,cd')) hf']
  have hbefore := measured_perm (costs_perm_erase factsOf defs id)
  have hafter := measured_perm (costs_insert_perm factsOf defs id cd)
  rw [factsAt_of_ok (e := (id,cd)) hf] at hafter
  have hresult := Except.ok.inj h
  rw [hbefore,hprev',replaceFacts_measured,← hafter,← hbefore] at hresult
  rw [totalsOf,totalsOf]
  split_ifs at hresult with hgrows
  · cases hresult
    exact ⟨iff_of_false nofun (not_not.2 hgrows),rfl⟩
  · cases hresult
    exact ⟨iff_of_true rfl hgrows,rfl⟩

end ChannelDefinitionsBudget

/-- A relation between the limit of a total and its values before and after, for every
total. -/
def BudgetTotals.All (R : ℤ → ℤ → ℤ → Prop) (before after : BudgetTotals) : Prop :=
  R maxTotalStreamEntries before.streamEntries after.streamEntries ∧
  R maxTotalOptsBytes before.optsBytes after.optsBytes ∧
  R maxPersistedAggregates before.aggregatedPairs after.aggregatedPairs ∧
  R maxTotalCalculatedStreams before.calculatedStreams after.calculatedStreams ∧
  R maxTotalTWAPCalls before.twapCalls after.twapCalls ∧
  R maxObservationStreamValuesLength before.streamIDs after.streamIDs ∧ R 0 before.clashes after.clashes

/-- No total is past both its limit and its value before. -/
def BudgetTotals.Bounded (before after : BudgetTotals) : Prop :=
  BudgetTotals.All (fun limit before after => after ≤ max limit before) before after

variable {a b c : BudgetTotals}
lemma BudgetTotals.All.comp {R S T : ℤ → ℤ → ℤ → Prop} (hab : BudgetTotals.All R a b)
    (hbc : BudgetTotals.All S b c) (h : ∀ limit x y z, R limit x y → S limit y z → T limit x z) :
    BudgetTotals.All T a c := by
  obtain ⟨h₁,h₂,h₃,h₄,h₅,h₆,h₇⟩ := hab
  obtain ⟨g₁,g₂,g₃,g₄,g₅,g₆,g₇⟩ := hbc
  exact ⟨h _ _ _ _ h₁ g₁,h _ _ _ _ h₂ g₂,h _ _ _ _ h₃ g₃,h _ _ _ _ h₄ g₄,h _ _ _ _ h₅ g₅,h _ _ _ _ h₆ g₆,
    h _ _ _ _ h₇ g₇⟩

lemma BudgetTotals.Bounded.refl (a : BudgetTotals) : BudgetTotals.Bounded a a := by
  simp [BudgetTotals.Bounded,BudgetTotals.All]

lemma BudgetTotals.Bounded.trans (hab : BudgetTotals.Bounded a b)
    (hbc : BudgetTotals.Bounded b c) : BudgetTotals.Bounded a c := by
  refine hab.comp hbc ?_
  intro limit x y z hxy hyz
  exact hyz.trans (max_le (le_max_left _ _) hxy)

lemma BudgetTotals.bounded_of_not_grows {before after : BudgetTotals} (h : ¬ after.grows before) :
    BudgetTotals.Bounded before after := by
  have hone : ∀ {before after limit : ℤ}, growsPast before after limit = false → after ≤ max limit before := by
    intro before after limit h
    have hgrows : ¬ (limit < after ∧ before < after) := fun hlt => by simp [growsPast_eq_true.2 hlt] at h
    omega
  simp only [BudgetTotals.grows,Bool.not_eq_true,Bool.or_eq_false_iff] at h
  obtain ⟨⟨⟨⟨⟨⟨h₁,h₂⟩,h₃⟩,h₄⟩,h₅⟩,h₆⟩,h₇⟩ := h
  exact ⟨hone h₁,hone h₂,hone h₃,hone h₄,hone h₅,hone h₆,hone h₇⟩

lemma totals_measured_of_sublist {l m : List (ChannelDefinition × ChannelFacts)} (h : l.Sublist m) :
    BudgetTotals.Bounded (ChannelDefinitionsBudget.measured m).totals (ChannelDefinitionsBudget.measured l).totals := by
  have hsum : ∀ g : ChannelDefinition × ChannelFacts → ℕ,
      (l.map (fun c => (g c : ℤ))).sum ≤ (m.map (fun c => (g c : ℤ))).sum := by
    intro g
    induction h with
    | slnil => exact le_rfl
    | cons c _ ih =>
      rw [map_cons,sum_cons]
      omega
    | cons_cons c _ ih =>
      simp only [map_cons,sum_cons]
      omega
  have hflat : ∀ {K : Type} (g : ChannelDefinition × ChannelFacts → List K),
      ((l.flatMap g : List K) : Multiset K) ≤ (m.flatMap g : List K) :=
    fun g => Multiset.coe_le.2 (h.flatMap g).subperm
  have hcard : ∀ {K : Type} [DecidableEq K] {s t : Multiset K}, s ≤ t → (s.dedup.card : ℤ) ≤ t.dedup.card := by
    intro K _ s t hst
    have hsub : s.dedup ≤ t.dedup :=
      Multiset.le_dedup.2 ⟨(Multiset.dedup_le s).trans hst,Multiset.nodup_dedup s⟩
    exact_mod_cast Multiset.card_le_card hsub
  exact ⟨le_max_of_le_right (hsum _),le_max_of_le_right (hsum _),le_max_of_le_right (hcard (hflat _)),
    le_max_of_le_right (hsum _),le_max_of_le_right (hsum _),le_max_of_le_right (hcard (hflat _)),
    le_max_of_le_right (excessTotal_mono (hflat _) (hflat _))⟩

lemma totalsOf_filter (factsOf : FactsOf) (defs : ChannelDefinitions) (p : ChannelID → ChannelDefinition → Bool) :
    BudgetTotals.Bounded (totalsOf factsOf defs) (totalsOf factsOf (defs.filter p)) := by
  refine totals_measured_of_sublist ?_
  rw [costs,costs,entries_filter]
  exact filter_sublist.map _

structure WithinBudget (defs : ChannelDefinitions) : Prop where
  channels : defs.size ≤ maxOutcomeChannelDefinitionsLength
  streamIDs : (liveStreamIDs defs).dedup.length ≤ maxObservationStreamValuesLength

lemma length_dedup_le_of_subset {l m : List StreamID} (h : l ⊆ m) : l.dedup.length ≤ m.dedup.length := by
  refine (subperm_of_subset (nodup_dedup l) ?_).length_le
  intro a ha
  exact mem_dedup.2 (h (mem_dedup.1 ha))

variable {defs : ChannelDefinitions}
/-- Verification counts no stream ID that the budget does not. -/
lemma WithinBudget.withinLimits (h : WithinBudget defs) : WithinLimits defs where
  channels := h.channels
  streamIDs := by
    refine (length_dedup_le_of_subset ?_).trans h.streamIDs
    intro sid hsid
    simp only [countedStreamIDs,mem_flatMap] at hsid
    obtain ⟨e,he,hsid⟩ := hsid
    refine mem_flatMap.2 ⟨e,he,?_⟩
    split_ifs at hsid with hlive
    · simp only [Bool.and_eq_true,Bool.not_eq_true'] at hlive
      obtain ⟨s,hs,rfl⟩ := mem_map.1 hsid
      rw [ChannelDefinition.liveStreamIDs,if_neg (by simp [hlive.1])]
      exact mem_map_of_mem (mem_of_mem_filter hs)
    · simp at hsid

lemma WithinBudget.filter (h : WithinBudget defs)
    (p : ChannelID → ChannelDefinition → Bool) : WithinBudget (defs.filter p) where
  channels := (defs.size_filter_le p).trans h.channels
  streamIDs := by
    refine (length_dedup_le_of_subset ?_).trans h.streamIDs
    intro sid hsid
    obtain ⟨e,he,hsid⟩ := mem_flatMap.1 hsid
    refine mem_flatMap.2 ⟨e,?_,hsid⟩
    rw [← get?_eq_some_iff,get?_filter,Option.filter_eq_some_iff] at he
    exact get?_eq_some_iff.1 he.1

end DataStreams
