import DataStreams.Foundation.Tally
import DataStreams.Protocol.WireFields
import DataStreams.V31.Coverage
import DataStreams.V31.LocalCodecs
import Mathlib.Data.Prod.Lex

/-! Definitions are adopted by votes under a hash of their content, within the budgets, in any
order (v31). -/
namespace DataStreams.V31
open List Function SortedMap ChannelDefinitionsBudget
variable {M : Type} {cfg : Config} {L : Libs} {obs : List Attributed}

def updateBallot : Ballot DefinitionEntry UpdateVote where
  make e n := ⟨e.1,e.2,n⟩
  item := entryOf
  votes := UpdateVote.votes
  item_make _ _ := rfl
  votes_make _ _ := rfl
  make_item_votes _ := rfl

def predecessorBallot : Ballot PredecessorConfig PredecessorVote where
  make := PredecessorVote.mk
  item := PredecessorVote.config
  votes := PredecessorVote.votes
  item_make _ _ := rfl
  votes_make _ _ := rfl
  make_item_votes _ := rfl

def updatesOf (obs : List Attributed) : List DefinitionEntry :=
  obs.flatMap (fun ao => ao.2.updateChannelDefinitions.entries)

def removalsOf (obs : List Attributed) : List ChannelID := obs.flatMap (fun ao => ao.2.removeChannelIDs.keys)

def predecessorsOf (cfg : Config) (obs : List Attributed) : List PredecessorConfig :=
  if cfg.predecessorConfigDigest.isNone then []
  else obs.filterMap (fun ao =>
    if ao.2.predecessorSigners ≠ [] then some ⟨ao.2.predecessorSigners,ao.2.predecessorF⟩ else none)

def attestedOf (cfg : Config) (obs : List Attributed) : List Bytes :=
  if cfg.predecessorConfigDigest.isNone then []
  else (obs.map (fun ao => ao.2.attestedPredecessorRetirement)).filter (fun b => b ≠ [])

lemma countPredecessor_eq (cfg : Config) (L : Libs) (o : Observation) (t : ObservationTally) (observer : OracleID) :
    t.countPredecessor cfg L o =
      { t with
        attestedRetirements := t.attestedRetirements ++ attestedOf cfg [(observer,o)]
        predecessorVotes := (predecessorsOf cfg [(observer,o)]).foldl
          (predecessorBallot.count (hashPredecessorConfig L)) t.predecessorVotes } := by
  unfold ObservationTally.countPredecessor attestedOf predecessorsOf
  by_cases hcfg : cfg.predecessorConfigDigest.isNone
  · simp [hcfg]
  · by_cases ha : o.attestedPredecessorRetirement = [] <;> by_cases hs : o.predecessorSigners = [] <;>
      simp [hcfg,ha,hs,Ballot.count,predecessorBallot]

/-- The votes of a tally, as the sequence of votes they count. -/
lemma ofObservations_eq (cfg : Config) (L : Libs) (obs : List Attributed) :
    let t := ObservationTally.ofObservations cfg L obs
    t.updateVotes = (updatesOf obs).foldl (updateBallot.count (fun e => makeChannelHash L e.1 e.2)) ∅ ∧
      t.removeChannelVotesByID = (removalsOf obs).foldl countRemoval ∅ ∧
      t.predecessorVotes = (predecessorsOf cfg obs).foldl (predecessorBallot.count (hashPredecessorConfig L)) ∅ ∧
      t.attestedRetirements = attestedOf cfg obs ∧ t.shouldRetireVotes = obs.countP (fun ao => ao.2.shouldRetire) := by
  have hpredecessors : ∀ (obs : List Attributed) (ao : Attributed),
      predecessorsOf cfg (obs ++ [ao]) = predecessorsOf cfg obs ++ predecessorsOf cfg [ao] := by
    intro obs ao
    unfold predecessorsOf
    split_ifs <;> simp
  have hattested : ∀ (obs : List Attributed) (ao : Attributed),
      attestedOf cfg (obs ++ [ao]) = attestedOf cfg obs ++ attestedOf cfg [ao] := by
    intro obs ao
    unfold attestedOf
    split_ifs <;> simp
  induction obs using List.reverseRecOn with
  | nil => simp [ObservationTally.ofObservations,ObservationTally.empty,updatesOf,removalsOf,predecessorsOf,attestedOf]
  | append_singleton obs ao ih =>
    obtain ⟨hu,hr,hp,ha,hs⟩ := ih
    have hstep : ObservationTally.ofObservations cfg L (obs ++ [ao]) =
        (ObservationTally.ofObservations cfg L obs).count cfg L ao := by
      rw [ObservationTally.ofObservations,foldl_append]
      rfl
    simp only [hstep,ObservationTally.count,countPredecessor_eq cfg L ao.2 _ ao.1,hu,hr,hp,ha,hs,hpredecessors,hattested]
    simp only [updatesOf,removalsOf,flatMap_append,foldl_append,flatMap_singleton,countP_append,
      countP_singleton,Prod.mk.eta]
    exact ⟨rfl,trivial,trivial,trivial,trivial⟩

structure VotesOnWire (o : Observation) : Prop where
  updates : ∀ e ∈ o.updateChannelDefinitions.entries, e.1 < 2 ^ 32 ∧ e.2.OnWire
  predecessorF : o.predecessorF < 2 ^ 64
  signers : ∀ s ∈ o.predecessorSigners, s.length < 2 ^ 64

/-- The same for the votes to update channels alone. -/
def UpdatesOnWire (o : Observation) : Prop := ∀ e ∈ o.updateChannelDefinitions.entries, e.1 < 2 ^ 32 ∧ e.2.OnWire

lemma VotesOnWire.updatesOnWire {o : Observation} (h : VotesOnWire o) : UpdatesOnWire o := h.updates

lemma updateHash_inj (hsha : Injective L.sha256) (hwire : ∀ ao ∈ obs, UpdatesOnWire ao.2) :
    ∀ a ∈ updatesOf obs, ∀ b ∈ updatesOf obs, makeChannelHash L a.1 a.2 = makeChannelHash L b.1 b.2 → a = b := by
  intro a ha b hb h
  obtain ⟨ao,hao,ha⟩ := mem_flatMap.1 ha
  obtain ⟨bo,hbo,hb⟩ := mem_flatMap.1 hb
  obtain ⟨hida,hcda⟩ := hwire ao hao a ha
  obtain ⟨hidb,hcdb⟩ := hwire bo hbo b hb
  obtain ⟨hid,hcd⟩ := marshalChannelIDAndDefinition_inj hida hidb hcda hcdb (hsha h)
  exact Prod.ext hid hcd

lemma beU64_append_inj {a b : ℕ} (ha : a < 2 ^ 64) (hb : b < 2 ^ 64) {r s : Bytes}
    (h : beU64 a ++ r = beU64 b ++ s) : a = b ∧ r = s := by
  obtain ⟨hnum,hrest⟩ := append_inj h rfl
  exact ⟨beU64_inj ha hb hnum,hrest⟩

/-- The numbers of an observation's vote for a signer set fit the fields that are hashed. -/
structure PredecessorOnWire (o : Observation) : Prop where
  predecessorF : o.predecessorF < 2 ^ 64
  signers : ∀ s ∈ o.predecessorSigners, s.length < 2 ^ 64

lemma VotesOnWire.predecessorOnWire {o : Observation} (h : VotesOnWire o) : PredecessorOnWire o :=
  ⟨h.predecessorF,h.signers⟩

/-- On the wire's domain the hash determines the predecessor's configuration. -/
lemma predecessorHash_inj (hsha : Injective L.sha256) (hwire : ∀ ao ∈ obs, PredecessorOnWire ao.2) :
    ∀ p ∈ predecessorsOf cfg obs, ∀ q ∈ predecessorsOf cfg obs,
      hashPredecessorConfig L p = hashPredecessorConfig L q → p = q := by
  have hrange : ∀ p ∈ predecessorsOf cfg obs, p.f < 2 ^ 64 ∧ ∀ s ∈ p.signers, s.length < 2 ^ 64 := by
    intro p hp
    unfold predecessorsOf at hp
    split_ifs at hp
    · simp at hp
    · obtain ⟨ao,hao,hp⟩ := mem_filterMap.1 hp
      split_ifs at hp
      cases Option.some.inj hp
      exact ⟨(hwire ao hao).predecessorF,(hwire ao hao).signers⟩
  intro p hp q hq h
  obtain ⟨hf,hsigners⟩ := beU64_append_inj (hrange p hp).1 (hrange q hq).1 (hsha h)
  have hsigners : p.signers = q.signers := by
    refine eq_of_flatMap_eq (P := fun s : Bytes => s.length < 2 ^ 64) ?_ ?_ (hrange p hp).2 (hrange q hq).2 hsigners
    · intro s _ hnil
      cases (append_eq_nil_iff.1 hnil).1
    · intro a b r s ha hb hab
      rw [append_assoc,append_assoc] at hab
      obtain ⟨hlen,hab⟩ := beU64_append_inj ha hb hab
      exact append_inj hab hlen
  cases p
  cases q
  simp_all

lemma get?_foldl_countRemoval (l : List ChannelID) (id : ChannelID) :
    (l.foldl countRemoval ∅).get? id = if l.count id = 0 then none else some (l.count id) := by
  induction l using List.reverseRecOn generalizing id with
  | nil => simp
  | append_singleton l a ih =>
    rw [foldl_append,foldl_cons,foldl_nil,countRemoval,get?_insert,count_append,count_singleton]
    by_cases hid : id = a
    · subst hid
      rw [if_pos rfl,ih]
      by_cases hzero : l.count id = 0 <;> simp [hzero]
    · have hne : (a == id) = false := beq_eq_false_iff_ne.2 (Ne.symm hid)
      rw [if_neg hid,ih,hne]
      simp

lemma foldl_countRemoval_perm {l m : List ChannelID} (h : l.Perm m) : l.foldl countRemoval ∅ = m.foldl countRemoval ∅ := by
  ext id
  rw [get?_foldl_countRemoval,get?_foldl_countRemoval,h.count_eq]

lemma retirementAgrees_iff {a b : RetirementReport} :
    retirementAgrees a b = true ↔
      (a.protocolVersion,a.validAfterNanoseconds.getD ∅) = (b.protocolVersion,b.validAfterNanoseconds.getD ∅) := by
  simp [retirementAgrees]

/-- A retirement report is chosen exactly when all accepted ones agree. -/
lemma chooseRetirement_isSome_iff {l : List RetirementReport} :
    (chooseRetirement l).isSome ↔ l ≠ [] ∧ ∀ a ∈ l, ∀ b ∈ l, retirementAgrees a b = true := by
  cases l with
  | nil => simp [chooseRetirement]
  | cons r rest =>
    have hall : (chooseRetirement (r :: rest)).isSome ↔ ∀ a ∈ rest, retirementAgrees r a = true := by
      rw [chooseRetirement]
      split_ifs with h
      · simpa using h
      · simpa using h
    rw [hall,and_iff_right (cons_ne_nil _ _)]
    constructor
    · intro h
      have hr : ∀ a ∈ r :: rest, retirementAgrees r a = true := by
        intro a ha
        rcases mem_cons.1 ha with rfl | ha
        · exact retirementAgrees_iff.2 rfl
        · exact h a ha
      intro a ha b hb
      exact retirementAgrees_iff.2
        ((retirementAgrees_iff.1 (hr a ha)).symm.trans (retirementAgrees_iff.1 (hr b hb)))
    · exact fun h a ha => h r (by simp) a (by simp [ha])

lemma nextStage_congr {stage : LifeCycleStage} {r r' : Option RetirementReport} (h : r.isSome = r'.isSome)
    (votes f : ℕ) : nextStage stage r votes f = nextStage stage r' votes f := by
  cases r <;> cases r' <;> first | rfl | cases h

/-- The reports of a round that verify against the signer set it elects, in their order. -/
def acceptedRetirements (cfg : Config) (verify : RetirementVerifier) (digest : ConfigDigest) (t : ObservationTally) :
    List RetirementReport :=
  match electPredecessorConfig t.predecessorVotes cfg.f with
  | none => []
  | some agreed => t.attestedRetirements.eraseDups.filterMap (acceptRetirement cfg verify digest agreed)

lemma resolvePredecessorRetirement_eq {stage : LifeCycleStage} {t : ObservationTally}
    {verify : RetirementVerifier} {digest : ConfigDigest} (hdigest : cfg.predecessorConfigDigest = some digest)
    (hstage : stage = .staging) :
    resolvePredecessorRetirement cfg verify stage t = chooseRetirement (acceptedRetirements cfg verify digest t) := by
  rw [resolvePredecessorRetirement,hdigest,acceptedRetirements]
  dsimp only
  rw [if_neg (not_not.2 hstage)]
  cases electPredecessorConfig t.predecessorVotes cfg.f <;> rfl

lemma attestedOf_mem_iff {obs' : List Attributed} (h : obs.Perm obs') (b : Bytes) :
    b ∈ attestedOf cfg obs ↔ b ∈ attestedOf cfg obs' := by
  unfold attestedOf
  split_ifs
  · rfl
  · exact ((h.map _).filter _).mem_iff

lemma predecessorVotes_of_perm {obs' : List Attributed} (hsha : Injective L.sha256)
    (hwire : ∀ ao ∈ obs, PredecessorOnWire ao.2) (h : obs.Perm obs') :
    (ObservationTally.ofObservations cfg L obs).predecessorVotes =
      (ObservationTally.ofObservations cfg L obs').predecessorVotes := by
  have hpredecessors : (predecessorsOf cfg obs).Perm (predecessorsOf cfg obs') := by
    unfold predecessorsOf
    split_ifs
    · exact .refl _
    · exact h.filterMap _
  rw [(ofObservations_eq cfg L obs).2.2.1,(ofObservations_eq cfg L obs').2.2.1]
  exact Ballot.foldl_count_perm _ _ hpredecessors (predecessorHash_inj hsha hwire)

lemma acceptedRetirements_mem_iff {obs' : List Attributed} (hsha : Injective L.sha256)
    (hwire : ∀ ao ∈ obs, PredecessorOnWire ao.2) (h : obs.Perm obs') (verify : RetirementVerifier)
    (digest : ConfigDigest) (r : RetirementReport) :
    r ∈ acceptedRetirements cfg verify digest (.ofObservations cfg L obs) ↔
      r ∈ acceptedRetirements cfg verify digest (.ofObservations cfg L obs') := by
  unfold acceptedRetirements
  rw [predecessorVotes_of_perm hsha hwire h]
  split
  · rfl
  · simp only [(ofObservations_eq cfg L obs).2.2.2.1,(ofObservations_eq cfg L obs').2.2.2.1,mem_filterMap,
      mem_eraseDups,attestedOf_mem_iff h]

/-- The stage does not depend on the order of the observations. -/
lemma nextStage_of_perm {obs' : List Attributed} (hsha : Injective L.sha256)
    (hwire : ∀ ao ∈ obs, PredecessorOnWire ao.2) (h : obs.Perm obs') (verify : RetirementVerifier)
    (stage : LifeCycleStage) :
    nextStage stage (resolvePredecessorRetirement cfg verify stage (.ofObservations cfg L obs))
        (ObservationTally.ofObservations cfg L obs).shouldRetireVotes cfg.f =
      nextStage stage (resolvePredecessorRetirement cfg verify stage (.ofObservations cfg L obs'))
        (ObservationTally.ofObservations cfg L obs').shouldRetireVotes cfg.f := by
  rw [(ofObservations_eq cfg L obs).2.2.2.2,(ofObservations_eq cfg L obs').2.2.2.2,h.countP_eq]
  apply nextStage_congr
  by_cases hstage : stage = .staging
  · cases hdigest : cfg.predecessorConfigDigest with
    | none => simp [resolvePredecessorRetirement,hdigest]
    | some digest =>
      have hmem := @acceptedRetirements_mem_iff cfg _ _ _ hsha hwire h verify digest
      rw [resolvePredecessorRetirement_eq hdigest hstage,resolvePredecessorRetirement_eq hdigest hstage,
        Bool.eq_iff_iff,chooseRetirement_isSome_iff,chooseRetirement_isSome_iff]
      refine and_congr (not_congr ?_) ?_
      · simp only [eq_nil_iff_forall_not_mem,hmem]
      · simp only [hmem]
  · unfold resolvePredecessorRetirement
    split
    · rfl
    · rw [if_pos hstage,if_pos hstage]

/-- Two tallies hold the same votes on channels and lead to the same stage. -/
structure SameVotes (cfg : Config) (t t' : ObservationTally) : Prop where
  removals : t.removeChannelVotesByID = t'.removeChannelVotesByID
  updates : t.updateVotes = t'.updateVotes
  stage : ∀ (verify : RetirementVerifier) (stage : LifeCycleStage),
    nextStage stage (resolvePredecessorRetirement cfg verify stage t) t.shouldRetireVotes cfg.f =
      nextStage stage (resolvePredecessorRetirement cfg verify stage t') t'.shouldRetireVotes cfg.f

lemma sameVotes_of_perm {obs' : List Attributed} (hsha : Injective L.sha256)
    (hwire : ∀ ao ∈ obs, VotesOnWire ao.2) (h : obs.Perm obs') :
    SameVotes cfg (.ofObservations cfg L obs) (.ofObservations cfg L obs') := by
  obtain ⟨hu,hr,_⟩ := ofObservations_eq cfg L obs
  obtain ⟨hu',hr',_⟩ := ofObservations_eq cfg L obs'
  refine ⟨?_,?_,nextStage_of_perm hsha (fun ao hao => (hwire ao hao).predecessorOnWire) h⟩
  · rw [hr,hr']
    exact foldl_countRemoval_perm (h.flatMap_right _)
  · rw [hu,hu']
    exact Ballot.foldl_count_perm _ _ (h.flatMap_right _) (updateHash_inj hsha fun ao hao => (hwire ao hao).updatesOnWire)

/-- The orders in which one round goes through its observations and maps: the votes as
they are counted, the counted votes as they are applied, and the definitions as they are
measured. -/
structure VoteOrder (L : Libs) (obs : List Attributed) where
  removals : List ChannelID
  removals_perm : removals.Perm (removalsOf obs)
  updates : List DefinitionEntry
  updates_perm : updates.Perm (updatesOf obs)
  removalOrder : List (ChannelID × ℕ)
  removalOrder_perm : removalOrder.Perm (removals.foldl countRemoval ∅).entries
  updateOrder : List (VoteHash × UpdateVote)
  updateOrder_perm : updateOrder.Perm (updates.foldl (countUpdate (makeChannelHash L)) ∅).entries
  definitionOrder : ChannelDefinitions → List DefinitionEntry
  definitionOrder_perm : ∀ defs, (definitionOrder defs).Perm defs.entries

namespace VoteOrder
variable {L : Libs} {obs : List Attributed} (w : VoteOrder L obs)
def kept (defs : ChannelDefinitions) (f : ℕ) : ChannelDefinitions :=
  w.removalOrder.foldl (fun defs e => if e.2 ≤ f then defs else defs.erase e.1) defs

/-- Sorted, past the threshold, and alone there for its channel. -/
def passing (f : ℕ) : List UpdateVote :=
  let ordered := w.updateOrder.insertionSort voteOrder
  let count := fun id => (ordered.filter (fun e => e.2.votes > f ∧ e.2.channelID = id)).length
  (ordered.filter (fun e => e.2.votes > f ∧ count e.2.channelID ≤ 1)).map Prod.snd

/-- `applyChannelVotes` with maps gone through in these orders. -/
def apply (factsOf : FactsOf) (defs : ChannelDefinitions) (f : ℕ) : Go ChannelDefinitions :=
  match w.passing f with
  | [] => .ok (w.kept defs f)
  | updates => do
    let channels ← (w.definitionOrder (w.kept defs f)).mapM (fun e => do
      let facts ← liveFacts factsOf e.1 e.2
      .ok (e.1,e.2,facts))
    let (_,defs) ← updates.foldlM (applyUpdate factsOf)
      (ChannelDefinitionsBudget.measure (channels.map Prod.snd),w.kept defs f)
    .ok defs

end VoteOrder

lemma voteOrder_iff {a b : VoteHash × UpdateVote} :
    voteOrder a b ↔ toLex ((a.2.channelID : ℕ),(a.1 : ℕ)) ≤ toLex ((b.2.channelID : ℕ),(b.1 : ℕ)) := by
  rw [Prod.Lex.le_iff]
  rfl

lemma voteOrder_total (a b : VoteHash × UpdateVote) : voteOrder a b ∨ voteOrder b a := by
  rw [voteOrder_iff,voteOrder_iff]
  exact le_total _ _

lemma voteOrder_trans {a b c : VoteHash × UpdateVote} (hab : voteOrder a b) (hbc : voteOrder b c) : voteOrder a c := by
  rw [voteOrder_iff] at hab hbc ⊢
  exact hab.trans hbc

instance : Std.Total voteOrder := ⟨voteOrder_total⟩

instance : IsTrans (VoteHash × UpdateVote) voteOrder := ⟨fun _ _ _ => voteOrder_trans⟩

lemma insertionSort_voteOrder_eq {m : SortedMap VoteHash UpdateVote} {l : List (VoteHash × UpdateVote)}
    (h : l.Perm m.entries) : l.insertionSort voteOrder = m.entries.insertionSort voteOrder := by
  refine List.Perm.eq_of_pairwise ?_ (pairwise_insertionSort _ _) (pairwise_insertionSort _ _)
    (((perm_insertionSort _ _).trans h).trans (perm_insertionSort _ _).symm)
  intro a b ha hb hab hba
  have ha : a ∈ m.entries := h.mem_iff.1 ((perm_insertionSort _ _).mem_iff.1 ha)
  have hb : b ∈ m.entries := (perm_insertionSort _ _).mem_iff.1 hb
  have hhash : a.1 = b.1 := congrArg (fun x => (ofLex x).2) (le_antisymm (voteOrder_iff.1 hab) (voteOrder_iff.1 hba))
  have hvote := get?_eq_some_iff.2 hb
  rw [← hhash,get?_eq_some_iff.2 ha] at hvote
  exact Prod.ext hhash (Option.some.inj hvote)

lemma get?_foldl_eraseVoted (f : ℕ) (l : List (ChannelID × ℕ)) (defs : ChannelDefinitions) (id : ChannelID) :
    (l.foldl (fun defs e => if e.2 ≤ f then defs else defs.erase e.1) defs).get? id =
      if ∃ e ∈ l, e.1 = id ∧ f < e.2 then none else defs.get? id := by
  induction l generalizing defs with
  | nil => simp
  | cons e l ih =>
    rw [foldl_cons,ih]
    by_cases hrest : ∃ e ∈ l, e.1 = id ∧ f < e.2
    · rw [if_pos hrest,if_pos]
      obtain ⟨e',he',h⟩ := hrest
      exact ⟨e',mem_cons_of_mem _ he',h⟩
    · rw [if_neg hrest]
      by_cases hvotes : e.2 ≤ f
      · rw [if_pos hvotes,if_neg]
        rintro ⟨e',he',h⟩
        rcases mem_cons.1 he' with rfl | he'
        · omega
        · exact hrest ⟨e',he',h⟩
      · rw [if_neg hvotes,get?_erase]
        by_cases hid : id = e.1
        · rw [if_pos hid,if_pos ⟨e,by simp,hid.symm,by omega⟩]
        · rw [if_neg hid,if_neg]
          rintro ⟨e',he',h⟩
          rcases mem_cons.1 he' with rfl | he'
          · exact hid h.1.symm
          · exact hrest ⟨e',he',h⟩

namespace VoteOrder
variable {L : Libs} {obs : List Attributed} (w : VoteOrder L obs)
lemma kept_eq (defs : ChannelDefinitions) (f : ℕ) :
    w.kept defs f = applyRemovals defs (.ofObservations cfg L obs) f := by
  have hvotes := (ofObservations_eq cfg L obs).2.1
  have hperm := w.removalOrder_perm
  rw [foldl_countRemoval_perm w.removals_perm,← hvotes] at hperm
  ext id
  rw [kept,get?_foldl_eraseVoted,applyRemovals,get?_filter]
  have hex : (∃ e ∈ w.removalOrder, e.1 = id ∧ f < e.2) ↔
      f < ((ObservationTally.ofObservations cfg L obs).removeChannelVotesByID.get? id).getD 0 := by
    simp only [hperm.mem_iff]
    constructor
    · rintro ⟨⟨_,n⟩,he,rfl,hn⟩
      rwa [get?_eq_some_iff.2 he]
    · intro hn
      cases hget : (ObservationTally.ofObservations cfg L obs).removeChannelVotesByID.get? id with
      | none =>
        rw [hget] at hn
        exact absurd hn (Nat.not_lt_zero _)
      | some n =>
        rw [hget] at hn
        exact ⟨(id,n),get?_eq_some_iff.1 hget,rfl,hn⟩
  by_cases hn : f < ((ObservationTally.ofObservations cfg L obs).removeChannelVotesByID.get? id).getD 0
  · rw [if_pos (hex.2 hn)]
    cases defs.get? id <;> simp [hn]
  · rw [if_neg (mt hex.1 hn)]
    cases defs.get? id <;> simp [Nat.le_of_not_lt hn]

/-- In any order of counting, the same updates pass the threshold. -/
lemma passing_eq (hsha : Injective L.sha256) (hwire : ∀ ao ∈ obs, VotesOnWire ao.2) (f : ℕ) :
    w.passing f = passingUpdates (.ofObservations cfg L obs) f := by
  have hvotes := (ofObservations_eq cfg L obs).1
  have hmap : w.updates.foldl (countUpdate (makeChannelHash L)) ∅ = (ObservationTally.ofObservations cfg L obs).updateVotes := by
    rw [hvotes]
    refine Ballot.foldl_count_perm updateBallot (fun e => makeChannelHash L e.1 e.2) w.updates_perm ?_
    intro a ha b hb
    exact updateHash_inj hsha (fun ao hao => (hwire ao hao).updatesOnWire) a (w.updates_perm.mem_iff.1 ha) b
      (w.updates_perm.mem_iff.1 hb)
  have hsort := insertionSort_voteOrder_eq w.updateOrder_perm
  rw [hmap] at hsort
  unfold passing passingUpdates updatesPast
  rw [hsort]
  generalize (ObservationTally.ofObservations cfg L obs).updateVotes.entries.insertionSort voteOrder = ordered
  simp only [filter_map,filter_filter,length_map,comp_def]
  congr 1
  refine filter_congr fun e _ => ?_
  have hcount : (fun a : VoteHash × UpdateVote => decide (a.2.votes > f ∧ a.2.channelID = e.2.channelID)) =
      fun a => decide (a.2.channelID = e.2.channelID) && decide (a.2.votes > f) := by
    funext a
    rw [Bool.decide_and,Bool.and_comm]
  rw [Bool.eq_iff_iff]
  simp only [decide_eq_true_eq,Bool.and_eq_true,hcount]
  exact and_comm

/-- Whatever the orders, the votes lead to the same definitions. -/
lemma apply_ok_iff (hsha : Injective L.sha256) (hwire : ∀ ao ∈ obs, VotesOnWire ao.2) {factsOf : FactsOf}
    {defs defs' : ChannelDefinitions} {f : ℕ} :
    w.apply factsOf defs f = .ok defs' ↔
      applyChannelVotes factsOf defs (.ofObservations cfg L obs) f = .ok defs' := by
  unfold apply applyChannelVotes
  rw [w.passing_eq hsha hwire f,w.kept_eq defs f]
  generalize applyRemovals defs (.ofObservations cfg L obs) f = kept
  cases passingUpdates (ObservationTally.ofObservations cfg L obs) f with
  | nil => rfl
  | cons v updates =>
    dsimp only
    have hmeasure : ∀ {c c' : List (ChannelID × ChannelDefinition × ChannelFacts)}, c.Perm c' →
        ChannelDefinitionsBudget.measure (c.map Prod.snd) = ChannelDefinitionsBudget.measure (c'.map Prod.snd) := by
      intro c c' hperm
      rw [measure_eq,measure_eq]
      exact measured_perm (hperm.map _)
    simp only [ChannelDefinitionsBudget.new,allFacts,Go.bind_ok_iff,Except.ok.injEq]
    constructor
    · rintro ⟨channels,hchannels,hrest⟩
      obtain ⟨channels',hchannels',hperm⟩ := Go.mapM_perm (w.definitionOrder_perm kept) hchannels
      rw [hmeasure hperm] at hrest
      exact ⟨_,⟨channels',hchannels',rfl⟩,hrest⟩
    · rintro ⟨_,⟨channels,hchannels,rfl⟩,hrest⟩
      obtain ⟨channels',hchannels',hperm⟩ := Go.mapM_perm (w.definitionOrder_perm kept).symm hchannels
      rw [hmeasure hperm] at hrest
      exact ⟨channels',hchannels',hrest⟩

end VoteOrder

def votesFor (obs : List Attributed) (id : ChannelID) (cd : ChannelDefinition) : ℕ :=
  obs.countP (fun ao => ao.2.updateChannelDefinitions.get? id = some cd)

def votesToRemove (obs : List Attributed) (id : ChannelID) : ℕ :=
  obs.countP (fun ao => ao.2.removeChannelIDs.contains id)

lemma count_updatesOf (obs : List Attributed) (id : ChannelID) (cd : ChannelDefinition) :
    (updatesOf obs).count (id,cd) = votesFor obs id cd := by
  induction obs with
  | nil => rfl
  | cons ao obs ih =>
    have hone : ao.2.updateChannelDefinitions.entries.count (id,cd) =
        if ao.2.updateChannelDefinitions.get? id = some cd then 1 else 0 := by
      rw [(entries_nodup _).count]
      simp only [get?_eq_some_iff]
    rw [updatesOf,flatMap_cons,count_append,hone,votesFor,countP_cons]
    have hrest : (obs.flatMap (fun ao => ao.2.updateChannelDefinitions.entries)).count (id,cd) =
        obs.countP (fun ao => ao.2.updateChannelDefinitions.get? id = some cd) := ih
    rw [hrest,Nat.add_comm]
    simp only [decide_eq_true_eq]

lemma count_removalsOf (obs : List Attributed) (id : ChannelID) : (removalsOf obs).count id = votesToRemove obs id := by
  induction obs with
  | nil => rfl
  | cons ao obs ih =>
    have hone : ao.2.removeChannelIDs.keys.count id = if ao.2.removeChannelIDs.contains id then 1 else 0 := by
      rw [(keys_nodup _).count]
      exact if_congr SortedMap.mem_keys rfl rfl
    have hrest : (obs.flatMap (fun ao => ao.2.removeChannelIDs.keys)).count id =
        obs.countP (fun ao => ao.2.removeChannelIDs.contains id) := ih
    rw [removalsOf,flatMap_cons,count_append,hone,hrest,votesToRemove,countP_cons,Nat.add_comm]

lemma removeVotes_getD (id : ChannelID) :
    ((ObservationTally.ofObservations cfg L obs).removeChannelVotesByID.get? id).getD 0 = votesToRemove obs id := by
  rw [(ofObservations_eq cfg L obs).2.1,get?_foldl_countRemoval,count_removalsOf]
  split_ifs with h
  · exact h.symm
  · rfl

lemma get?_applyRemovals {f : ℕ} (defs : ChannelDefinitions) (id : ChannelID) :
    (applyRemovals defs (.ofObservations cfg L obs) f).get? id =
      if f < votesToRemove obs id then none else defs.get? id := by
  rw [applyRemovals,get?_filter,removeVotes_getD]
  split_ifs with hf
  · cases defs.get? id <;> simp [hf]
  · cases defs.get? id <;> simp [Nat.le_of_not_lt hf]

lemma mem_updatesPast_iff {f : ℕ} {v : UpdateVote} (hsha : Injective L.sha256)
    (hwire : ∀ ao ∈ obs, UpdatesOnWire ao.2) :
    v ∈ updatesPast (ObservationTally.ofObservations cfg L obs).updateVotes f ↔
      v.votes = votesFor obs v.channelID v.definition ∧ f < v.votes := by
  have hget := Ballot.get?_foldl_count updateBallot (fun e => makeChannelHash L e.1 e.2) (updatesOf obs)
    (updateHash_inj hsha hwire)
  have hcount : (updatesOf obs).count (updateBallot.item v) = votesFor obs v.channelID v.definition :=
    count_updatesOf obs v.channelID v.definition
  simp only [updatesPast,mem_filter,mem_map,mem_insertionSort,decide_eq_true_eq,(ofObservations_eq cfg L obs).1]
  constructor
  · rintro ⟨⟨⟨k,v⟩,he,rfl⟩,hf⟩
    exact ⟨((hget k v).1 (get?_eq_some_iff.2 he)).2.1.trans hcount,hf⟩
  · rintro ⟨hv,hf⟩
    refine ⟨⟨(_,v),get?_eq_some_iff.1 ((hget _ v).2 ⟨rfl,hv.trans hcount.symm,?_⟩),rfl⟩,hf⟩
    exact Nat.zero_lt_of_lt hf

/-- A passing update has more than f votes, and its channel no other one. -/
lemma votesFor_of_mem_passingUpdates {f : ℕ} {v : UpdateVote} (hsha : Injective L.sha256)
    (hwire : ∀ ao ∈ obs, UpdatesOnWire ao.2) (h : v ∈ passingUpdates (.ofObservations cfg L obs) f) :
    f < votesFor obs v.channelID v.definition ∧ ∀ cd, cd ≠ v.definition → votesFor obs v.channelID cd ≤ f := by
  obtain ⟨hpast,halone⟩ := mem_filter.1 h
  have halone := of_decide_eq_true halone
  obtain ⟨hvotes,hf⟩ := (mem_updatesPast_iff hsha hwire).1 hpast
  refine ⟨hvotes ▸ hf,fun cd hcd => ?_⟩
  by_contra hmore
  let other : UpdateVote := ⟨v.channelID,cd,votesFor obs v.channelID cd⟩
  have hother : other ∈ updatesPast (ObservationTally.ofObservations cfg L obs).updateVotes f :=
    (mem_updatesPast_iff hsha hwire).2 ⟨rfl,Nat.lt_of_not_le hmore⟩
  have hne : other ≠ v := fun heq => hcd (congrArg UpdateVote.definition heq)
  -- The channel has two updates past the threshold.
  have hsub : [other,v].Subperm ((updatesPast (ObservationTally.ofObservations cfg L obs).updateVotes f).filter
      (fun u => u.channelID = v.channelID)) := by
    refine subperm_of_subset (by simp [hne]) ?_
    intro u hu
    simp only [mem_cons,not_mem_nil,or_false] at hu
    rcases hu with rfl | rfl
    · exact mem_filter.2 ⟨hother,by simp [other]⟩
    · exact mem_filter.2 ⟨hpast,by simp⟩
  have := hsub.length_le
  simp only [length_cons,length_nil] at this
  omega

lemma size_installUpdate (factsOf : FactsOf) (defs : ChannelDefinitions) (v : UpdateVote) :
    (installUpdate factsOf defs v).size ≤ max maxOutcomeChannelDefinitionsLength defs.size := by
  unfold installUpdate
  split_ifs with hfull hgrows
  · exact le_max_right _ _
  · exact le_max_right _ _
  · cases hget : defs.get? v.channelID with
    | some cd => exact (size_insert_of_mem hget _).trans_le (le_max_right _ _)
    | none =>
      have hroom : defs.size < maxOutcomeChannelDefinitionsLength :=
        Nat.lt_of_not_le fun hle => hfull ⟨by rw [hget]; rfl,hle⟩
      exact (size_insert_le _ _ _).trans (hroom.trans_le (le_max_left _ _))

lemma bounded_installUpdate (factsOf : FactsOf) (defs : ChannelDefinitions) (v : UpdateVote) :
    BudgetTotals.Bounded (totalsOf factsOf defs) (totalsOf factsOf (installUpdate factsOf defs v)) := by
  unfold installUpdate
  split_ifs with hfull hgrows
  · exact .refl _
  · exact .refl _
  · exact BudgetTotals.bounded_of_not_grows hgrows

lemma foldl_installUpdate_bounded (factsOf : FactsOf) (updates : List UpdateVote) (defs : ChannelDefinitions) :
    BudgetTotals.Bounded (totalsOf factsOf defs) (totalsOf factsOf (updates.foldl (installUpdate factsOf) defs)) ∧
      (updates.foldl (installUpdate factsOf) defs).size ≤ max maxOutcomeChannelDefinitionsLength defs.size := by
  induction updates generalizing defs with
  | nil => exact ⟨.refl _,le_max_right _ _⟩
  | cons v updates ih =>
    obtain ⟨htotals,hsize⟩ := ih (installUpdate factsOf defs v)
    refine ⟨(bounded_installUpdate factsOf defs v).trans htotals,hsize.trans ?_⟩
    exact max_le (le_max_left _ _) (size_installUpdate factsOf defs v)

structure AdoptedByVotes (f : ℕ) (factsOf : FactsOf) (obs : List Attributed) (before after : ChannelDefinitions) :
    Prop where
  /-- A definition that is new is carried by more than `f` observations, and no other
  definition of its channel is. -/
  adopted : ∀ id cd, after.get? id = some cd → before.get? id ≠ some cd →
    f < votesFor obs id cd ∧ ∀ cd', cd' ≠ cd → votesFor obs id cd' ≤ f
  /-- A channel that is gone was voted out by more than `f` observations. -/
  removed : ∀ id cd, before.get? id = some cd → after.get? id = none → f < votesToRemove obs id
  totals : BudgetTotals.Bounded (totalsOf factsOf before) (totalsOf factsOf after)
  channels : after.size ≤ max maxOutcomeChannelDefinitionsLength before.size

lemma AdoptedByVotes.refl (f : ℕ) (factsOf : FactsOf) (obs : List Attributed) (defs : ChannelDefinitions) :
    AdoptedByVotes f factsOf obs defs defs where
  adopted _ _ h hne := absurd h hne
  removed _ _ h hnone := by
    rw [h] at hnone
    cases hnone
  totals := .refl _
  channels := le_max_right _ _

/-- What a round adopts was voted for by more than f oracles. -/
lemma adoptedByVotes_applyChannelVotes {f : ℕ} {factsOf : FactsOf} {defs defs' : ChannelDefinitions}
    (hsha : Injective L.sha256) (hwire : ∀ ao ∈ obs, VotesOnWire ao.2)
    (h : applyChannelVotes factsOf defs (.ofObservations cfg L obs) f = .ok defs') :
    AdoptedByVotes f factsOf obs defs defs' := by
  have hdefs := applyChannelVotes_eq h
  rw [mergedDefinitions] at hdefs
  set t := ObservationTally.ofObservations cfg L obs with ht
  obtain ⟨S,hS,hinstalled⟩ := foldl_installUpdate_sublist factsOf (passingUpdates t f) (applyRemovals defs t f)
  obtain ⟨htotals,hsize⟩ := foldl_installUpdate_bounded factsOf (passingUpdates t f) (applyRemovals defs t f)
  rw [hinstalled] at hdefs
  rw [hinstalled,← hdefs] at htotals hsize
  have hkept : ∀ id, (applyRemovals defs t f).get? id = if f < votesToRemove obs id then none else defs.get? id :=
    get?_applyRemovals defs
  refine ⟨?_,?_,(totalsOf_filter factsOf defs _).trans htotals,?_⟩
  · intro id cd hcd hne
    rw [hdefs,get?_eq_some_iff] at hcd
    rcases mem_entries_insertMany hcd with hcd | hcd
    · rw [← get?_eq_some_iff,hkept] at hcd
      split_ifs at hcd
      exact absurd hcd hne
    · obtain ⟨v,hv,hentry⟩ := mem_map.1 hcd
      obtain ⟨rfl,rfl⟩ := Prod.mk.inj hentry
      exact votesFor_of_mem_passingUpdates hsha (fun ao hao => (hwire ao hao).updatesOnWire) (hS.subset hv)
  · intro id cd hcd hnone
    by_contra hf
    have hthere : (applyRemovals defs t f).contains id = true := by
      rw [SortedMap.contains,hkept,if_neg hf,hcd]
      rfl
    have hafter : defs'.contains id = true := by
      rw [hdefs]
      exact contains_insertMany.2 (.inl hthere)
    rw [SortedMap.contains,hnone] at hafter
    cases hafter
  · exact hsize.trans (max_le_max le_rfl (size_filter_le _ _))

lemma eq_empty_of_size {K V : Type} [LinearOrder K] {m : SortedMap K V} (h : ¬ 0 < m.size) : m = ∅ := by
  ext k
  cases hget : m.get? k with
  | none => rfl
  | some v => exact absurd (length_pos_of_mem (get?_eq_some_iff.1 hget)) h

lemma applyChannelVotes_of_no_votes {t : ObservationTally} {f : ℕ} {factsOf : FactsOf} {defs : ChannelDefinitions}
    (h : ¬ t.hasChannelVotes) : applyChannelVotes factsOf defs t f = .ok defs := by
  simp only [ObservationTally.hasChannelVotes,Bool.or_eq_true,decide_eq_true_eq,not_or] at h
  have hkept : applyRemovals defs t f = defs := by
    ext id
    rw [applyRemovals,get?_filter,eq_empty_of_size h.1]
    cases defs.get? id <;> simp
  rw [applyChannelVotes,passingUpdates,updatesPast,eq_empty_of_size h.2,hkept]
  rfl

lemma nextDefinitions_of_not_retired {stage : LifeCycleStage} {t : ObservationTally} {f : ℕ} {factsOf : FactsOf}
    {defs : ChannelDefinitions} (h : stage ≠ .retired) :
    nextDefinitions factsOf defs t f stage = applyChannelVotes factsOf defs t f := by
  unfold nextDefinitions
  split_ifs with hvotes
  · rfl
  · exact (applyChannelVotes_of_no_votes fun hv => hvotes ⟨h,hv⟩).symm

lemma nextDefinitions_congr {t : ObservationTally} {f : ℕ} {factsOf : FactsOf} {defs : ChannelDefinitions}
    {t' : ObservationTally} (hremovals : t.removeChannelVotesByID = t'.removeChannelVotesByID)
    (hupdates : t.updateVotes = t'.updateVotes) (stage : LifeCycleStage) :
    nextDefinitions factsOf defs t f stage = nextDefinitions factsOf defs t' f stage := by
  by_cases hstage : stage = .retired
  · simp [nextDefinitions,hstage]
  · have hkept : applyRemovals defs t f = applyRemovals defs t' f := by rw [applyRemovals,applyRemovals,hremovals]
    have hpassing : passingUpdates t f = passingUpdates t' f := by rw [passingUpdates,passingUpdates,hupdates]
    rw [nextDefinitions_of_not_retired hstage,nextDefinitions_of_not_retired hstage,applyChannelVotes,applyChannelVotes,
      hkept,hpassing]

/-- The definitions a round after the first writes follow from its votes by agreement,
within every budget, and do not depend on the order of its observations or on the order
in which maps are gone through. -/
theorem stateTransition_adoptedByVotes {I : Instance M} {node : Node} {seqNr : ℕ} {prev next : KVState M}
    {aos : List AttributedObservation} {out : Precursor} (hseq : 2 ≤ seqNr)
    (h : stateTransition I node seqNr prev aos = .ok (next,out))
    (hobs : decodeObservations I node.fetcher seqNr aos = .ok obs) (hsha : Injective I.libs.sha256)
    (hwire : ∀ ao ∈ obs, VotesOnWire ao.2) :
    AdoptedByVotes I.config.f node.factsOf obs prev.channelDefinitions next.channelDefinitions ∧
      (∀ obs' next' out', obs.Perm obs' → laterRound I node.factsOf seqNr prev obs' = .ok (next',out') →
        next'.channelDefinitions = next.channelDefinitions) ∧
      (out.lifeCycleStage ≠ .retired → ∀ (w : VoteOrder I.libs obs) (defs' : ChannelDefinitions),
        w.apply node.factsOf prev.channelDefinitions I.config.f = .ok defs' ↔ defs' = next.channelDefinitions) := by
  obtain ⟨obs₁,hobs₁,hround⟩ := stateTransition_inv hseq h
  cases Except.ok.inj (hobs.symm.trans hobs₁)
  obtain ⟨hlater,hdefs⟩ := laterRound_inv hround
  refine ⟨?_,?_,?_⟩
  · rw [nextDefinitions] at hdefs
    split_ifs at hdefs with happly
    · exact adoptedByVotes_applyChannelVotes hsha hwire hdefs
    · rw [← Except.ok.inj hdefs]
      exact .refl _ _ _ _
  · intro obs' next' out' hperm hround'
    obtain ⟨hlater',hdefs'⟩ := laterRound_inv hround'
    have hsame := @sameVotes_of_perm I.config _ _ _ hsha hwire hperm
    have hstage : out'.lifeCycleStage = out.lifeCycleStage := by
      rw [hlater.stage,hlater'.stage]
      exact (hsame.stage I.verify prev.lifeCycleStage).symm
    rw [hstage,← nextDefinitions_congr hsame.removals hsame.updates,hdefs] at hdefs'
    exact (Except.ok.inj hdefs').symm
  · intro hstage w defs'
    rw [w.apply_ok_iff hsha hwire,← nextDefinitions_of_not_retired hstage,hdefs,Except.ok.injEq,eq_comm]

lemma onWire_jsonChannel : jsonChannel.OnWire where
  reportFormat := ⟨by decide,fun _ h => nomatch h⟩
  streamIDs := by decide
  aggregators := by
    intro s hs
    rw [mem_singleton.1 hs]
    exact ⟨by decide,fun _ h => nomatch h⟩
  source := by decide
  length := by decide

/-- What is decoded from an oracle that votes for some definitions. -/
def votingObservation (ts : ℕ) (format : ReportFormat) (defs : ChannelDefinitions) : Observation :=
  { Observation.empty with
    observationTimestampNanoseconds := ts
    updateChannelDefinitions := defs
    supportedReportFormats := {format} }

def addChannelObservation : Observation := votingObservation 100 .json (.ofList [(1,jsonChannel)])

lemma votesOnWire_addChannelObservation : VotesOnWire addChannelObservation where
  updates := by
    intro e he
    rw [mem_singleton.1 he]
    exact ⟨by decide,onWire_jsonChannel⟩
  predecessorF := by decide
  signers := nofun

theorem stateTransition_adoptedByVotes_coverageRun :
    (coverageRun.state 2).channelDefinitions.keys = [1] ∧
      AdoptedByVotes 1 (coverageRun.input 2).1.factsOf [(0,addChannelObservation),(1,addChannelObservation),(2,addChannelObservation)]
        (coverageRun.state 1).channelDefinitions (coverageRun.state 2).channelDefinitions := by
  have hobs : decodeObservations coverageInstance (coverageRun.input 2).1.fetcher 2 (coverageRun.input 2).2 =
      .ok [(0,addChannelObservation),(1,addChannelObservation),(2,addChannelObservation)] := by decide +kernel
  refine ⟨by decide +kernel,?_⟩
  refine (stateTransition_adoptedByVotes le_rfl (coverageRun.step_ok 1 (by decide)) hobs digest_injective ?_).1
  intro ao hao
  simp only [mem_cons,not_mem_nil,or_false] at hao
  rcases hao with rfl | rfl | rfl <;> exact votesOnWire_addChannelObservation

end DataStreams.V31
