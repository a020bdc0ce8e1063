import DataStreams.Protocol.ChannelAnalysis

/-! Baseline verification as checks of each definition, checks of backfills against their
targets and limits on the set. -/
namespace DataStreams
open List Go

/-- Nothing is wrong with the definition by itself. -/
def DefinitionOk (factsOf : FactsOf) (id : ChannelID) (cd : ChannelDefinition) : Prop :=
  cd.tombstone = true ∨ ∃ f, factsOf id cd = .ok f ∧ definitionFindings id cd f = []

def DefinitionsOk (factsOf : FactsOf) (defs : ChannelDefinitions) : Prop :=
  ∀ e ∈ defs.entries, DefinitionOk factsOf e.1 e.2

def BackfillsOk (J : JSON) (defs : ChannelDefinitions) : Prop :=
  ∀ e ∈ defs.entries, e.2.tombstone = false → e.2.isBackfill = true →
    validateHistoryBackfillAgainstDefinitions J e.2 defs 0 = .ok ()

instance (J : JSON) (defs : ChannelDefinitions) : Decidable (BackfillsOk J defs) :=
  inferInstanceAs (Decidable (∀ e ∈ defs.entries, _))

structure WithinLimits (defs : ChannelDefinitions) : Prop where
  channels : defs.size ≤ maxOutcomeChannelDefinitionsLength
  streamIDs : (countedStreamIDs defs).dedup.length ≤ maxObservationStreamValuesLength

variable {L : Libs} {factsOf : FactsOf} {defs : ChannelDefinitions}

variable {channels : List (ChannelID × ChannelDefinition × ChannelFacts)}
lemma allFacts_ok (h : allFacts factsOf defs = .ok channels) :
    (∀ e ∈ defs.entries, ∃ f, liveFacts factsOf e.1 e.2 = .ok f ∧ (e.1,e.2,f) ∈ channels) ∧
      ∀ c ∈ channels, (c.1,c.2.1) ∈ defs.entries ∧ liveFacts factsOf c.1 c.2.1 = .ok c.2.2 := by
  obtain ⟨hl,hr⟩ := mapM_ok h
  constructor
  · intro e he
    obtain ⟨c,hc,hf⟩ := hl e he
    obtain ⟨f,hlive,rfl⟩ : ∃ f, liveFacts factsOf e.1 e.2 = .ok f ∧ (e.1,e.2,f) = c := by
      simpa only [bind_ok_iff,Except.ok.injEq] using hf
    exact ⟨f,hlive,hc⟩
  · intro c hc
    obtain ⟨e,he,hf⟩ := hr c hc
    obtain ⟨f,hlive,rfl⟩ : ∃ f, liveFacts factsOf e.1 e.2 = .ok f ∧ (e.1,e.2,f) = c := by
      simpa only [bind_ok_iff,Except.ok.injEq] using hf
    exact ⟨he,hlive⟩

variable {id : ChannelID} {cd : ChannelDefinition}
lemma DefinitionOk.liveFacts_returns (h : DefinitionOk factsOf id cd) : (liveFacts factsOf id cd).Returns := by
  unfold liveFacts
  split_ifs with ht
  · exact returns_ok _
  · obtain ⟨f,hf,_⟩ := h.resolve_left ht
    exact ⟨f,hf⟩

lemma DefinitionsOk.allFacts_returns (h : DefinitionsOk factsOf defs) : (allFacts factsOf defs).Returns :=
  Go.Returns.mapM fun e he => (h e he).liveFacts_returns.bind fun _ => returns_ok _

variable {f : ChannelFacts}
lemma hasBoundedStreams_of_definitionFindings
    (h : definitionFindings id cd f = []) : cd.hasBoundedStreams = true := by
  unfold definitionFindings at h
  split_ifs at h with h0 h1
  simp [ChannelDefinition.hasBoundedStreams,h0,Nat.le_of_not_lt h1]

variable {J : JSON}
lemma backfillFindings_eq_nil :
    backfillFindings J defs id cd = [] ↔
      (cd.isBackfill = true → validateHistoryBackfillAgainstDefinitions J cd defs 0 = .ok ()) := by
  unfold backfillFindings
  split_ifs with hb
  · cases hv : validateHistoryBackfillAgainstDefinitions J cd defs 0 <;> simp [hb]
  · simp [hb]

lemma baselineFindings_eq_nil (hf : liveFacts factsOf id cd = .ok f) :
    baselineFindings J defs id cd f = [] ↔ DefinitionOk factsOf id cd ∧
      (cd.tombstone = false → cd.isBackfill = true →
        validateHistoryBackfillAgainstDefinitions J cd defs 0 = .ok ()) := by
  unfold baselineFindings DefinitionOk
  cases ht : cd.tombstone with
  | true => simp
  | false =>
    simp only [liveFacts,ht,Bool.false_eq_true,if_false] at hf
    simp only [Bool.false_eq_true,if_false,append_eq_nil_iff,hf,Except.ok.injEq,exists_eq_left',
      false_or,true_implies]
    refine and_congr_right fun hd => ?_
    rw [if_pos (hasBoundedStreams_of_definitionFindings hd),backfillFindings_eq_nil]

lemma channelErrs_eq_nil (h : allFacts factsOf defs = .ok channels) :
    channels.flatMap (fun c => (baselineFindings J defs c.1 c.2.1 c.2.2).map (fun e => (c.1,e))) = [] ↔
      DefinitionsOk factsOf defs ∧ BackfillsOk J defs := by
  obtain ⟨hl,hr⟩ := allFacts_ok h
  simp only [flatMap_eq_nil_iff,map_eq_nil_iff]
  constructor
  · intro hnil
    refine forall₂_and.1 fun e he => ?_
    obtain ⟨f,hf,hc⟩ := hl e he
    exact (baselineFindings_eq_nil hf).1 (hnil _ hc)
  · rintro ⟨hd,hb⟩ c hc
    obtain ⟨he,hf⟩ := hr c hc
    exact (baselineFindings_eq_nil hf).2 ⟨hd _ he,hb _ he⟩

structure Analysed (L : Libs) (factsOf : FactsOf) (defs : ChannelDefinitions) (res : VerifyResult) : Prop where
  size : defs.size ≤ maxOutcomeChannelDefinitionsLength
  facts : ∃ channels, allFacts factsOf defs = .ok channels ∧
    res.channelErrs = channels.flatMap (fun c =>
      (baselineFindings L.json defs c.1 c.2.1 c.2.2).map (fun e => (c.1,e)))
  streamIDs : res.uniqueStreamIDs = (countedStreamIDs defs).dedup.length

variable {res : VerifyResult}
lemma analyzeChannelDefinitions_inv
    (h : analyzeChannelDefinitions L factsOf defs = .ok res) (hw : res.wholeSetErr = none) :
    Analysed L factsOf defs res := by
  unfold analyzeChannelDefinitions at h
  split_ifs at h with hsize
  · cases Except.ok.inj h
    simp at hw
  · obtain ⟨channels,hfacts,h⟩ := bind_ok_iff.1 h
    cases Except.ok.inj h
    exact ⟨Nat.le_of_not_lt hsize,⟨channels,hfacts,rfl⟩,rfl⟩

/-- Nothing counts against the set itself. -/
structure VerifyResult.Clean (res : VerifyResult) : Prop where
  wholeSet : res.wholeSetErr = none
  channels : res.channelErrs = []
  streamIDs : res.uniqueStreamIDs ≤ maxObservationStreamValuesLength

lemma analyzeChannelDefinitions_clean_iff :
    (∃ res, analyzeChannelDefinitions L factsOf defs = .ok res ∧ res.Clean) ↔
      DefinitionsOk factsOf defs ∧ BackfillsOk L.json defs ∧ WithinLimits defs := by
  constructor
  · rintro ⟨res,hres,hclean⟩
    have han := analyzeChannelDefinitions_inv hres hclean.wholeSet
    obtain ⟨channels,hfacts,herrs⟩ := han.facts
    obtain ⟨hd,hb⟩ := (channelErrs_eq_nil hfacts).1 (herrs ▸ hclean.channels)
    exact ⟨hd,hb,han.size,han.streamIDs ▸ hclean.streamIDs⟩
  · rintro ⟨hd,hb,hsize,hids⟩
    obtain ⟨channels,hfacts⟩ := hd.allFacts_returns
    rw [analyzeChannelDefinitions,if_neg (Nat.not_lt.2 hsize)]
    exact ⟨_,bind_ok_iff.2 ⟨channels,hfacts,rfl⟩,rfl,(channelErrs_eq_nil hfacts).2 ⟨hd,hb⟩,hids⟩

lemma VerifyResult.err_eq_none : res.err [] = none ↔ res.Clean := by
  have happlies : ∀ f : AdmissionFinding, f.appliesTo [] = false := by
    intro f
    simp [AdmissionFinding.appliesTo]
  unfold VerifyResult.err
  cases hw : res.wholeSetErr with
  | some e => simpa using fun h : res.Clean => Option.some_ne_none e (hw.symm.trans h.wholeSet)
  | none =>
    simp only [happlies,filter_false,map_nil,append_nil,ne_eq,map_eq_nil_iff]
    split_ifs with hnil hids
    · simpa using fun h : res.Clean => absurd h.streamIDs (by omega)
    · simpa using (⟨hw,hnil,by omega⟩ : res.Clean)
    · simpa using fun h : res.Clean => hnil h.channels

/-- A set passes baseline verification exactly when its definitions, its backfills and
its size do. -/
lemma verifyChannelDefinitions_ok_iff :
    verifyChannelDefinitions L factsOf defs = .ok () ↔
      DefinitionsOk factsOf defs ∧ BackfillsOk L.json defs ∧ WithinLimits defs := by
  have hofError : ∀ e, Go.ofError e = .ok () ↔ e = none := by
    intro e
    cases e <;> simp [Go.ofError]
  simp only [verifyChannelDefinitions,verifyChannelDefinitionsForAdmission,bind_ok_iff,hofError,
    VerifyResult.err_eq_none,analyzeChannelDefinitions_clean_iff]

lemma unverifiableChannelIDs_eq_nil_iff :
    unverifiableChannelIDs L factsOf defs = .ok ([],none) ↔ verifyChannelDefinitions L factsOf defs = .ok () := by
  have hclean : ∀ res : VerifyResult,
      (res.channelErrs.map Prod.fst).dedup = [] ∧ res.setErr = none ↔ res.Clean := by
    intro res
    simp only [dedup_eq_nil,map_eq_nil_iff,VerifyResult.setErr]
    constructor
    · rintro ⟨hnil,herr⟩
      cases hw : res.wholeSetErr with
      | some e => simp [hw] at herr
      | none =>
        simp only [hw,hnil,true_and] at herr
        split_ifs at herr with hids
        exact ⟨hw,hnil,by omega⟩
    · intro h
      simp [h.wholeSet,h.channels,Nat.not_lt.2 h.streamIDs]
  rw [verifyChannelDefinitions_ok_iff,← analyzeChannelDefinitions_clean_iff]
  simp only [unverifiableChannelIDs,bind_ok_iff,Except.ok.injEq,Prod.mk.injEq,hclean]

/-- When nothing being admitted is inadmissible, every definition being admitted is fine
by itself. -/
lemma definitionOk_of_inadmissibleChannelIDs {admitting : Admitting}
    (h : inadmissibleChannelIDs L factsOf defs admitting = .ok ([],none)) {e : DefinitionEntry}
    (he : e ∈ defs.entries) (hid : e.1 ∈ admitting) : DefinitionOk factsOf e.1 e.2 := by
  obtain ⟨res,hres,h⟩ := bind_ok_iff.1 h
  cases hw : res.wholeSetErr with
  | some m => simp [hw] at h
  | none =>
    have hids : ((res.channelErrs.map Prod.fst ++
        (res.admissionFindings.filter (fun f => !f.wholeSet)).flatMap AdmissionFinding.channels).filter
          (fun id => id ∈ admitting)).dedup = [] := by
      simp only [hw] at h
      split at h
      · split_ifs at h
        · simp at h
        · exact (Prod.mk.inj (Except.ok.inj h)).1
      · simp at h
    obtain ⟨channels,hfacts,herrs⟩ := (analyzeChannelDefinitions_inv hres hw).facts
    obtain ⟨f,hf,hc⟩ := (allFacts_ok hfacts).1 e he
    refine ((@baselineFindings_eq_nil _ defs _ _ _ L.json hf).1 ?_).1
    by_contra hne
    obtain ⟨m,hm⟩ := exists_mem_of_ne_nil _ hne
    have hmem : e.1 ∈ res.channelErrs.map Prod.fst := by
      rw [herrs]
      exact mem_map.2 ⟨(e.1,m),mem_flatMap.2 ⟨_,hc,mem_map.2 ⟨m,hm,rfl⟩⟩,rfl⟩
    rw [dedup_eq_nil,filter_eq_nil_iff] at hids
    exact hids e.1 (mem_append_left _ hmem) (by simpa using hid)

end DataStreams
