import DataStreams.Protocol.ChannelAnalysis

/-! The analysis crashes exactly on a live definition whose opts have a stray closing delimiter. -/
namespace DataStreams
open Go

/-- A codec that does not crash on any definition. -/
structure ReportCodec.NeverPanics (codec : ReportCodec) : Prop where
  admission : ∀ check, codec.verifyForAdmission = some check → ∀ cd, ¬ Go.IsPanic (check cd)
  twapCalls : ∀ count, codec.twapCalls = some count → ∀ cd, (count cd).Returns

def evmFormats : List ReportFormat :=
  [.evmPremiumLegacy,.evmABIEncodeUnpacked,.evmABIEncodeUnpackedExpr,.evmStreamlined]

/-- The four EVM codecs of the build, and codecs that do not crash for other formats. -/
structure HoldsEVMCodecs (L : Libs) (E : ExprLib) (codecs : ReportCodecs) : Prop where
  evm : ∀ format ∈ evmFormats, codecs format = buildCodec L E format
  other : ∀ format codec, format ∉ evmFormats → codecs format = some codec → codec.NeverPanics

variable {L : Libs} {E : ExprLib} {codecs : ReportCodecs} {cd : ChannelDefinition}
lemma channelTWAPCalls_returns (L : Libs) (E : ExprLib) (cd : ChannelDefinition) :
    (channelTWAPCalls L E cd).Returns := by
  unfold channelTWAPCalls
  split
  · simp
  · exact (Go.Returns.mapM fun e _ => analyzeHistoryExpression_returns L E e).bind fun _ => returns_ok _

lemma validateChannelExpressions_not_isPanic (L : Libs) (E : ExprLib) (cd : ChannelDefinition) :
    ¬ Go.IsPanic (validateChannelExpressions L E cd) := by
  simp only [validateChannelExpressions,isPanic_bind,not_isPanic_ofExcept,false_or]
  rintro ⟨exprs,_,aggByStream,_,hp | ⟨entries,_,hp⟩⟩
  · exact (Go.Returns.mapM fun e _ => analyzeHistoryExpression_returns L E e).not_isPanic hp
  · split_ifs at hp <;> simp at hp

lemma buildCodec_neverPanics {format : ReportFormat} {codec : ReportCodec}
    (hf : format ≠ .evmABIEncodeUnpackedExpr) (h : buildCodec L E format = some codec) : codec.NeverPanics := by
  cases format with
  | evmABIEncodeUnpackedExpr => exact absurd rfl hf
  | retirement | capabilityTrigger | other => simp [buildCodec] at h
  | evmPremiumLegacy | json | evmABIEncodeUnpacked | evmStreamlined | historyBackfill =>
    cases h
    refine ⟨?_,nofun⟩
    rintro check hc cd
    cases hc <;> exact not_isPanic_ofExcept _

lemma holdsEVMCodecs_codecsFor {installed : ReportFormat → Bool}
    (h : ∀ format ∈ evmFormats, installed format = true) : HoldsEVMCodecs L E (codecsFor L E installed) where
  evm format hf := by simp [codecsFor,h format hf]
  other format codec hf hc := by
    refine @buildCodec_neverPanics L E format codec (fun he => hf (by simp [he,evmFormats])) ?_
    unfold codecsFor at hc
    split_ifs at hc
    exact hc

lemma admissionErrorOf_returns {x : Go Unit} (h : ¬ Go.IsPanic x) : (admissionErrorOf x).Returns := by
  match x with
  | .ok () => exact ⟨_,rfl⟩
  | .error (.error _) => exact ⟨_,rfl⟩
  | .error (.panic _) => exact absurd trivial h

lemma isPanic_admissionErrorOf {x : Go Unit} (h : Go.IsPanic x) : Go.IsPanic (admissionErrorOf x) := by
  match x with
  | .error (.panic _) => trivial
  | .ok () => exact absurd h (not_isPanic_ok _)
  | .error (.error _) => exact absurd h id

lemma ReportCodec.acceptedFacts_returns {codec : ReportCodec} {facts : ChannelFacts}
    (hadm : ∀ check, codec.verifyForAdmission = some check → ¬ Go.IsPanic (check cd))
    (htwap : ∀ count, codec.twapCalls = some count → (count cd).Returns) :
    (codec.acceptedFacts cd facts).Returns := by
  refine Go.Returns.bind ?_ fun _ => Go.Returns.bind ?_ fun _ => returns_ok _
  · unfold admissionErr
    split
    · next check hc => exact admissionErrorOf_returns (hadm check hc)
    · simp
  · unfold twapCount
    split
    · next count hc => exact htwap count hc
    · simp

lemma ReportCodec.isPanic_acceptedFacts {codec : ReportCodec} {facts : ChannelFacts}
    {check : ChannelDefinition → Go Unit} (hc : codec.verifyForAdmission = some check)
    (h : Go.IsPanic (check cd)) : Go.IsPanic (codec.acceptedFacts cd facts) := by
  rw [acceptedFacts,isPanic_bind,admissionErr,hc]
  exact .inl (isPanic_admissionErrorOf h)

variable (L E cd) in
/-- A definition of calculated streams whose codec accepts it and whose opts have a
closing delimiter after tokens the key scan accepts. -/
structure CrashesFacts : Prop where
  format : cd.reportFormat = .evmABIEncodeUnpackedExpr
  verified : (reportCodecEVMABIEncodeUnpackedExpr L E).verify cd = .ok ()
  stray : StrayCloser (L.json.tokenize cd.opts).tokens []

lemma CrashesFacts.isPanic (hcodecs : HoldsEVMCodecs L E codecs) (h : CrashesFacts L E cd) (id : ChannelID) :
    Go.IsPanic (deriveChannelFacts L.json codecs id cd) := by
  have hcodec : codecs cd.reportFormat = some (reportCodecEVMABIEncodeUnpackedExpr L E) := by
    rw [hcodecs.evm _ (by simp [h.format,evmFormats]),h.format]
    rfl
  simp only [deriveChannelFacts,hcodec,h.verified]
  refine ReportCodec.isPanic_acceptedFacts rfl ?_
  rw [isPanic_bind]
  exact .inl (isPanic_scanOptsKeys.2 h.stray)

/-- Facts are derived for every definition that does not crash its codec. -/
lemma deriveChannelFacts_returns (hcodecs : HoldsEVMCodecs L E codecs) (h : ¬ CrashesFacts L E cd)
    (id : ChannelID) : (deriveChannelFacts L.json codecs id cd).Returns := by
  unfold deriveChannelFacts
  cases hcodec : codecs cd.reportFormat with
  | none => exact ⟨_,rfl⟩
  | some codec =>
    cases hv : codec.verify cd with
    | error e => simp only [hv]; exact ⟨_,rfl⟩
    | ok u =>
      simp only [hv]
      by_cases hf : cd.reportFormat = .evmABIEncodeUnpackedExpr
      · rw [hcodecs.evm _ (by simp [hf,evmFormats]),hf] at hcodec
        cases hcodec
        refine ReportCodec.acceptedFacts_returns ?_ ?_
        · rintro check hc
          cases hc
          simp only [isPanic_bind,not_isPanic_ofExcept,and_false,exists_false,or_false]
          rintro (hp | ⟨_,_,hp⟩)
          · exact h ⟨hf,hv,isPanic_scanOptsKeys.1 hp⟩
          · exact validateChannelExpressions_not_isPanic L E cd hp
        · rintro count hc
          cases hc
          exact channelTWAPCalls_returns L E cd
      · have hnp : codec.NeverPanics := by
          by_cases hm : cd.reportFormat ∈ evmFormats
          · exact buildCodec_neverPanics hf ((hcodecs.evm _ hm).symm.trans hcodec)
          · exact hcodecs.other _ codec hm hcodec
        exact ReportCodec.acceptedFacts_returns (fun c hc => hnp.admission c hc cd)
          (fun c hc => hnp.twapCalls c hc cd)

variable (L E) in
def CrashesAnalysis (defs : ChannelDefinitions) : Prop :=
  defs.size ≤ maxOutcomeChannelDefinitionsLength ∧
    ∃ id cd, defs.get? id = some cd ∧ cd.tombstone = false ∧ CrashesFacts L E cd

variable (hcodecs : HoldsEVMCodecs L E codecs)
include hcodecs

lemma liveFacts_returns (id : ChannelID)
    (h : cd.tombstone = true ∨ ¬ CrashesFacts L E cd) :
    (liveFacts (deriveChannelFacts L.json codecs) id cd).Returns := by
  unfold liveFacts
  split_ifs with ht
  · simp
  · exact deriveChannelFacts_returns hcodecs (h.resolve_left ht) id

lemma isPanic_liveFacts (id : ChannelID) :
    Go.IsPanic (liveFacts (deriveChannelFacts L.json codecs) id cd) ↔
      cd.tombstone = false ∧ CrashesFacts L E cd := by
  constructor
  · intro hp
    by_contra h
    rw [not_and_or,Bool.not_eq_false] at h
    exact (liveFacts_returns hcodecs id h).not_isPanic hp
  · rintro ⟨ht,hc⟩
    simpa [liveFacts,ht] using hc.isPanic hcodecs id

lemma isPanic_allFacts (defs : ChannelDefinitions) :
    Go.IsPanic (allFacts (deriveChannelFacts L.json codecs) defs) ↔
      ∃ id cd, defs.get? id = some cd ∧ cd.tombstone = false ∧ CrashesFacts L E cd := by
  unfold allFacts
  rw [isPanic_mapM]
  · simp only [isPanic_bind,not_isPanic_ok,and_false,exists_false,or_false,
      isPanic_liveFacts hcodecs,SortedMap.get?_eq_some_iff,Prod.exists]
  · rintro ⟨id,cd⟩ _
    by_cases h : cd.tombstone = false ∧ CrashesFacts L E cd
    · exact .inr (isPanic_bind.2 (.inl ((isPanic_liveFacts hcodecs id).2 h)))
    · rw [not_and_or,Bool.not_eq_false] at h
      exact .inl ((liveFacts_returns hcodecs id h).bind fun _ => returns_ok _)

lemma isPanic_verifyChannelDefinitions (defs : ChannelDefinitions) :
    Go.IsPanic (verifyChannelDefinitions L (deriveChannelFacts L.json codecs) defs) ↔
      CrashesAnalysis L E defs := by
  have hofError : ∀ e, ¬ Go.IsPanic (Go.ofError e) := by
    intro e
    cases e <;> simp [Go.ofError]
  simp only [verifyChannelDefinitions,verifyChannelDefinitionsForAdmission,isPanic_bind,hofError,
    and_false,exists_false,or_false,analyzeChannelDefinitions,CrashesAnalysis]
  split_ifs with hsize
  · exact iff_of_false (not_isPanic_ok _) (fun h => absurd h.1 (by omega))
  · simp only [isPanic_bind,not_isPanic_ok,and_false,exists_false,or_false,isPanic_allFacts hcodecs,
      Nat.le_of_not_lt hsize,true_and]

end DataStreams
