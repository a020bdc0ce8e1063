import DataStreams.Protocol.Panics
import DataStreams.V30.Observation
import DataStreams.V31.Observation

/-! Validation runs on bytes a peer chose. It crashes exactly when the analysis of the
definitions voted for does. -/
namespace DataStreams
open Go

/-- Map values that are messages are always present after unmarshalling. -/
def WireLibs.DefinesMapValues (W : WireLibs) : Prop :=
  ∀ b m, W.unmarshalObservation b = .ok m → ∀ e ∈ m.updateChannelDefinitions.entries, e.2.isSome = true

namespace V31
variable {W : WireLibs} {fetcher : BlobFetcher}
lemma decodeFramedPayload_not_isPanic (W : WireLibs) (payload : Bytes) (maxOut : ℕ) (what : String) :
    ¬ Go.IsPanic (decodeFramedPayload W payload maxOut what) := by
  unfold decodeFramedPayload
  split_ifs with hempty hmax
  · simp
  · simp
  · rw [index_eq_ok (Nat.pos_of_ne_zero hempty),sliceFrom_eq_ok (Nat.pos_of_ne_zero hempty)]
    simp only [ok_bind]
    split
    · split_ifs <;> simp
    · simp
    · simp

lemma mergeBlob_not_isPanic (W : WireLibs) (fetcher : BlobFetcher) (acc : Observation × ℕ) (handle : Bytes) :
    ¬ Go.IsPanic (mergeBlob W fetcher acc handle) := by
  simp only [mergeBlob,isPanic_bind,not_isPanic_ofExcept,false_or]
  rintro ⟨payload,_,hp | ⟨raw,_,entry,_,hp⟩⟩
  · exact decodeFramedPayload_not_isPanic _ _ _ _ hp
  · split_ifs at hp <;> simp at hp

lemma decodeHandles_not_isPanic (W : WireLibs) (count : ℕ) (rest : Bytes) :
    ¬ Go.IsPanic (decodeHandles W count rest) := by
  induction count generalizing rest with
  | zero => simp [decodeHandles]
  | succ count ih =>
    simp only [decodeHandles]
    split
    · simp
    · next l k hlen =>
      rw [sliceFrom_eq_ok (uvarint_length hlen)]
      simp only [ok_bind]
      split_ifs with hl
      · simp
      · rw [sliceTo_eq_ok (Nat.le_of_not_lt hl),sliceFrom_eq_ok (Nat.le_of_not_lt hl)]
        simp only [ok_bind,isPanic_bind,not_isPanic_ofExcept,not_isPanic_ok,false_or,and_false,
          exists_false,or_false]
        rintro ⟨_,_,hp⟩
        exact ih _ hp

lemma decodeFrame_not_isPanic {raw : Bytes} (h : raw.length ≠ 0) : ¬ Go.IsPanic (decodeFrame W raw) := by
  unfold decodeFrame
  rw [index_eq_ok (Nat.pos_of_ne_zero h),sliceFrom_eq_ok (Nat.pos_of_ne_zero h)]
  simp only [ok_bind]
  split_ifs
  · simp
  · split
    · simp
    · next count k hcount =>
      rw [sliceFrom_eq_ok (uvarint_length hcount)]
      split_ifs
      · simp
      · exact decodeHandles_not_isPanic _ _ _

lemma fetchBlobsDecodeAndValidateObservation_not_isPanic (cfg : Config) (seqNr : ℕ) (raw : Bytes) :
    ¬ Go.IsPanic (fetchBlobsDecodeAndValidateObservation cfg W fetcher seqNr raw) := by
  have hfetch : ¬ Go.IsPanic (fetchBlobsAndDecodeObservation W fetcher raw) := by
    unfold fetchBlobsAndDecodeObservation
    split_ifs with hempty
    · simp
    · simp only [isPanic_bind,not_isPanic_ofExcept,false_or,not_isPanic_ok,and_false,exists_false,or_false]
      rintro (hp | ⟨_,_,_,_,_,_,hp⟩)
      · exact decodeFrame_not_isPanic hempty hp
      · exact not_isPanic_foldlM (mergeBlob_not_isPanic W fetcher) _ _ hp
  simpa only [fetchBlobsDecodeAndValidateObservation,isPanic_bind,not_isPanic_ofExcept,
    not_isPanic_ok,and_false,exists_false,or_false] using hfetch

/-- The definitions that validation analyses. -/
def Verifies (cfg : Config) (W : WireLibs) (fetcher : BlobFetcher) (committed : ChannelDefinitions)
    (seqNr : ℕ) (raw : Bytes) (defs : ChannelDefinitions) : Prop :=
  2 ≤ seqNr ∧ ∃ obs, fetchBlobsDecodeAndValidateObservation cfg W fetcher seqNr raw = .ok obs ∧
    defs = definitionsForVerify committed obs

lemma isPanic_validateObservation (cfg : Config) (L : Libs) (factsOf : FactsOf)
    (committed : ChannelDefinitions) (seqNr : ℕ) (raw : Bytes) :
    Go.IsPanic (validateObservation cfg L W fetcher factsOf committed seqNr raw) ↔
      ∃ defs, Verifies cfg W fetcher committed seqNr raw defs ∧
        Go.IsPanic (verifyChannelDefinitions L factsOf defs) := by
  unfold validateObservation Verifies
  split_ifs with h0 h1 hraw
  · exact iff_of_false (not_isPanic_err _) fun ⟨_,⟨h,_⟩,_⟩ => absurd h (by omega)
  · exact iff_of_false (not_isPanic_err _) fun ⟨_,⟨h,_⟩,_⟩ => absurd h (by omega)
  · exact iff_of_false (not_isPanic_ok _) fun ⟨_,⟨h,_⟩,_⟩ => absurd h (by omega)
  · have h2 : 2 ≤ seqNr := by omega
    simp only [isPanic_bind,fetchBlobsDecodeAndValidateObservation_not_isPanic,false_or,h2,true_and]
    constructor
    · rintro ⟨obs,hobs,hp⟩
      exact ⟨_,⟨obs,hobs,rfl⟩,hp⟩
    · rintro ⟨_,⟨obs,hobs,rfl⟩,hp⟩
      exact ⟨obs,hobs,hp⟩

end V31

namespace V30
variable {W : WireLibs}
lemma decodeObservation_not_isPanic (hW : W.DefinesMapValues) (cfg : Config) (raw : Bytes) :
    ¬ Go.IsPanic (decodeObservation cfg W raw) := by
  have hmessage : ∀ b m, W.unmarshalObservation b = .ok m → ¬ Go.IsPanic (observationFromProto W m) := by
    intro b m hm
    have hdefs : ¬ Go.IsPanic (channelDefinitionsFromProtoObservation m.updateChannelDefinitions) := by
      unfold channelDefinitionsFromProtoObservation
      simp only [isPanic_bind,not_isPanic_ok,and_false,exists_false,or_false]
      refine not_isPanic_mapM fun e he => ?_
      obtain ⟨cd,hcd⟩ := Option.isSome_iff_exists.1 (hW b m hm e he)
      simp [hcd]
    simp only [observationFromProto,isPanic_bind,not_isPanic_ofExcept,not_isPanic_ok,false_or,
      and_false,exists_false,or_false]
    rintro ⟨_,_,hp⟩
    exact hdefs hp
  simp only [decodeObservation,isPanic_bind,not_isPanic_ofExcept,false_or,ofExcept_eq_ok]
  rintro ⟨b,_,m,hm,hp⟩
  exact hmessage b m hm hp

/-- The definitions that validation analyses. -/
def Verifies (cfg : Config) (W : WireLibs) (previous : Except String ChannelDefinitions) (seqNr : ℕ)
    (raw : Bytes) (defs : ChannelDefinitions) : Prop :=
  1 ≤ seqNr ∧ (seqNr = 1 → raw.length = 0) ∧ ∃ obs, decodeObservation cfg W raw = .ok obs ∧
    checkVotes cfg obs = .ok () ∧ definitionsForVerify seqNr previous obs = .ok defs

lemma isPanic_validateObservation (hW : W.DefinesMapValues) (cfg : Config) (L : Libs) (factsOf : FactsOf)
    (previous : Except String ChannelDefinitions) (seqNr : ℕ) (raw : Bytes) :
    Go.IsPanic (validateObservation cfg L W factsOf previous seqNr raw) ↔
      ∃ defs, Verifies cfg W previous seqNr raw defs ∧ Go.IsPanic (verifyChannelDefinitions L factsOf defs) := by
  unfold validateObservation Verifies
  split_ifs with h0 h1
  · exact iff_of_false (not_isPanic_err _) fun ⟨_,⟨h,_⟩,_⟩ => absurd h (by omega)
  · exact iff_of_false (not_isPanic_err _) fun ⟨_,⟨_,h,_⟩,_⟩ => h1.2 (h h1.1)
  · have hseq : 1 ≤ seqNr := by omega
    have hraw : seqNr = 1 → raw.length = 0 := fun h => not_not.1 fun hne => h1 ⟨h,hne⟩
    simp only [isPanic_bind,decodeObservation_not_isPanic hW,not_isPanic_ofExcept,ofExcept_eq_ok,
      false_or,and_false,exists_false,or_false]
    constructor
    · rintro ⟨obs,hobs,_,hvotes,defs,hdefs,hp⟩
      exact ⟨defs,⟨hseq,hraw,obs,hobs,hvotes,hdefs⟩,hp⟩
    · rintro ⟨defs,⟨_,_,obs,hobs,hvotes,hdefs⟩,hp⟩
      exact ⟨obs,hobs,(),hvotes,defs,hdefs,hp⟩

end V30

/-- Whatever a peer sends, both versions return a verdict or an error exactly when the
definitions they analyse for it do not crash the analysis. -/
theorem validateObservation_not_isPanic_iff {L : Libs} {E : ExprLib} {W : WireLibs} {codecs : ReportCodecs}
    {cache : ChannelAnalysisCache} (hcodecs : HoldsEVMCodecs L E codecs) (hW : W.DefinesMapValues)
    (hcache : cache.Reachable L.json codecs) (cfg30 : V30.Config) (cfg31 : V31.Config)
    (fetcher : V31.BlobFetcher) (previous : Except String ChannelDefinitions)
    (committed : ChannelDefinitions) (seqNr : ℕ) (raw : Bytes) :
    (¬ Go.IsPanic (V30.validateObservation cfg30 L W (deriveChannelFacts L.json codecs) previous seqNr raw) ↔
        ∀ defs, V30.Verifies cfg30 W previous seqNr raw defs → ¬ CrashesAnalysis L E defs) ∧
      (¬ Go.IsPanic (V31.validateObservation cfg31 L W fetcher (channelFactsFor L.json codecs cache)
          committed seqNr raw) ↔
        ∀ defs, V31.Verifies cfg31 W fetcher committed seqNr raw defs → ¬ CrashesAnalysis L E defs) := by
  rw [hcache.channelFactsFor_eq,V30.isPanic_validateObservation hW,V31.isPanic_validateObservation]
  simp only [isPanic_verifyChannelDefinitions hcodecs,not_exists,not_and,and_self]

/-- Opts that name a feed, closed once too often. -/
def strayOpts : JSONText :=
  let opts := JSONText.object [("feedID",.hash 1)]
  ⟨opts.bytes ++ ascii "\x7d",opts.tokens ++ [.closeObject]⟩

/-- The decoder reads the object and ignores the last brace; the scanner returns it. -/
def strayLibs : Libs where
  json := { JSON.rejecting with
    decodeEVMABIEncode := fromTable [(strayOpts.bytes,⟨⟨0,0⟩,0,1,[],.seconds,0⟩)]
    tokenize := fun b => if b = strayOpts.bytes then ⟨strayOpts.tokens,none⟩ else ⟨[],some "malformed input"⟩ }
  decimalFromString _ := .error "malformed input"
  sha256 := digest

def strayChannel : ChannelDefinition :=
  ⟨.evmABIEncodeUnpackedExpr,[⟨1,.median⟩,⟨2,.median⟩,⟨3,.quote⟩],strayOpts.bytes,false,0,false⟩

def peerMessages : List ObservationProto := [updateMessage 1 1 strayChannel,updateMessage 1 1 jsonChannel]

def peerWire : WireLibs := wireOf peerMessages [] []

def peerCodecs : ReportCodecs := codecsFor strayLibs rejectingExprs (fun _ => true)

def peerBytes (honest : Bool) : Bytes :=
  marshalObservation (updateMessage 1 1 (if honest then jsonChannel else strayChannel))

/-- Validation of a peer's bytes in round 2, before any channel is committed. -/
def validatePeer30 (honest : Bool) : Go Unit :=
  V30.validateObservation ⟨1,none,2,0,false⟩ strayLibs peerWire (deriveChannelFacts strayLibs.json peerCodecs)
    (.ok ∅) 2 (peerBytes honest)

def validatePeer31 (honest : Bool) : Go Unit :=
  V31.validateObservation ⟨4,1,none,2,0⟩ strayLibs peerWire none
    (channelFactsFor strayLibs.json peerCodecs .empty) ∅ 2 (V31.frameObservation [] (peerBytes honest))

lemma peerWire_definesMapValues : peerWire.DefinesMapValues := by
  intro b m hm
  have hall : ∀ p ∈ peerMessages.map (fun m => (marshalObservation m,m)),
      p.2.updateChannelDefinitions.entries.all (fun e => e.2.isSome) = true := by decide +kernel
  exact List.all_eq_true.1 (hall (b,m) (mem_of_fromTable_eq_ok hm))

lemma peerCodecs_holdsEVMCodecs : HoldsEVMCodecs strayLibs rejectingExprs peerCodecs :=
  holdsEVMCodecs_codecsFor fun _ _ => rfl

/-- The honest peer's vote gets a verdict from both versions. -/
theorem validateObservation_not_isPanic_iff_honest :
    (∀ defs, V30.Verifies ⟨1,none,2,0,false⟩ peerWire (.ok ∅) 2 (peerBytes true) defs →
        ¬ CrashesAnalysis strayLibs rejectingExprs defs) ∧
      ∀ defs, V31.Verifies ⟨4,1,none,2,0⟩ peerWire none ∅ 2 (V31.frameObservation [] (peerBytes true)) defs →
        ¬ CrashesAnalysis strayLibs rejectingExprs defs := by
  have h30 : ¬ Go.IsPanic (validatePeer30 true) := by decide +kernel
  have h31 : ¬ Go.IsPanic (validatePeer31 true) := by decide +kernel
  exact ⟨(validateObservation_not_isPanic_iff peerCodecs_holdsEVMCodecs peerWire_definesMapValues .empty
      ⟨1,none,2,0,false⟩ ⟨4,1,none,2,0⟩ none (.ok ∅) ∅ 2 (peerBytes true)).1.1 h30,
    (validateObservation_not_isPanic_iff peerCodecs_holdsEVMCodecs peerWire_definesMapValues .empty
      ⟨1,none,2,0,false⟩ ⟨4,1,none,2,0⟩ none (.ok ∅) ∅ 2 (V31.frameObservation [] (peerBytes true))).2.1 h31⟩

/-- One vote with opts that close one object too many crashes both versions. -/
theorem stray_closer_crashes_validation :
    HoldsEVMCodecs strayLibs rejectingExprs peerCodecs ∧ peerWire.DefinesMapValues ∧
      Go.IsPanic (validatePeer30 false) ∧ Go.IsPanic (validatePeer31 false) :=
  ⟨peerCodecs_holdsEVMCodecs,peerWire_definesMapValues,by decide +kernel,by decide +kernel⟩

end DataStreams
