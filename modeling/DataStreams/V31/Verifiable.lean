import DataStreams.V31.Acceptance

/-! Committed sets stay verifiable as long as no round leaves a live backfill without a target
it fits (v31). -/
namespace DataStreams.V31
variable {M : Type} {I : Instance M}

def updatesFit (factsOf : FactsOf) : ChannelDefinitionsBudget → ChannelDefinitions → List UpdateVote → Bool
  | _, _, [] => true
  | budget, defs, v :: rest =>
    if (defs.get? v.channelID).isNone ∧ defs.size ≥ maxOutcomeChannelDefinitionsLength then false
    else
      match budget.replace factsOf v.channelID (defs.get? v.channelID) v.definition with
      | .ok (true,budget) => updatesFit factsOf budget (defs.insert v.channelID v.definition) rest
      | _ => false

/-- All updates past the threshold can be installed. -/
def allUpdatesFit (factsOf : FactsOf) (defs : ChannelDefinitions) (t : ObservationTally) (f : ℕ) : Bool :=
  match ChannelDefinitionsBudget.new factsOf (applyRemovals defs t f) with
  | .ok budget => updatesFit factsOf budget (applyRemovals defs t f) (passingUpdates t f)
  | .error _ => false

/-- In a round that applies votes, every live backfill fits its target in the definitions
left by the removals with the updates installed: with all of them if they fit, and with any
part of them otherwise. -/
def KeepsBackfills (I : Instance M) (factsOf : FactsOf) (prev : KVState M) (t : ObservationTally) : Prop :=
  (decideRound I prev t).stage ≠ .retired → t.hasChannelVotes = true →
    ∀ S ∈ (passingUpdates t I.config.f).sublists,
      (allUpdatesFit factsOf prev.channelDefinitions t I.config.f = true → S = passingUpdates t I.config.f) →
      BackfillsOk I.libs.json ((applyRemovals prev.channelDefinitions t I.config.f).insertMany (S.map entryOf))

instance (I : Instance M) (factsOf : FactsOf) (prev : KVState M) (t : ObservationTally) :
    Decidable (KeepsBackfills I factsOf prev t) :=
  inferInstanceAs (Decidable (_ → _ → ∀ S ∈ List.sublists _, _))

variable {factsOf : FactsOf} {defs : ChannelDefinitions}
lemma foldlM_applyUpdate_of_updatesFit {budget : ChannelDefinitionsBudget}
    {updates : List UpdateVote} (h : updatesFit factsOf budget defs updates = true) :
    ∃ budget', updates.foldlM (applyUpdate factsOf) (budget,defs) =
      .ok (budget',defs.insertMany (updates.map entryOf)) := by
  induction updates generalizing budget defs with
  | nil => exact ⟨budget,rfl⟩
  | cons v updates ih =>
    unfold updatesFit at h
    split_ifs at h with hcap
    split at h
    · next budget₁ hreplace =>
      obtain ⟨budget',hfold⟩ := ih h
      have hstep : applyUpdate factsOf (budget,defs) v = .ok (budget₁,defs.insert v.channelID v.definition) := by
        simp only [applyUpdate,if_neg hcap,hreplace,Go.ok_bind,if_true]
      rw [List.foldlM_cons,hstep]
      exact ⟨budget',hfold⟩
    · contradiction

variable {t : ObservationTally} {f : ℕ}
lemma applyChannelVotes_of_allUpdatesFit (h : allUpdatesFit factsOf defs t f = true) :
    applyChannelVotes factsOf defs t f =
      .ok ((applyRemovals defs t f).insertMany ((passingUpdates t f).map entryOf)) := by
  unfold allUpdatesFit at h
  split at h
  · next budget hnew =>
    obtain ⟨budget',hfold⟩ := foldlM_applyUpdate_of_updatesFit h
    unfold applyChannelVotes
    cases hu : passingUpdates t f with
    | nil => rfl
    | cons v updates =>
      rw [hu] at hfold
      simp only [hnew,Go.ok_bind,hfold]
  · contradiction

lemma applyChannelVotes_installed {defs' : ChannelDefinitions}
    (h : applyChannelVotes factsOf defs t f = .ok defs') (hw : WithinBudget defs) :
    ∃ S : List UpdateVote, S.Sublist (passingUpdates t f) ∧
      (allUpdatesFit factsOf defs t f = true → S = passingUpdates t f) ∧
      defs' = (applyRemovals defs t f).insertMany (S.map entryOf) := by
  by_cases hfit : allUpdatesFit factsOf defs t f = true
  · exact ⟨_,List.Sublist.refl _,fun _ => rfl,Except.ok.inj (h.symm.trans (applyChannelVotes_of_allUpdatesFit hfit))⟩
  · obtain ⟨_,S,hS,hdefs⟩ := applyChannelVotes_inv h hw
    exact ⟨S,hS,fun hf => absurd hf hfit,hdefs⟩

/-- In a run that keeps backfills and targets together, every committed set passes baseline
verification and holds no unverifiable channel. -/
theorem Run.Validated.verifiable_of_keepsBackfills {run : Run I} {codecs : ReportCodecs} (hv : run.Validated codecs)
    (hkeeps : ∀ n, 1 ≤ n → n < run.len → ∀ obs, run.Decoded n obs →
      KeepsBackfills I (deriveChannelFacts I.libs.json codecs) (run.state n) (.ofObservations I.config I.libs obs))
    {n : ℕ} (hn : 1 ≤ n) (hlen : n ≤ run.len) :
    verifyChannelDefinitions I.libs (deriveChannelFacts I.libs.json codecs) (run.state n).channelDefinitions =
        .ok () ∧
      unverifiableChannelIDs I.libs (deriveChannelFacts I.libs.json codecs) (run.state n).channelDefinitions =
        .ok ([],none) := by
  have hbackfills : BackfillsOk I.libs.json (run.state n).channelDefinitions := by
    refine run.invariant_from (m := 1)
      (P := fun n => BackfillsOk I.libs.json (run.state n).channelDefinitions) ?_ ?_ n hn hlen
    · rw [(run.first (by omega)).2.2.1]
      exact fun e he => absurd he List.not_mem_nil
    · intro k hk hlen ih
      obtain ⟨obs,hobs,hsame | ⟨hstage,hvotes,happly⟩⟩ := run.definitions_inv hk hlen
      · rw [hsame]
        exact ih
      · obtain ⟨cache,hcache,hfacts⟩ := hv.build k hk hlen
        rw [hfacts,hcache.channelFactsFor_eq] at happly
        obtain ⟨S,hS,hall,hdefs⟩ := applyChannelVotes_installed happly (run.withinBudget hk (by omega))
        rw [hdefs]
        exact hkeeps k hk hlen obs hobs hstage hvotes S (List.mem_sublists.2 hS) hall
  have hverify := (hv.verify_iff hn hlen).2 hbackfills
  exact ⟨hverify,unverifiableChannelIDs_eq_nil_iff.2 hverify⟩

/-- Where all updates of a round fit, the condition is exact: a set that passes baseline
verification was written by a round that meets it. -/
theorem Run.Validated.keepsBackfills_of_verify {run : Run I} {codecs : ReportCodecs} (hv : run.Validated codecs) {n : ℕ}
    (hn : 1 ≤ n) (hlen : n < run.len) {obs : List Attributed} (hobs : run.Decoded n obs)
    (hfit : allUpdatesFit (deriveChannelFacts I.libs.json codecs) (run.state n).channelDefinitions
      (.ofObservations I.config I.libs obs) I.config.f = true)
    (hverify : verifyChannelDefinitions I.libs (deriveChannelFacts I.libs.json codecs)
      (run.state (n + 1)).channelDefinitions = .ok ()) :
    KeepsBackfills I (deriveChannelFacts I.libs.json codecs) (run.state n) (.ofObservations I.config I.libs obs) := by
  intro hstage hvotes S _ hall
  obtain ⟨obs',hobs',hround,hdefs⟩ := run.later_decoded hn hlen
  cases Except.ok.inj (hobs.symm.trans hobs')
  obtain ⟨cache,hcache,hfacts⟩ := hv.build n hn hlen
  rw [nextDefinitions,hround.stage,if_pos ⟨hstage,hvotes⟩,hfacts,hcache.channelFactsFor_eq,
    applyChannelVotes_of_allUpdatesFit hfit] at hdefs
  rw [hall hfit,Except.ok.inj hdefs]
  exact (hv.verify_iff (by omega) hlen).1 hverify

/-- The first three rounds of the run: a channel and its backfill are added, and the
channel is tombstoned. -/
def tombstoneRun : Run reapInstance :=
  .ofExecution reapInstance (nodeWithAllCodecs reapInstance.libs none)
    (sentFrom (reapMessages.map (Prod.mk []))) 3 (by decide +kernel)

lemma tombstoneRun_validated : tombstoneRun.Validated reapCodecs where
  build _ _ _ := ⟨.empty,.empty,rfl⟩
  validated n hn hlen := reapRun_validated.validated n hn (Nat.lt_succ_of_lt hlen)

/-- A backfill added with its target, whose target is then tombstoned, stays verifiable. -/
theorem verifiable_of_keepsBackfills_tombstoneRun :
    (tombstoneRun.state 3).channelDefinitions.keys = [1,2] ∧
      verifyChannelDefinitions reapInstance.libs (deriveChannelFacts reapInstance.libs.json reapCodecs)
        (tombstoneRun.state 3).channelDefinitions = .ok () := by
  have hkeeps : ∀ n ∈ [1,2], KeepsBackfills reapInstance (deriveChannelFacts reapInstance.libs.json reapCodecs)
      (tombstoneRun.state n) (.ofObservations reapInstance.config reapInstance.libs
        ((decodeObservations reapInstance (tombstoneRun.input (n + 1)).1.fetcher (n + 1)
          (tombstoneRun.input (n + 1)).2).getD [])) := by decide +kernel
  refine ⟨by decide +kernel,(tombstoneRun_validated.verifiable_of_keepsBackfills ?_ (n := 3) (by decide) (by decide)).1⟩
  intro n hn hlen obs hobs
  have hlen : n < 3 := hlen
  have hkeep := hkeeps n (by simp; omega)
  rw [show decodeObservations reapInstance _ _ _ = .ok obs from hobs] at hkeep
  exact hkeep

/-- All oracles are honest and every observation passes validation. Once the tombstoned
target is removed, the live backfill fails verification. -/
theorem reaped_target_leaves_unverifiable_backfill :
    reapRun.Validated reapCodecs ∧
      (∀ n ∈ [1,2,3], ∀ ao ∈ (reapRun.input (n + 1)).2,
        observation reapInstance.config reapInstance.libs reapFacts (voter (10 * n) (wantedIn (n + 1)))
          (reapRun.state n) (n + 1) = .ok ao.observation) ∧
      verifyChannelDefinitions reapInstance.libs reapFacts (reapRun.state 4).channelDefinitions ≠ .ok () ∧
      unverifiableChannelIDs reapInstance.libs reapFacts (reapRun.state 4).channelDefinitions = .ok ([2],none) :=
  ⟨reapRun_validated,by decide +kernel,by decide +kernel,by decide +kernel⟩

end DataStreams.V31
