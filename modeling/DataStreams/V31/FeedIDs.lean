import DataStreams.V31.Adoption
import DataStreams.V31.Honest

/-! Admission holds one oracle's definitions to distinct feed IDs; what is committed is another
set (v31). -/
namespace DataStreams.V31
open SortedMap
variable {M : Type}
/-- The feed ID a live definition publishes under, if its codec accepts it and resolves
one. -/
def feedOf (factsOf : FactsOf) (id : ChannelID) (cd : ChannelDefinition) : Option ℕ :=
  if cd.tombstone then none else (factsOf id cd).toOption.bind ChannelFacts.feedID

/-- Two entries with the same feed ID are of the same channel. -/
def FeedsApart (factsOf : FactsOf) (e e' : DefinitionEntry) : Prop :=
  feedOf factsOf e.1 e.2 ≠ none → feedOf factsOf e.1 e.2 = feedOf factsOf e'.1 e'.2 → e.1 = e'.1

def UniqueFeeds (factsOf : FactsOf) (defs : ChannelDefinitions) : Prop :=
  ∀ e ∈ defs.entries, ∀ e' ∈ defs.entries, FeedsApart factsOf e e'

instance (factsOf : FactsOf) : DecidableRel (FeedsApart factsOf) := fun _ _ => inferInstanceAs (Decidable (_ → _ → _))

instance (factsOf : FactsOf) (defs : ChannelDefinitions) : Decidable (UniqueFeeds factsOf defs) :=
  inferInstanceAs (Decidable (∀ _ ∈ _, ∀ _ ∈ _, _))

variable {factsOf : FactsOf} {defs : ChannelDefinitions} {t : ObservationTally} {f : ℕ}
lemma FeedsApart.symm {e e' : DefinitionEntry} (h : FeedsApart factsOf e e') : FeedsApart factsOf e' e :=
  fun hne heq => (h (heq ▸ hne) heq.symm).symm

/-- No update past the threshold has the feed ID of an update of another channel, or of another
committed channel that is not voted out, whether or not the cap and the budgets let it through. -/
def FeedSafe (factsOf : FactsOf) (defs : ChannelDefinitions) (t : ObservationTally) (f : ℕ) : Prop :=
  ∀ v ∈ passingUpdates t f, (∀ w ∈ passingUpdates t f, FeedsApart factsOf (entryOf v) (entryOf w)) ∧
    ∀ e ∈ defs.entries, (t.removeChannelVotesByID.get? e.1).getD 0 ≤ f → FeedsApart factsOf (entryOf v) e

instance (factsOf : FactsOf) (defs : ChannelDefinitions) (t : ObservationTally) (f : ℕ) :
    Decidable (FeedSafe factsOf defs t f) := inferInstanceAs (Decidable (∀ _ ∈ _, _ ∧ _))

/-- A definition after the votes is a kept one or that of an update. -/
lemma kept_or_update {e : DefinitionEntry} (h : e ∈ (mergedDefinitions factsOf defs t f).entries) :
    (e ∈ defs.entries ∧ (t.removeChannelVotesByID.get? e.1).getD 0 ≤ f) ∨ ∃ v ∈ passingUpdates t f, entryOf v = e := by
  obtain ⟨S,hS,hmerged⟩ := foldl_installUpdate_sublist factsOf (passingUpdates t f) (applyRemovals defs t f)
  rw [mergedDefinitions,hmerged] at h
  rcases mem_entries_insertMany h with hkept | hnew
  · rw [← get?_eq_some_iff,applyRemovals,get?_filter,Option.filter_eq_some_iff,get?_eq_some_iff] at hkept
    exact .inl ⟨hkept.1,of_decide_eq_true hkept.2⟩
  · obtain ⟨v,hv,hentry⟩ := List.mem_map.1 hnew
    exact .inr ⟨v,hS.subset hv,hentry⟩

lemma FeedSafe.uniqueFeeds_merged (hsafe : FeedSafe factsOf defs t f) (h : UniqueFeeds factsOf defs) :
    UniqueFeeds factsOf (mergedDefinitions factsOf defs t f) := by
  intro e he e' he'
  rcases kept_or_update he with ⟨hkept,hleft⟩ | ⟨v,hv,rfl⟩
  · rcases kept_or_update he' with ⟨hkept',-⟩ | ⟨w,hw,rfl⟩
    · exact h e hkept e' hkept'
    · exact ((hsafe w hw).2 e hkept hleft).symm
  · rcases kept_or_update he' with ⟨hkept',hleft'⟩ | ⟨w,hw,rfl⟩
    · exact (hsafe v hv).2 e' hkept' hleft'
    · exact (hsafe v hv).1 w hw

namespace Run
variable {I : Instance M} (run : Run I)
def OneBuild (factsOf : FactsOf) : Prop := ∀ n, n < run.len → (run.input (n + 1)).1.factsOf = factsOf

def FeedSafeRound (factsOf : FactsOf) (n : ℕ) : Prop :=
  ∀ obs, run.Decoded n obs → (run.out (n + 1)).lifeCycleStage ≠ .retired →
    FeedSafe factsOf (run.state n).channelDefinitions (.ofObservations I.config I.libs obs) I.config.f

variable {run}
lemma FeedSafeRound.uniqueFeeds_step {factsOf : FactsOf} (hbuild : run.OneBuild factsOf) {n : ℕ} (hn : 1 ≤ n)
    (hlen : n < run.len) (hsafe : run.FeedSafeRound factsOf n)
    (h : UniqueFeeds factsOf (run.state n).channelDefinitions) :
    UniqueFeeds factsOf (run.state (n + 1)).channelDefinitions := by
  obtain ⟨obs,hobs,_,hdefs⟩ := run.later_decoded hn hlen
  rw [hbuild n hlen] at hdefs
  by_cases hstage : (run.out (n + 1)).lifeCycleStage = .retired
  · simp only [nextDefinitions,hstage,ne_eq,not_true_eq_false,false_and,if_false] at hdefs
    rw [← Except.ok.inj hdefs]
    exact h
  · rw [nextDefinitions_of_not_retired hstage] at hdefs
    rw [applyChannelVotes_eq hdefs]
    exact (hsafe obs hobs hstage).uniqueFeeds_merged h

/-- Along every run whose rounds are safe, the committed channels have distinct feed IDs. -/
theorem uniqueFeeds_of_feedSafe {factsOf : FactsOf} (hbuild : run.OneBuild factsOf)
    (hsafe : ∀ n, 1 ≤ n → n < run.len → run.FeedSafeRound factsOf n) :
    ∀ n, 1 ≤ n → n ≤ run.len → UniqueFeeds factsOf (run.state n).channelDefinitions := by
  intro n hn hlen
  refine run.invariant_from (P := fun k => UniqueFeeds factsOf (run.state k).channelDefinitions) ?_
    (fun k hk hklen ih => (hsafe k hk hklen).uniqueFeeds_step hbuild hk hklen ih) n hn hlen
  rw [(run.first (by omega)).2.2.1]
  exact fun e he => absurd he List.not_mem_nil

/-- The channel votes of an observation are those of an honest oracle whose wanted
definitions pass admission as a whole. -/
def VotesFromAdmitted (factsOf : FactsOf) (n : ℕ) (obs : Observation) : Prop :=
  ∃ wanted votes, admissibleChannelDefinitions I.libs factsOf (run.state n).channelDefinitions wanted =
      .ok (wanted,[],none) ∧
    voteOnChannels I.libs factsOf (run.state n).channelDefinitions wanted = .ok votes ∧
    obs.removeChannelIDs = .setOf votes.1 ∧ obs.updateChannelDefinitions = votes.2

end Run

def feedJSON : JSON := .ofPremium [(.evmOpts 0 7 [],⟨⟨0,0⟩,0,7,none,0⟩),(.evmOpts 0 8 [],⟨⟨0,0⟩,0,8,none,0⟩)]

variable (feed : ℕ)
def feedChannel : ChannelDefinition :=
  ⟨.evmPremiumLegacy,[⟨1,.median⟩,⟨2,.median⟩,⟨3,.quote⟩],(JSONText.evmOpts 0 feed []).bytes,false,0,false⟩

def feedLibs : Libs := ⟨feedJSON,fromTable [],digest⟩

def wantedFeeds : ℕ → ChannelDefinitions
  | 2 => .ofList [(1,feedChannel 7)]
  | _ => .ofList [(2,feedChannel feed)]

def feedMessage (n : ℕ) : ObservationProto :=
  { timestampMessage (n * 10 ^ 9) [.evmPremiumLegacy] with
    updateChannelDefinitions := (wantedFeeds feed n).mapVal (fun _ cd => some cd) }

def feedInstance : Instance Unit := smallInstance feedLibs (wireOf [feedMessage feed 2,feedMessage feed 3] [] [])

def feedNode : Node := nodeWithAllCodecs feedLibs none

def feedObservations : ℕ → List AttributedObservation
  | 1 => fromThree []
  | n => fromThree (frameObservation [] (marshalObservation (feedMessage feed n)))

/-- Channel 2 comes with the feed ID of channel 1. -/
def sameFeedRun : Run (feedInstance 7) := .ofExecution _ feedNode (feedObservations 7) 3 (by decide +kernel)

/-- Channel 2 comes with its own feed ID. -/
def otherFeedRun : Run (feedInstance 8) := .ofExecution _ feedNode (feedObservations 8) 3 (by decide +kernel)

/-- What the three oracles of round `n + 1` sent. -/
def feedObservation (n : ℕ) : Observation :=
  { Observation.empty with
    observationTimestampNanoseconds := (n + 1) * 10 ^ 9
    updateChannelDefinitions := wantedFeeds feed (n + 1)
    supportedReportFormats := {.evmPremiumLegacy} }

variable {n : ℕ}
lemma sameFeedRun_decoded (h : n = 1 ∨ n = 2) :
    sameFeedRun.Decoded n [(0,feedObservation 7 n),(1,feedObservation 7 n),(2,feedObservation 7 n)] := by
  unfold Run.Decoded
  rcases h with rfl | rfl
  all_goals decide +kernel

lemma sameFeedRun_votesFromAdmitted (h : n = 1 ∨ n = 2) :
    sameFeedRun.VotesFromAdmitted feedNode.factsOf n (feedObservation 7 n) := by
  refine ⟨wantedFeeds 7 (n + 1),([],wantedFeeds 7 (n + 1)),?_,?_,rfl,rfl⟩
  all_goals rcases h with rfl | rfl
  all_goals decide +kernel

/-- All oracles are honest, and in each round the definitions they want pass admission as a
whole. After round 3 channels 1 and 2 share the feed ID 7. -/
theorem feed_shared_with_omitted_channel :
    sameFeedRun.OneBuild feedNode.factsOf ∧
      (∀ n, n = 1 ∨ n = 2 → ∃ obs, sameFeedRun.Decoded n obs ∧
        ∀ ao ∈ obs, sameFeedRun.VotesFromAdmitted feedNode.factsOf n ao.2) ∧
      (sameFeedRun.state 3).channelDefinitions = .ofList [(1,feedChannel 7),(2,feedChannel 7)] ∧
      ¬ UniqueFeeds feedNode.factsOf (sameFeedRun.state 3).channelDefinitions := by
  have hdefs : (sameFeedRun.state 3).channelDefinitions = .ofList [(1,feedChannel 7),(2,feedChannel 7)] := by
    decide +kernel
  refine ⟨fun _ _ => rfl,fun n hn => ⟨_,sameFeedRun_decoded hn,?_⟩,hdefs,fun hunique => ?_⟩
  · intro ao hao
    simp only [List.mem_cons,List.not_mem_nil,or_false] at hao
    rcases hao with rfl | rfl | rfl
    all_goals exact sameFeedRun_votesFromAdmitted hn
  · rw [hdefs] at hunique
    exact absurd hunique (by decide +kernel)

lemma otherFeedRun_feedSafe (h : n = 1 ∨ n = 2) : otherFeedRun.FeedSafeRound feedNode.factsOf n := by
  have hdecoded : otherFeedRun.Decoded n [(0,feedObservation 8 n),(1,feedObservation 8 n),(2,feedObservation 8 n)] := by
    rcases h with rfl | rfl
    all_goals exact (Go.eq_ok_getD (by decide +kernel) []).trans (congrArg Except.ok (by decide +kernel))
  intro obs hobs _
  cases hdecoded.symm.trans hobs
  rcases h with rfl | rfl
  all_goals decide +kernel

theorem uniqueFeeds_otherFeedRun :
    (otherFeedRun.state 3).channelDefinitions = .ofList [(1,feedChannel 7),(2,feedChannel 8)] ∧
      UniqueFeeds feedNode.factsOf (otherFeedRun.state 3).channelDefinitions :=
  ⟨by decide +kernel,Run.uniqueFeeds_of_feedSafe (fun _ _ => rfl)
    (fun n hn hlen => otherFeedRun_feedSafe (by have : n < 3 := hlen; omega)) 3 (by decide) le_rfl⟩

end DataStreams.V31
