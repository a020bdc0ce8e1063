import DataStreams.V31.Committed

/-! Runs whose observations passed validation, on one build (v31). -/
namespace DataStreams.V31
open SortedMap
variable {M : Type} {I : Instance M}
namespace Run
/-- All oracles run one build, and every observation a round used had passed validation in
that round on some oracle. -/
structure Validated (run : Run I) (codecs : ReportCodecs) : Prop where
  build : ∀ n, 1 ≤ n → n < run.len → ∃ cache : ChannelAnalysisCache, cache.Reachable I.libs.json codecs ∧
    (run.input (n + 1)).1.factsOf = channelFactsFor I.libs.json codecs cache
  validated : ∀ n, 1 ≤ n → n < run.len → ∀ ao ∈ (run.input (n + 1)).2,
    ∃ (fetcher : BlobFetcher) (cache : ChannelAnalysisCache), cache.Reachable I.libs.json codecs ∧
      validateObservation I.config I.libs I.wire fetcher (channelFactsFor I.libs.json codecs cache)
        (run.state n).channelDefinitions (n + 1) ao.observation = .ok ()

variable {run : Run I} {codecs : ReportCodecs}
variable {n : ℕ}
lemma definitions_inv (run : Run I) (hn : 1 ≤ n) (hlen : n < run.len) :
    ∃ obs, run.Decoded n obs ∧
      ((run.state (n + 1)).channelDefinitions = (run.state n).channelDefinitions ∨
        ((decideRound I (run.state n) (.ofObservations I.config I.libs obs)).stage ≠ .retired ∧
          (ObservationTally.ofObservations I.config I.libs obs).hasChannelVotes = true ∧
          applyChannelVotes (run.input (n + 1)).1.factsOf (run.state n).channelDefinitions
            (.ofObservations I.config I.libs obs) I.config.f = .ok (run.state (n + 1)).channelDefinitions)) := by
  obtain ⟨obs,hobs,hround,hdefs⟩ := run.later_decoded hn hlen
  refine ⟨obs,hobs,?_⟩
  rw [nextDefinitions,hround.stage] at hdefs
  split_ifs at hdefs with happly
  · exact .inr ⟨happly.1,happly.2,hdefs⟩
  · exact .inl (Except.ok.inj hdefs).symm

lemma withinBudget_empty : WithinBudget ∅ := ⟨Nat.zero_le _,Nat.zero_le _⟩

lemma withinBudget (run : Run I) (hn : 1 ≤ n) (hlen : n ≤ run.len) :
    WithinBudget (run.state n).channelDefinitions := by
  refine run.invariant_from (m := 1) (P := fun n => WithinBudget (run.state n).channelDefinitions) ?_ ?_ n hn hlen
  · rw [(run.first (by omega)).2.2.1]
    exact withinBudget_empty
  · intro k hk hlen ih
    obtain ⟨obs,_,hsame | ⟨_,_,happly⟩⟩ := run.definitions_inv hk hlen
    · rw [hsame]
      exact ih
    · exact (applyChannelVotes_inv happly ih).1

variable (hv : run.Validated codecs) (hn : 1 ≤ n)
include hv hn

lemma Validated.definitionOk (hlen : n < run.len)
    {obs : List Attributed} (hobs : run.Decoded n obs) {v : UpdateVote}
    (hmem : v ∈ passingUpdates (.ofObservations I.config I.libs obs) I.config.f) :
    DefinitionOk (deriveChannelFacts I.libs.json codecs) v.channelID v.definition := by
  obtain ⟨ao,hao,hentry⟩ := mem_passingUpdates hmem
  obtain ⟨raw,hraw,hdecode⟩ := (Go.mapM_ok hobs).2 ao hao
  obtain ⟨o,ho,hpair⟩ := Go.bind_ok_iff.1 hdecode
  cases Except.ok.inj hpair
  obtain ⟨fetcher,cache,hcache,hvalid⟩ := hv.validated n hn hlen raw hraw
  rw [hcache.channelFactsFor_eq] at hvalid
  exact definitionOk_of_validateObservation (by omega) hvalid ho hentry

lemma Validated.definitionsOk (hlen : n ≤ run.len) :
    DefinitionsOk (deriveChannelFacts I.libs.json codecs) (run.state n).channelDefinitions := by
  refine run.invariant_from (m := 1) (P := fun n =>
    DefinitionsOk (deriveChannelFacts I.libs.json codecs) (run.state n).channelDefinitions) ?_ ?_ n hn hlen
  · rw [(run.first (by omega)).2.2.1]
    exact fun e he => absurd he List.not_mem_nil
  · intro k hk hlen ih
    obtain ⟨obs,hobs,hsame | ⟨_,_,happly⟩⟩ := run.definitions_inv hk hlen
    · rw [hsame]
      exact ih
    · obtain ⟨_,S,hS,hdefs⟩ := applyChannelVotes_inv happly (run.withinBudget hk (by omega))
      intro e he
      rw [hdefs] at he
      rcases mem_entries_insertMany he with he | he
      · rw [applyRemovals,← get?_eq_some_iff,get?_filter,Option.filter_eq_some_iff] at he
        exact ih e (get?_eq_some_iff.1 he.1)
      · obtain ⟨v,hmem,rfl⟩ := List.mem_map.1 he
        exact hv.definitionOk hk hlen hobs (hS.subset hmem)

/-- Only a backfill can make a committed set fail verification. -/
lemma Validated.verify_iff (hlen : n ≤ run.len) :
    verifyChannelDefinitions I.libs (deriveChannelFacts I.libs.json codecs) (run.state n).channelDefinitions = .ok () ↔
      BackfillsOk I.libs.json (run.state n).channelDefinitions := by
  rw [verifyChannelDefinitions_ok_iff]
  exact ⟨fun h => h.2.1,fun h => ⟨hv.definitionsOk hn hlen,h,(run.withinBudget hn hlen).withinLimits⟩⟩

end Run
end DataStreams.V31
