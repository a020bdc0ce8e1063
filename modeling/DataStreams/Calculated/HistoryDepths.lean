import DataStreams.Calculated.HistoryAst

/-! Every reference of an analysed expression asks for at least one record and at most the cap. -/
namespace DataStreams
open List Go
variable {L : Libs} {E : ExprLib} {p q : HistoryPatcher} {node : Node} {args : List Node} {r : Node × HistoryPatcher}
def RefsWithin (refs : List HistoryRef) : Prop :=
  ∀ ref ∈ refs, 1 ≤ ref.count ∧ ref.count ≤ maxHistoryRecordsPerPair

lemma RefsWithin.append {refs : List HistoryRef} (h : RefsWithin refs) {ref : HistoryRef} (hlo : 1 ≤ ref.count)
    (hhi : ref.count ≤ maxHistoryRecordsPerPair) : RefsWithin (refs ++ [ref]) := by
  intro a ha
  rcases mem_append.1 ha with ha | ha
  · exact h a ha
  · rw [mem_singleton.1 ha]
    exact ⟨hlo,hhi⟩

lemma rewriteHistory_refsWithin (h : rewriteHistory p node args = .ok r) (hp : RefsWithin p.refs) :
    RefsWithin r.2.refs := by
  unfold rewriteHistory at h
  split_ifs at h with hlen
  · cases h
    exact hp
  obtain ⟨streamArg,_,h⟩ := bind_ok_iff.1 h
  split at h
  · split at h
    · cases h
      exact hp
    split_ifs at h
    · cases h
      exact hp
    split at h
    · cases h
      exact hp
    · cases h
      exact hp
    obtain ⟨depthArg,_,h⟩ := bind_ok_iff.1 h
    split at h
    · next depth =>
      dsimp only at h
      split_ifs at h with hlow hhigh hfan
      · cases h
        exact hp
      · cases h
        exact hp
      · cases h
        exact hp
      · cases h
        exact hp.append (by dsimp only; omega) (by dsimp only; omega)
    · cases h
      exact hp
  · cases h
    exact hp

lemma checkLiteralConfig_refs {pairs : List Node} (h : checkLiteralConfig L E p pairs = .ok q) : q.refs = p.refs := by
  unfold checkLiteralConfig at h
  split at h
  · cases h
    rfl
  · cases h
    rfl
  · split at h <;> cases h <;> rfl

lemma checkTWAP_refs (h : checkTWAP L E p args = .ok q) : q.refs = p.refs := by
  unfold checkTWAP at h
  dsimp only at h
  split_ifs at h
  · cases h
    rfl
  · cases h
    rfl
  obtain ⟨source,_,h⟩ := bind_ok_iff.1 h
  obtain ⟨config,_,h⟩ := bind_ok_iff.1 h
  split at h
  · split at h
    · split_ifs at h
      · cases h
        rfl
      · cases h
        rfl
      · have hliteral := checkLiteralConfig_refs h
        exact hliteral
    · have hliteral := checkLiteralConfig_refs h
      exact hliteral
  · cases h
    rfl

lemma checkWindowDepth_refs {name : Text} (h : checkWindowDepth p name args = .ok q) : q.refs = p.refs := by
  unfold checkWindowDepth at h
  split at h
  · cases h
    rfl
  split_ifs at h
  · cases h
    rfl
  obtain ⟨source,_,h⟩ := bind_ok_iff.1 h
  split at h
  · split_ifs at h <;> cases h <;> rfl
  · cases h
    rfl

lemma checkRoundPrecision_refs {callee : Text} (h : checkRoundPrecision p callee args = .ok q) : q.refs = p.refs := by
  unfold checkRoundPrecision at h
  split_ifs at h
  · obtain ⟨arg,_,h⟩ := bind_ok_iff.1 h
    split at h
    · split_ifs at h <;> cases h <;> rfl
    · cases h
      rfl
  · cases h
    rfl

lemma visitRange_refs {callee : Text} (h : visitRange L E callee args p = .ok q) : q.refs = p.refs := by
  unfold visitRange at h
  split_ifs at h with hrange htwap
  · obtain ⟨_,hcheck,h⟩ := bind_ok_iff.1 h
    have htwapRefs := checkTWAP_refs hcheck
    exact (checkWindowDepth_refs h).trans htwapRefs
  · obtain ⟨_,happroved,h⟩ := bind_ok_iff.1 h
    cases happroved
    have hdepthRefs := checkWindowDepth_refs h
    exact hdepthRefs
  · cases h
    rfl

/-- No node adds a reference deeper than the limit. -/
lemma visit_refsWithin (h : visit L E node p = .ok r) (hp : RefsWithin p.refs) : RefsWithin r.2.refs := by
  unfold visit at h
  split at h
  · dsimp only at h
    split_ifs at h <;> cases h <;> exact hp
  · cases h
    exact hp
  · split at h
    · split at h <;> cases h <;> exact hp
    · cases h
      exact hp
  · split_ifs at h
    · exact rewriteHistory_refsWithin h hp
    · obtain ⟨_,hround,h⟩ := bind_ok_iff.1 h
      obtain ⟨_,hrange,h⟩ := bind_ok_iff.1 h
      cases h
      rw [visitRange_refs hrange,checkRoundPrecision_refs hround]
      exact hp
  · cases h
    exact hp

mutual
lemma walk_refsWithin (L : Libs) (E : ExprLib) : ∀ (node : Node) (p : HistoryPatcher) {r : Node × HistoryPatcher},
    walk L E node p = .ok r → RefsWithin p.refs → RefsWithin r.2.refs
  | .unary op x, p, r => by
    intro h hp
    simp only [walk] at h
    obtain ⟨_,hx,h⟩ := bind_ok_iff.1 h
    exact visit_refsWithin h (walk_refsWithin L E x p hx hp)
  | .call callee args, p, r => by
    intro h hp
    simp only [walk] at h
    obtain ⟨c,hcallee,h⟩ := bind_ok_iff.1 h
    obtain ⟨_,hargs,h⟩ := bind_ok_iff.1 h
    exact visit_refsWithin h (walkAll_refsWithin L E args c.2 hargs (walk_refsWithin L E callee p hcallee hp))
  | .map pairs, p, r => by
    intro h hp
    simp only [walk] at h
    obtain ⟨_,hpairs,h⟩ := bind_ok_iff.1 h
    exact visit_refsWithin h (walkAll_refsWithin L E pairs p hpairs hp)
  | .pair key value, p, r => by
    intro h hp
    simp only [walk] at h
    obtain ⟨k,hkey,h⟩ := bind_ok_iff.1 h
    obtain ⟨_,hvalue,h⟩ := bind_ok_iff.1 h
    exact visit_refsWithin h (walk_refsWithin L E value k.2 hvalue (walk_refsWithin L E key p hkey hp))
  | .variableDeclarator name value body, p, r => by
    intro h hp
    simp only [walk] at h
    obtain ⟨v,hvalue,h⟩ := bind_ok_iff.1 h
    obtain ⟨_,hbody,h⟩ := bind_ok_iff.1 h
    exact visit_refsWithin h (walk_refsWithin L E body v.2 hbody (walk_refsWithin L E value p hvalue hp))
  | .other children, p, r => by
    intro h hp
    simp only [walk] at h
    obtain ⟨_,hchildren,h⟩ := bind_ok_iff.1 h
    exact visit_refsWithin h (walkAll_refsWithin L E children p hchildren hp)
  | .identifier _, p, r => visit_refsWithin
  | .window _ _, p, r => visit_refsWithin
  | .integer _, p, r => visit_refsWithin
  | .float _, p, r => visit_refsWithin
  | .string _, p, r => visit_refsWithin

lemma walkAll_refsWithin (L : Libs) (E : ExprLib) :
    ∀ (nodes : List Node) (p : HistoryPatcher) {r : List Node × HistoryPatcher},
      walkAll L E nodes p = .ok r → RefsWithin p.refs → RefsWithin r.2.refs
  | [], p, r => by
    intro h hp
    cases h
    exact hp
  | node :: rest, p, r => by
    intro h hp
    simp only [walkAll] at h
    obtain ⟨n,hnode,h⟩ := bind_ok_iff.1 h
    obtain ⟨m,hrest,h⟩ := bind_ok_iff.1 h
    have hm := walkAll_refsWithin L E rest n.2 hrest (walk_refsWithin L E node p hnode hp)
    cases h
    exact hm
end

lemma analyzeHistoryExpression_refsWithin {expression : Text} {entry : AnalysisEntry}
    (h : analyzeHistoryExpression L E expression = .ok entry) : RefsWithin entry.refs := by
  have hnil : RefsWithin [] := fun _ ha => absurd ha not_mem_nil
  unfold analyzeHistoryExpression at h
  split_ifs at h
  · cases h
    exact hnil
  split at h
  · cases h
    exact hnil
  obtain ⟨r,hwalk,h⟩ := bind_ok_iff.1 h
  dsimp only at h
  split_ifs at h
  · cases h
    exact hnil
  · cases h
    intro ref href
    rw [HistoryPatcher.sortedRefs,mem_insertionSort,mem_dedup] at href
    exact walk_refsWithin L E _ _ hwalk hnil ref href

end DataStreams
