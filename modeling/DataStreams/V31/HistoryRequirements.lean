import DataStreams.V31.History

/-! Which history a round requires: the deepest window that any live channel's expressions ask
for. -/
namespace DataStreams.V31
open List SortedMap

structure HistoryRequirements where
  depths : SortedMap HistKey ℕ
  denied : List HistKey
  deriving DecidableEq

/-- The deepest request counts. -/
def requireDepth (required : SortedMap HistKey ℕ) (k : HistKey) (n : ℕ) : SortedMap HistKey ℕ :=
  if n > (required.get? k).getD 0 then required.insert k n else required

/-- A stream the channel does not observe is passed over. -/
def requireRef (aggByStream : List (StreamID × Aggregator)) (required : SortedMap HistKey ℕ) (ref : HistoryRef) :
    SortedMap HistKey ℕ :=
  match aggByStream.lookup ref.streamID with
  | none => required
  | some aggregator => requireDepth required ⟨ref.streamID,aggregator.code⟩ ref.count

def requireExpression (L : Libs) (E : ExprLib) (aggByStream : List (StreamID × Aggregator))
    (required : SortedMap HistKey ℕ) (expression : Text) : Go (SortedMap HistKey ℕ) := do
  let entry ← analyzeHistoryExpression L E expression
  match entry.err with
  | some _ => .ok required
  | none => .ok (entry.refs.foldl (requireRef aggByStream) required)

/-- Only channels with expressions read history. One that cannot be evaluated requires
none. -/
def requireChannel (L : Libs) (E : ExprLib) (opts : OptsCache) (required : SortedMap HistKey ℕ)
    (e : DefinitionEntry) : Go (SortedMap HistKey ℕ) :=
  if e.2.tombstone ∨ e.2.reportFormat ≠ .evmABIEncodeUnpackedExpr then .ok required
  else
    match aggregatorByStream e.2.streams with
    | .error _ => .ok required
    | .ok aggByStream =>
      match expressions L.json (some opts) e.2 e.1 with
      | .error _ => .ok required
      | .ok exprs => exprs.foldlM (requireExpression L E aggByStream) required

def admitPair (required : SortedMap HistKey ℕ) (out : HistoryRequirements) (k : HistKey) : HistoryRequirements :=
  if out.depths.size ≥ maxHistoryPairs then { out with denied := out.denied ++ [k] }
  else { out with depths := out.depths.insert k ((required.get? k).getD 0) }

def admitHistoryRequirements (required : SortedMap HistKey ℕ) (incumbents : List HistKey) : HistoryRequirements :=
  let held := (incumbents.filter (fun k => required.contains k)).insertionSort (· ≤ ·)
  let newcomers := required.keys.filter (fun k => k ∉ held)
  (held ++ newcomers).foldl (admitPair required) ⟨∅,[]⟩

def computeHistoryRequirements (L : Libs) (E : ExprLib) (defs : ChannelDefinitions) (opts : OptsCache)
    (incumbents : List HistKey) : Go HistoryRequirements := do
  let required ← defs.entries.foldlM (requireChannel L E opts) ∅
  .ok (admitHistoryRequirements required incumbents)

namespace HistoryRequirements
def requires (r : HistoryRequirements) (k : HistKey) : Bool := r.depths.contains k

end HistoryRequirements

def observedAt (obsTs : ℕ) : StreamValue → ℕ
  | .timestamped t _ => t
  | _ => obsTs

structure HistoryRequirements.Admits (required : SortedMap HistKey ℕ) (r : HistoryRequirements) : Prop where
  depth : ∀ k d, r.depths.get? k = some d → required.get? k = some d
  size_le : r.depths.size ≤ maxHistoryPairs

lemma HistoryRequirements.Admits.admitPair {required : SortedMap HistKey ℕ} {r : HistoryRequirements}
    {k : HistKey} (h : r.Admits required) (hk : required.contains k = true) :
    (V31.admitPair required r k).Admits required := by
  unfold V31.admitPair
  split_ifs with hfull
  · exact ⟨h.depth,h.size_le⟩
  · refine ⟨?_,(size_insert_le _ _ _).trans (not_le.1 hfull)⟩
    intro a d hget
    rw [get?_insert] at hget
    split_ifs at hget with ha
    · obtain ⟨n,hn⟩ := contains_eq_true.1 hk
      rw [hn,Option.getD_some] at hget
      rw [ha,hn,hget]
    · exact h.depth a d hget

lemma admits_admitHistoryRequirements (required : SortedMap HistKey ℕ) (incumbents : List HistKey) :
    (admitHistoryRequirements required incumbents).Admits required := by
  have hall : ∀ l : List HistKey, (∀ k ∈ l, required.contains k = true) → ∀ r : HistoryRequirements,
      r.Admits required → (l.foldl (admitPair required) r).Admits required := by
    intro l
    induction l with
    | nil => exact fun _ _ h => h
    | cons k l ih =>
      intro hl r h
      exact ih (fun a ha => hl a (mem_cons_of_mem _ ha)) _ (h.admitPair (hl k mem_cons_self))
  refine hall _ ?_ _ ⟨nofun,Nat.zero_le _⟩
  intro k hk
  rcases mem_append.1 hk with hk | hk
  · rw [mem_insertionSort] at hk
    exact of_decide_eq_true (by simpa using (mem_filter.1 hk).2)
  · exact SortedMap.mem_keys.1 (mem_filter.1 hk).1

end DataStreams.V31
