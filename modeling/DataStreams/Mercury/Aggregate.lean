import DataStreams.Foundation.Fault
import DataStreams.Foundation.Rank
import Mathlib.Data.List.Dedup

/-! Consensus on values that observations may lack. -/
namespace DataStreams.Mercury
open List
variable {α : Type}
def getConsensusTimestamp (getTimestamp : α → ℕ) (paos : List α) : Go ℕ :=
  Go.index ((paos.map getTimestamp).insertionSort (· ≤ ·)) (paos.length / 2)

/-- The median of the valid values, which is the higher one if there are two. The sum `f + 1`
is one of 64 bits. -/
def consensusMedian (what : String) (get : α → Option ℤ) (paos : List α) (f : ℤ) : Go ℤ :=
  let valid := paos.filterMap get
  if valid.length < (f + 1).bmod (2 ^ 64) then
    Go.err s!"fewer than f+1 observations have a valid {what} (got: {valid.length}/{paos.length})"
  else Go.index (valid.insertionSort (· ≤ ·)) (valid.length / 2)

def getConsensusBenchmarkPrice (getBenchmarkPrice : α → Option ℤ) (paos : List α) (f : ℤ) : Go ℤ :=
  consensusMedian "price" getBenchmarkPrice paos f

def getConsensusBid (getBid : α → Option ℤ) (paos : List α) (f : ℤ) : Go ℤ := consensusMedian "price" getBid paos f

def getConsensusAsk (getAsk : α → Option ℤ) (paos : List α) (f : ℤ) : Go ℤ := consensusMedian "price" getAsk paos f

def getConsensusLinkFee (getLinkFee : α → Option ℤ) (paos : List α) (f : ℤ) : Go ℤ :=
  consensusMedian "linkFee" (fun p => (getLinkFee p).filter (0 ≤ ·)) paos f

def getConsensusNativeFee (getNativeFee : α → Option ℤ) (paos : List α) (f : ℤ) : Go ℤ :=
  consensusMedian "nativeFee" (fun p => (getNativeFee p).filter (0 ≤ ·)) paos f

def countsText (valid : List ℤ) : String :=
  "map[" ++ " ".intercalate ((valid.dedup.insertionSort (· ≤ ·)).map fun ts => s!"{ts}:{valid.count ts}") ++ "]"

/-- The highest timestamp with more than `f` reports; -1 stands for none and is the smallest valid one. -/
def getConsensusMaxFinalizedTimestamp (getMaxFinalizedTimestamp : α → Option ℤ) (paos : List α) (f : ℤ) : Go ℤ :=
  let valid := paos.filterMap getMaxFinalizedTimestamp
  if valid.length < (f + 1).bmod (2 ^ 64) then
    Go.err s!"fewer than f+1 observations have a valid maxFinalizedTimestamp (got: {valid.length}/{paos.length})"
  else
    let maxTs := valid.dedup.foldl (fun maxTs ts => if f < valid.count ts ∧ maxTs < ts then ts else maxTs) (-2)
    if maxTs < -1 then
      let counts := countsText valid
      Go.err s!"no valid maxFinalizedTimestamp with at least f+1 votes (got counts: {counts})"
    else .ok maxTs

variable {paos paos' : List α}
lemma insertionSort_eq_of_perm {β : Type} [LinearOrder β] {l l' : List β} (h : l.Perm l') :
    l.insertionSort (· ≤ ·) = l'.insertionSort (· ≤ ·) := by
  have hperm := (perm_insertionSort (· ≤ ·) l).trans (h.trans (perm_insertionSort (· ≤ ·) l').symm)
  exact hperm.eq_of_pairwise' sortedLE_insertionSort.pairwise sortedLE_insertionSort.pairwise

lemma getConsensusTimestamp_perm (getTimestamp : α → ℕ) (h : paos.Perm paos') :
    getConsensusTimestamp getTimestamp paos = getConsensusTimestamp getTimestamp paos' := by
  rw [getConsensusTimestamp,getConsensusTimestamp,insertionSort_eq_of_perm (h.map _),h.length_eq]

lemma consensusMedian_perm (what : String) (get : α → Option ℤ) (f : ℤ) (h : paos.Perm paos') :
    consensusMedian what get paos f = consensusMedian what get paos' f := by
  have hvalid := h.filterMap get
  simp only [consensusMedian,hvalid.length_eq,h.length_eq,insertionSort_eq_of_perm hvalid]

lemma getConsensusMaxFinalizedTimestamp_perm (get : α → Option ℤ) (f : ℤ) (h : paos.Perm paos') :
    getConsensusMaxFinalizedTimestamp get paos f = getConsensusMaxFinalizedTimestamp get paos' f := by
  have hvalid := h.filterMap get
  have hcount : ∀ ts, (paos.filterMap get).count ts = (paos'.filterMap get).count ts := hvalid.count_eq
  have htext : countsText (paos.filterMap get) = countsText (paos'.filterMap get) := by
    simp only [countsText,insertionSort_eq_of_perm hvalid.dedup,hcount]
  have hfold := hvalid.dedup.foldl_eq' (f := fun (maxTs ts : ℤ) =>
      if f < (paos'.filterMap get).count ts ∧ maxTs < ts then ts else maxTs)
    (fun a _ b _ m => by split_ifs <;> omega) (-2)
  simp only [getConsensusMaxFinalizedTimestamp,hvalid.length_eq,h.length_eq,hcount,hfold,htext]

variable {what what' : String} {f m : ℤ} {get : α → Option ℤ}
lemma consensusMedian_eq_ok (h : consensusMedian what get paos f = .ok m) :
    ((paos.filterMap get).insertionSort (· ≤ ·))[(paos.filterMap get).length / 2]? = some m := by
  unfold consensusMedian at h
  dsimp only at h
  split_ifs at h
  · exact absurd h (Go.err_ne_ok _ _)
  · unfold Go.index at h
    split at h
    next hm => rw [hm,Except.ok.inj h]
    next => exact absurd h (Go.panics_ne_ok _ _)

/-- With an honest majority the median lies between two honest values. -/
lemma consensusMedian_between {honest : α → Bool} (h : consensusMedian what get paos f = .ok m)
    (hmajority : ((paos.filter fun p => !honest p).filterMap get).length < ((paos.filter honest).filterMap get).length) :
    (∃ p ∈ paos, honest p = true ∧ ∃ a ∈ get p, a ≤ m) ∧ ∃ p ∈ paos, honest p = true ∧ ∃ a ∈ get p, m ≤ a := by
  let s := (paos.filterMap get).insertionSort (· ≤ ·)
  have hsort : s.Perm (paos.filterMap get) := perm_insertionSort _ _
  have hsplit := (filter_append_perm honest paos).symm.filterMap get
  rw [filterMap_append] at hsplit
  have hperm := hsort.trans hsplit
  have hlen := hperm.length_eq
  rw [length_append] at hlen
  obtain ⟨m',hm',hlow,hhigh⟩ := Rank.between_correct (f := id) hperm le_rfl (by omega) sortedLE_insertionSort.pairwise
  have hm := consensusMedian_eq_ok h
  rw [← hsort.length_eq] at hm
  cases hm'.symm.trans hm
  have hmem : ∀ a ∈ (paos.filter honest).filterMap get, ∃ p ∈ paos, honest p = true ∧ a ∈ get p := by
    intro a ha
    obtain ⟨p,hp,ha⟩ := mem_filterMap.1 ha
    exact ⟨p,(mem_filter.1 hp).1,(mem_filter.1 hp).2,ha⟩
  constructor
  · obtain ⟨a,ha,hle⟩ := hlow
    obtain ⟨p,hp,hhonest,hget⟩ := hmem a ha
    exact ⟨p,hp,hhonest,a,hget,hle⟩
  · obtain ⟨a,ha,hle⟩ := hhigh
    obtain ⟨p,hp,hhonest,hget⟩ := hmem a ha
    exact ⟨p,hp,hhonest,a,hget,hle⟩

/-- Medians of two ordered parts of the observations are ordered. -/
lemma consensusMedian_le {β : Type} {part : α → Option β} {low high : β → ℤ} {a b : ℤ} (hle : ∀ x, low x ≤ high x)
    (ha : consensusMedian what (fun p => (part p).map low) paos f = .ok a)
    (hb : consensusMedian what' (fun p => (part p).map high) paos f = .ok b) : a ≤ b := by
  let xs := paos.filterMap part
  have hsorted : ∀ key : β → ℤ, (xs.insertionSort fun x y => key x ≤ key y).map key = (xs.map key).insertionSort (· ≤ ·) :=
    fun key => map_insertionSort _ _ _ _ fun _ _ _ _ => Iff.rfl
  have hmiddle : ∀ {key : β → ℤ} {what : String} {m : ℤ}, consensusMedian what (fun p => (part p).map key) paos f = .ok m →
      ∃ hk : xs.length / 2 < (xs.insertionSort fun x y => key x ≤ key y).length,
        key (xs.insertionSort fun x y => key x ≤ key y)[xs.length / 2] = m := by
    intro key what m h
    have hm := consensusMedian_eq_ok h
    rw [← map_filterMap,← hsorted key,length_map,getElem?_map] at hm
    obtain ⟨x,hx,rfl⟩ := Option.map_eq_some_iff.1 hm
    obtain ⟨hk,rfl⟩ := List.getElem?_eq_some_iff.1 hx
    exact ⟨hk,rfl⟩
  obtain ⟨hka,rfl⟩ := hmiddle ha
  obtain ⟨hkb,rfl⟩ := hmiddle hb
  have hpairwise : ∀ key : β → ℤ, (xs.insertionSort fun x y => key x ≤ key y).Pairwise fun x y => key x ≤ key y := by
    intro key
    have hmap : ((xs.map key).insertionSort (· ≤ ·)).Pairwise (· ≤ ·) := sortedLE_insertionSort.pairwise
    rw [← hsorted key] at hmap
    exact pairwise_map.1 hmap
  exact Rank.rank_le_rank (perm_insertionSort _ _) (perm_insertionSort _ _) (hpairwise low) (hpairwise high)
    (fun x _ => hle x) hka hkb

end DataStreams.Mercury
