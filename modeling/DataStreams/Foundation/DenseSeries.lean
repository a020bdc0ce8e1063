import Mathlib.Analysis.SpecialFunctions.Log.Basic

/-! A series with missing places that are filled from the values around them, on a logarithmic
scale, and the sparse list of its values. -/
namespace DataStreams.DenseSeries
open List
variable {α : Type}
/-- The places that hold a value. -/
def observed (f : ℕ → Option α) (n : ℕ) : Finset ℕ := (Finset.range n).filter fun i => (f i).isSome

def samples (f : ℕ → Option α) (n : ℕ) : ℕ := (observed f n).card

/-- The places before the first value, if there is one. -/
def headGap (f : ℕ → Option α) (n : ℕ) : ℕ :=
  ((Finset.range n).filter fun i => (observed f n).Nonempty ∧ ∀ j ∈ observed f n, i < j).card

/-- The places after the last value, if there is one. -/
def tailGap (f : ℕ → Option α) (n : ℕ) : ℕ :=
  ((Finset.range n).filter fun i => (observed f n).Nonempty ∧ ∀ j ∈ observed f n, j < i).card

/-- Pairs of places with none of the others between. -/
def adjacentPairs (S : Finset ℕ) : Finset (ℕ × ℕ) :=
  (S ×ˢ S).filter fun p => p.1 < p.2 ∧ ∀ j ∈ S, ¬(p.1 < j ∧ j < p.2)

/-- The longest run of missing places between two values. -/
def interiorGap (f : ℕ → Option α) (n : ℕ) : ℕ := (adjacentPairs (observed f n)).sup fun p => p.2 - p.1 - 1

/-- The series has exactly the values of the list, which is in ascending order. -/
structure Sparse (f : ℕ → Option α) (n : ℕ) (obs : List (ℕ × α)) : Prop where
  increasing : obs.Pairwise fun a b => a.1 < b.1
  below : ∀ o ∈ obs, o.1 < n
  agrees : ∀ i v, i < n → (f i = some v ↔ (i,v) ∈ obs)

variable {f : ℕ → Option α} {n : ℕ} {first : ℕ × α} {rest obs : List (ℕ × α)}
namespace Sparse
lemma observed_eq (h : Sparse f n obs) : observed f n = (obs.map Prod.fst).toFinset := by
  ext i
  rw [observed,Finset.mem_filter,Finset.mem_range,mem_toFinset,mem_map,Option.isSome_iff_exists]
  constructor
  · rintro ⟨hi,v,hv⟩
    exact ⟨(i,v),(h.agrees i v hi).1 hv,rfl⟩
  · rintro ⟨⟨j,v⟩,hmem,rfl⟩
    exact ⟨h.below _ hmem,v,(h.agrees _ v (h.below _ hmem)).2 hmem⟩

lemma samples_eq (h : Sparse f n obs) : samples f n = obs.length := by
  have hnodup : (obs.map Prod.fst).Nodup := by
    rw [nodup_iff_pairwise_ne,pairwise_map]
    exact h.increasing.imp fun hlt => hlt.ne
  rw [samples,h.observed_eq,toFinset_card_of_nodup hnodup,length_map]

lemma empty (h : ∀ i < n, f i = none) : Sparse f n [] := by
  refine ⟨.nil,fun o ho => absurd ho not_mem_nil,?_⟩
  intro i v hi
  rw [h i hi]
  constructor
  · intro hv
    cases hv
  · intro hv
    exact absurd hv not_mem_nil

variable {g : ℕ → Option α}
lemma congr (h : Sparse f n obs) (hg : ∀ i < n, g i = f i) : Sparse g n obs := by
  refine ⟨h.increasing,h.below,?_⟩
  intro i v hi
  rw [hg i hi]
  exact h.agrees i v hi

lemma map {β : Type} (h : Sparse f n obs) (g : α → β) : Sparse (fun i => (f i).map g) n (obs.map fun o => (o.1,g o.2)) := by
  refine ⟨pairwise_map.2 h.increasing,?_,?_⟩
  · intro o ho
    obtain ⟨o',ho',rfl⟩ := mem_map.1 ho
    exact h.below o' ho'
  · intro i v hi
    rw [Option.map_eq_some_iff,mem_map]
    constructor
    · rintro ⟨w,hw,rfl⟩
      exact ⟨(i,w),(h.agrees i w hi).1 hw,rfl⟩
    · rintro ⟨⟨j,w⟩,hmem,heq⟩
      cases heq
      exact ⟨w,(h.agrees j w hi).2 hmem,rfl⟩

variable {k : ℕ} {v : α}
lemma append (h : Sparse f n obs) (hk : k < n) (hlast : ∀ o ∈ obs, o.1 < k)
    (hg : ∀ i < n, g i = if i = k then some v else f i) : Sparse g n (obs ++ [(k,v)]) := by
  refine ⟨pairwise_append.2 ⟨h.increasing,pairwise_singleton _ _,?_⟩,?_,?_⟩
  · intro o ho o' ho'
    rw [mem_singleton.1 ho']
    exact hlast o ho
  · intro o ho
    rcases mem_append.1 ho with ho | ho
    · exact h.below o ho
    · rwa [mem_singleton.1 ho]
  · intro i w hi
    rw [hg i hi,mem_append,mem_singleton,Prod.mk.injEq]
    by_cases hik : i = k
    · rw [if_pos hik,Option.some.injEq]
      constructor
      · rintro rfl
        exact .inr ⟨hik,rfl⟩
      · rintro (hmem | ⟨-,rfl⟩)
        · exact absurd (hlast _ hmem) (not_lt.2 hik.ge)
        · rfl
    · rw [if_neg hik,h.agrees i w hi]
      exact ⟨.inl,fun hor => hor.resolve_right fun heq => hik heq.1⟩

lemma lt_of_append (h : Sparse f n (obs ++ [(k,v)])) : ∀ o ∈ obs, o.1 < k := by
  intro o ho
  exact (pairwise_append.1 h.increasing).2.2 o ho _ mem_cons_self

lemma dropLast (h : Sparse f n (obs ++ [(k,v)])) : Sparse (fun i => if i = k then none else f i) n obs := by
  refine ⟨(pairwise_append.1 h.increasing).1,fun o ho => h.below o (mem_append_left _ ho),?_⟩
  intro i w hi
  have hlast := h.lt_of_append
  by_cases hik : i = k
  · rw [if_pos hik]
    constructor
    · intro hnone
      cases hnone
    · intro hmem
      exact absurd (hlast _ hmem) (not_lt.2 hik.ge)
  · rw [if_neg hik,h.agrees i w hi,mem_append,mem_singleton,Prod.mk.injEq]
    exact ⟨fun hor => hor.resolve_right fun heq => hik heq.1,.inl⟩

lemma replace {w : α} (h : Sparse f n (obs ++ [(k,w)]))
    (hg : ∀ i < n, g i = if i = k then some v else f i) : Sparse g n (obs ++ [(k,v)]) := by
  refine h.dropLast.append (h.below (k,w) (mem_append_right _ mem_cons_self)) h.lt_of_append ?_
  intro i hi
  rw [hg i hi]
  split_ifs <;> rfl

lemma mem_observed (h : Sparse f n obs) {j : ℕ} : j ∈ observed f n ↔ ∃ o ∈ obs, o.1 = j := by
  rw [h.observed_eq,mem_toFinset,mem_map]

lemma headGap_eq (h : Sparse f n (first :: rest)) : headGap f n = first.1 := by
  have hfirst : first.1 ∈ observed f n := h.mem_observed.2 ⟨first,mem_cons_self,rfl⟩
  have hrange : ((Finset.range n).filter fun i => (observed f n).Nonempty ∧ ∀ j ∈ observed f n, i < j) =
      Finset.range first.1 := by
    ext i
    rw [Finset.mem_filter,Finset.mem_range,Finset.mem_range]
    constructor
    · rintro ⟨-,-,hall⟩
      exact hall _ hfirst
    · intro hi
      refine ⟨hi.trans (h.below _ mem_cons_self),⟨_,hfirst⟩,?_⟩
      intro j hj
      obtain ⟨o,ho,rfl⟩ := h.mem_observed.1 hj
      rcases mem_cons.1 ho with rfl | ho
      · exact hi
      · exact hi.trans ((pairwise_cons.1 h.increasing).1 o ho)
  rw [headGap,hrange,Finset.card_range]

lemma tailGap_eq (h : Sparse f n obs) {last : ℕ × α} (hlast : obs.getLast? = some last) :
    tailGap f n = n - 1 - last.1 := by
  obtain ⟨init,rfl⟩ := getLast?_eq_some_iff.1 hlast
  have hmem : last ∈ init ++ [last] := mem_append_right _ mem_cons_self
  have hobserved : last.1 ∈ observed f n := h.mem_observed.2 ⟨last,hmem,rfl⟩
  have hrange : ((Finset.range n).filter fun i => (observed f n).Nonempty ∧ ∀ j ∈ observed f n, j < i) =
      Finset.Ico (last.1 + 1) n := by
    ext i
    rw [Finset.mem_filter,Finset.mem_range,Finset.mem_Ico]
    constructor
    · rintro ⟨hi,-,hall⟩
      exact ⟨hall _ hobserved,hi⟩
    · rintro ⟨hlt,hi⟩
      refine ⟨hi,⟨_,hobserved⟩,?_⟩
      intro j hj
      obtain ⟨o,ho,rfl⟩ := h.mem_observed.1 hj
      rcases mem_append.1 ho with ho | ho
      · have := (pairwise_append.1 h.increasing).2.2 o ho last mem_cons_self
        omega
      · rw [mem_singleton.1 ho]
        omega
  rw [tailGap,hrange,Nat.card_Ico]
  omega

end Sparse

variable {a : ℕ}
lemma adjacentPairs_insert {S : Finset ℕ} {b : ℕ} (hb : b ∈ S) (hleast : ∀ j ∈ S, b ≤ j) (hab : a < b) :
    adjacentPairs (insert a S) = insert (a,b) (adjacentPairs S) := by
  have hbelow : ∀ j ∈ S, a < j := fun j hj => hab.trans_le (hleast j hj)
  ext ⟨x,y⟩
  simp only [adjacentPairs,Finset.mem_filter,Finset.mem_product,Finset.mem_insert,Prod.mk.injEq]
  constructor
  · rintro ⟨⟨hx,hy⟩,hxy,hbetween⟩
    rcases hx with rfl | hx
    · rcases hy with rfl | hy
      · exact absurd hxy (lt_irrefl _)
      · refine .inl ⟨rfl,le_antisymm ?_ (hleast y hy)⟩
        by_contra hlt
        exact hbetween b (.inr hb) ⟨hab,not_le.1 hlt⟩
    · rcases hy with rfl | hy
      · exact absurd (hbelow x hx) (by omega)
      · exact .inr ⟨⟨hx,hy⟩,hxy,fun j hj => hbetween j (.inr hj)⟩
  · rintro (⟨rfl,rfl⟩ | ⟨⟨hx,hy⟩,hxy,hbetween⟩)
    · refine ⟨⟨.inl rfl,.inr hb⟩,hab,?_⟩
      rintro j (rfl | hj)
      · omega
      · have := hleast j hj
        omega
    · refine ⟨⟨.inr hx,.inr hy⟩,hxy,?_⟩
      rintro j (rfl | hj)
      · have := hbelow x hx
        omega
      · exact hbetween j hj

def longestGap : ℕ → List ℕ → ℕ
  | _,[] => 0
  | a,b :: rest => max (b - a - 1) (longestGap b rest)

variable {places : List ℕ}
lemma adjacentPairs_cons_cons {b : ℕ} (h : (a :: b :: places).Pairwise (· < ·)) :
    adjacentPairs (a :: b :: places).toFinset = insert (a,b) (adjacentPairs (b :: places).toFinset) := by
  obtain ⟨ha,htail⟩ := pairwise_cons.1 h
  have hleast : ∀ j ∈ (b :: places).toFinset, b ≤ j := by
    intro j hj
    rcases mem_cons.1 (mem_toFinset.1 hj) with rfl | hj
    · exact le_rfl
    · exact ((pairwise_cons.1 htail).1 j hj).le
  rw [toFinset_cons,adjacentPairs_insert (mem_toFinset.2 mem_cons_self) hleast (ha b mem_cons_self)]

lemma sup_adjacentPairs (h : (a :: places).Pairwise (· < ·)) :
    (adjacentPairs (a :: places).toFinset).sup (fun p => p.2 - p.1 - 1) = longestGap a places := by
  induction places generalizing a with
  | nil => simp [adjacentPairs,longestGap]
  | cons b rest ih =>
    rw [adjacentPairs_cons_cons h,Finset.sup_insert,ih (pairwise_cons.1 h).2,longestGap]

lemma adjacentPairs_tail (h : (a :: places).Pairwise (· < ·)) :
    adjacentPairs places.toFinset ⊆ adjacentPairs (a :: places).toFinset := by
  intro p hp
  rw [adjacentPairs,Finset.mem_filter,Finset.mem_product] at hp ⊢
  obtain ⟨⟨hx,hy⟩,hxy,hbetween⟩ := hp
  rw [toFinset_cons]
  refine ⟨⟨Finset.mem_insert_of_mem hx,Finset.mem_insert_of_mem hy⟩,hxy,?_⟩
  intro j hj
  rcases Finset.mem_insert.1 hj with rfl | hj
  · have := (pairwise_cons.1 h).1 p.1 (mem_toFinset.1 hx)
    omega
  · exact hbetween j hj

lemma isChain_adjacent (h : places.Pairwise (· < ·)) :
    places.IsChain fun a b => (a,b) ∈ adjacentPairs places.toFinset := by
  induction places with
  | nil => exact .nil
  | cons a rest ih =>
    have htail := (pairwise_cons.1 h).2
    have hmono := (ih htail).imp fun x y hxy => adjacentPairs_tail h hxy
    cases rest with
    | nil => exact .singleton a
    | cons b rest =>
      refine .cons_cons ?_ hmono
      rw [adjacentPairs_cons_cons h]
      exact Finset.mem_insert_self _ _

lemma Sparse.isChain (h : Sparse f n obs) : obs.IsChain fun a b => (a.1,b.1) ∈ adjacentPairs (observed f n) := by
  have hplaces := isChain_adjacent (pairwise_map (f := Prod.fst) (R := (· < ·)).2 h.increasing)
  rw [h.observed_eq]
  exact (isChain_map _).1 hplaces

lemma Sparse.of_nil (h : Sparse f n []) : observed f n = ∅ := by
  rw [h.observed_eq]
  rfl

lemma Sparse.interiorGap_eq (h : Sparse f n (first :: rest)) :
    interiorGap f n = longestGap first.1 (rest.map Prod.fst) := by
  have hplaces : (first.1 :: rest.map Prod.fst).Pairwise (· < ·) := by
    have hmap := pairwise_map (f := Prod.fst) (R := (· < ·)).2 h.increasing
    rwa [map_cons] at hmap
  rw [interiorGap,h.observed_eq,map_cons,sup_adjacentPairs hplaces]

/-- The last value before a place. -/
def lastBefore (f : ℕ → Option ℝ) : ℕ → Option (ℕ × ℝ)
  | 0 => none
  | i + 1 =>
    match f i with
    | some p => some (i,p)
    | none => lastBefore f i

/-- The first value among so many places from a place on. -/
def firstFrom (f : ℕ → Option ℝ) : ℕ → ℕ → Option (ℕ × ℝ)
  | _,0 => none
  | i,k + 1 =>
    match f i with
    | some p => some (i,p)
    | none => firstFrom f (i + 1) k

/-- The value on the logarithmic line through two values. -/
noncomputable def interpolate (left right : ℕ × ℝ) (i : ℕ) : ℝ :=
  Real.exp (Real.log left.2 + (Real.log right.2 - Real.log left.2) * (((i : ℝ) - left.1) / ((right.1 : ℝ) - left.1)))

/-- The filled series. A series without values stays empty. -/
noncomputable def fill (f : ℕ → Option ℝ) (n i : ℕ) : ℝ :=
  match f i with
  | some p => p
  | none =>
    match lastBefore f i,firstFrom f (i + 1) (n - (i + 1)) with
    | none,some right => right.2
    | some left,none => left.2
    | some left,some right => interpolate left right i
    | none,none => 0

noncomputable def mean (f : ℕ → Option ℝ) (n : ℕ) : ℝ := (∑ i ∈ Finset.range n, fill f n i) / n

variable {f : ℕ → Option ℝ}
variable {i : ℕ} {p : ℝ}
lemma lastBefore_eq_some (ha : f a = some p) (hai : a < i) (hbetween : ∀ j, a < j → j < i → f j = none) :
    lastBefore f i = some (a,p) := by
  induction i with
  | zero => exact absurd hai (Nat.not_lt_zero a)
  | succ i ih =>
    rw [lastBefore]
    rcases Nat.lt_succ_iff_lt_or_eq.1 hai with hlt | rfl
    · rw [hbetween i hlt (Nat.lt_succ_self i)]
      exact ih hlt fun j hj hji => hbetween j hj (by omega)
    · rw [ha]

lemma lastBefore_eq_none (h : ∀ j < i, f j = none) : lastBefore f i = none := by
  induction i with
  | zero => rfl
  | succ i ih =>
    rw [lastBefore,h i (Nat.lt_succ_self i)]
    exact ih fun j hj => h j (by omega)

variable {b k : ℕ} {q : ℝ}
lemma firstFrom_eq_some (hb : f b = some q) (hib : i ≤ b) (hbk : b < i + k)
    (hbetween : ∀ j, i ≤ j → j < b → f j = none) : firstFrom f i k = some (b,q) := by
  induction k generalizing i with
  | zero => omega
  | succ k ih =>
    rw [firstFrom]
    rcases hib.eq_or_lt with rfl | hlt
    · rw [hb]
    · rw [hbetween i le_rfl hlt]
      exact ih hlt (by omega) fun j hj hjb => hbetween j (by omega) hjb

lemma firstFrom_eq_none (h : ∀ j, i ≤ j → j < i + k → f j = none) : firstFrom f i k = none := by
  induction k generalizing i with
  | zero => rfl
  | succ k ih =>
    rw [firstFrom,h i le_rfl (by omega)]
    exact ih fun j hj hjk => h j (by omega) (by omega)

lemma fill_head (hb : f b = some q) (hib : i < b) (hbn : b < n) (hbefore : ∀ j < b, f j = none) :
    fill f n i = q := by
  rw [fill,hbefore i hib]
  dsimp only
  rw [lastBefore_eq_none fun j hj => hbefore j (by omega),
    firstFrom_eq_some hb hib (by omega) fun j _ hjb => hbefore j hjb]

lemma fill_tail (ha : f a = some p) (hai : a < i) (hin : i < n) (hafter : ∀ j, a < j → j < n → f j = none) :
    fill f n i = p := by
  rw [fill,hafter i hai hin]
  dsimp only
  rw [lastBefore_eq_some ha hai fun j hj hji => hafter j hj (by omega),
    firstFrom_eq_none fun j hj hjn => hafter j (by omega) (by omega)]

lemma fill_interior (ha : f a = some p) (hb : f b = some q) (hai : a < i) (hib : i < b) (hbn : b < n)
    (hbetween : ∀ j, a < j → j < b → f j = none) : fill f n i = interpolate (a,p) (b,q) i := by
  rw [fill,hbetween i hai hib]
  dsimp only
  rw [lastBefore_eq_some ha hai fun j hj hji => hbetween j hj (by omega),
    firstFrom_eq_some hb hib (by omega) fun j hj hjb => hbetween j (by omega) hjb]

/-- The values filled in between two values. -/
noncomputable def gapSum (left right : ℕ × ℝ) : ℝ := ∑ i ∈ Finset.Ico (left.1 + 1) right.1, interpolate left right i

/-- The values behind the first one, with the gaps before each of them. -/
noncomputable def chainSum : ℕ × ℝ → List (ℕ × ℝ) → ℝ
  | _,[] => 0
  | left,right :: rest => gapSum left right + right.2 + chainSum right rest

def AgreesFrom (f : ℕ → Option ℝ) (n : ℕ) (first : ℕ × ℝ) (rest : List (ℕ × ℝ)) : Prop :=
  ∀ i v, first.1 ≤ i → i < n → (f i = some v ↔ (i,v) ∈ first :: rest)

variable {first next : ℕ × ℝ} {rest : List (ℕ × ℝ)}
lemma AgreesFrom.missing (h : AgreesFrom f n first rest) (hi : first.1 < i) (hin : i < n) (hne : ∀ o ∈ rest, o.1 ≠ i) :
    f i = none := by
  rw [Option.eq_none_iff_forall_ne_some]
  intro v hv
  rcases mem_cons.1 ((h i v hi.le hin).1 hv) with heq | hmem
  · rw [← heq] at hi
    exact absurd hi (lt_irrefl _)
  · exact hne _ hmem rfl

lemma AgreesFrom.tail (h : AgreesFrom f n first (next :: rest)) (hlt : first.1 < next.1) : AgreesFrom f n next rest := by
  intro i v hi hin
  rw [h i v (hlt.le.trans hi) hin,mem_cons]
  constructor
  · rintro (heq | hmem)
    · rw [← heq] at hlt
      exact absurd hi (not_le.2 hlt)
    · exact hmem
  · exact .inr

/-- The sum of the filled series, observation by observation. -/
lemma sum_fill_from (hincreasing : (first :: rest).Pairwise fun a b => a.1 < b.1) (hbelow : ∀ o ∈ first :: rest, o.1 < n)
    (hagrees : AgreesFrom f n first rest) :
    ∑ i ∈ Finset.Ico first.1 n, fill f n i = first.2 + chainSum first rest +
      ((n - 1 - (rest.getLastD first).1 : ℕ) : ℝ) * (rest.getLastD first).2 := by
  have hn : first.1 < n := hbelow first mem_cons_self
  have hfirst : f first.1 = some first.2 := (hagrees _ _ le_rfl hn).2 mem_cons_self
  have hvalue : fill f n first.1 = first.2 := by rw [fill,hfirst]
  rw [Finset.sum_eq_sum_Ico_succ_bot hn,hvalue,add_assoc]
  congr 1
  induction rest generalizing first with
  | nil =>
    have htail : ∀ i ∈ Finset.Ico (first.1 + 1) n, fill f n i = first.2 := by
      intro i hi
      rw [Finset.mem_Ico] at hi
      exact fill_tail hfirst hi.1 hi.2 fun j hj hjn => hagrees.missing hj hjn (fun o ho => absurd ho not_mem_nil)
    rw [Finset.sum_congr rfl htail,Finset.sum_const,Nat.card_Ico,nsmul_eq_mul,chainSum,zero_add,getLastD_nil]
    congr 2
    omega
  | cons next rest ih =>
    -- the gap before the next value, that value and what follows it
    obtain ⟨hlt,htail⟩ := pairwise_cons.1 hincreasing
    have hnext := hlt next mem_cons_self
    have hnextn : next.1 < n := hbelow next (mem_cons_of_mem _ mem_cons_self)
    have hagrees' := hagrees.tail hnext
    have hfnext : f next.1 = some next.2 := (hagrees' _ _ le_rfl hnextn).2 mem_cons_self
    have hvalue' : fill f n next.1 = next.2 := by rw [fill,hfnext]
    have hgap : ∀ i ∈ Finset.Ico (first.1 + 1) next.1, fill f n i = interpolate first next i := by
      intro i hi
      rw [Finset.mem_Ico] at hi
      refine fill_interior hfirst hfnext hi.1 hi.2 hnextn fun j hj hjb => hagrees.missing hj (by omega) ?_
      intro o ho
      rcases mem_cons.1 ho with rfl | ho
      · omega
      · have := (pairwise_cons.1 htail).1 o ho
        omega
    have hrest := ih htail (fun o ho => hbelow o (mem_cons_of_mem _ ho)) hagrees' hnextn hfnext hvalue'
    rw [← Finset.sum_Ico_consecutive _ (show first.1 + 1 ≤ next.1 from hnext) hnextn.le,Finset.sum_congr rfl hgap,
      Finset.sum_eq_sum_Ico_succ_bot hnextn,hvalue',hrest,chainSum,gapSum,getLastD_cons]
    ring

/-- The sum of a filled series: the first value carried back, the values and what is between
them, and the last value carried forward. -/
lemma Sparse.sum_fill (h : Sparse f n (first :: rest)) :
    ∑ i ∈ Finset.range n, fill f n i = (first.1 : ℝ) * first.2 + (first.2 + chainSum first rest) +
      ((n - 1 - (rest.getLastD first).1 : ℕ) : ℝ) * (rest.getLastD first).2 := by
  have hn := h.below first mem_cons_self
  have hfirst : f first.1 = some first.2 := (h.agrees _ _ hn).2 mem_cons_self
  have hhead : ∀ i ∈ Finset.range first.1, fill f n i = first.2 := by
    intro i hi
    rw [Finset.mem_range] at hi
    refine fill_head hfirst hi hn fun j hj => ?_
    rw [Option.eq_none_iff_forall_ne_some]
    intro v hv
    rcases mem_cons.1 ((h.agrees j v (hj.trans hn)).1 hv) with heq | hmem
    · rw [← heq] at hj
      exact absurd hj (lt_irrefl _)
    · exact absurd ((pairwise_cons.1 h.increasing).1 _ hmem) (not_lt.2 hj.le)
  rw [Finset.range_eq_Ico,← Finset.sum_Ico_consecutive _ (Nat.zero_le _) hn.le,
    sum_fill_from h.increasing h.below fun i v _ hi => h.agrees i v hi,← Finset.range_eq_Ico,Finset.sum_congr rfl hhead,
    Finset.sum_const,Finset.card_range,nsmul_eq_mul]
  ring

end DataStreams.DenseSeries
