import Mathlib.Algebra.Order.Ring.Int
import Mathlib.Algebra.BigOperators.Group.List.Basic
import Mathlib.Data.List.Pairwise
import Mathlib.Data.List.Perm.Subperm

/-! Finite maps as lists of entries in strictly increasing key order. -/
namespace DataStreams
open List

structure SortedMap (K V : Type*) [LinearOrder K] where
  entries : List (K × V)
  sorted : entries.Pairwise (fun a b => a.1 < b.1)
  deriving DecidableEq

namespace SortedMap
variable {K V W : Type*} [LinearOrder K]
def empty : SortedMap K V := ⟨[],.nil⟩

instance : Inhabited (SortedMap K V) := ⟨empty⟩
instance : EmptyCollection (SortedMap K V) := ⟨empty⟩

def get? (m : SortedMap K V) (k : K) : Option V :=
  (m.entries.find? (fun e => e.1 = k)).map Prod.snd

def contains (m : SortedMap K V) (k : K) : Bool := (m.get? k).isSome

def keys (m : SortedMap K V) : List K := m.entries.map Prod.fst

def size (m : SortedMap K V) : ℕ := m.entries.length

def insert (m : SortedMap K V) (k : K) (v : V) : SortedMap K V where
  entries := m.entries.filter (fun e => e.1 < k) ++ (k,v) :: m.entries.filter (fun e => k < e.1)
  sorted := by
    refine pairwise_append.2 ⟨m.sorted.filter _,?_,?_⟩
    · refine pairwise_cons.2 ⟨?_,m.sorted.filter _⟩
      intro e he
      simpa using (mem_filter.1 he).2
    · intro a ha b hb
      have hak : a.1 < k := by simpa using (mem_filter.1 ha).2
      rcases mem_cons.1 hb with rfl | hb
      · exact hak
      · exact hak.trans (by simpa using (mem_filter.1 hb).2)

def filterMap (m : SortedMap K V) (f : K → V → Option W) : SortedMap K W where
  entries := m.entries.filterMap (fun e => (f e.1 e.2).map (fun w => (e.1,w)))
  sorted := by
    refine m.sorted.filterMap _ ?_
    intro a b hab c hc d hd
    simp only [Option.map_eq_some_iff] at hc hd
    obtain ⟨_,_,rfl⟩ := hc
    obtain ⟨_,_,rfl⟩ := hd
    exact hab

def filter (m : SortedMap K V) (p : K → V → Bool) : SortedMap K V :=
  m.filterMap (fun k v => if p k v then some v else none)

def mapVal (m : SortedMap K V) (f : K → V → W) : SortedMap K W :=
  m.filterMap (fun k v => some (f k v))

def erase (m : SortedMap K V) (k : K) : SortedMap K V :=
  m.filter (fun a _ => a ≠ k)

def insertMany (m : SortedMap K V) (l : List (K × V)) : SortedMap K V :=
  l.foldl (fun acc e => acc.insert e.1 e.2) m

def eraseMany (m : SortedMap K V) (l : List K) : SortedMap K V :=
  l.foldl erase m

def ofList (l : List (K × V)) : SortedMap K V := empty.insertMany l

def setOf (l : List K) : SortedMap K Unit := ofList (l.map (fun k => (k,())))

/-- The entries of `n` over those of `m`. -/
def overlay (m n : SortedMap K V) : SortedMap K V := m.insertMany n.entries

variable {m : SortedMap K V} {k : K} {v : V}
lemma get?_eq_some_iff : m.get? k = some v ↔ (k,v) ∈ m.entries := by
  constructor
  · intro h
    simp only [get?,Option.map_eq_some_iff] at h
    obtain ⟨e,he,rfl⟩ := h
    have hk : e.1 = k := by simpa using find?_some he
    exact hk ▸ mem_of_find?_eq_some he
  · intro h
    obtain ⟨l,sorted⟩ := m
    simp only [get?]
    induction l with
    | nil => simp at h
    | cons e l ih =>
      obtain ⟨hlt,htail⟩ := pairwise_cons.1 sorted
      rcases mem_cons.1 h with rfl | h
      · simp
      · have hne : e.1 ≠ k := (hlt _ h).ne
        rw [find?_cons_of_neg (by simpa using hne)]
        exact ih htail h

lemma entries_nodup (m : SortedMap K V) : m.entries.Nodup :=
  m.sorted.imp (fun hab he => hab.ne (congrArg Prod.fst he))

variable {n : SortedMap K V}
@[ext] lemma ext (h : ∀ k, m.get? k = n.get? k) : m = n := by
  have hmem : ∀ e, e ∈ m.entries ↔ e ∈ n.entries := by
    intro e
    rw [← get?_eq_some_iff,← get?_eq_some_iff,h]
  have hperm : m.entries.Perm n.entries :=
    (perm_ext_iff_of_nodup m.entries_nodup n.entries_nodup).2 hmem
  have heq : m.entries = n.entries :=
    hperm.eq_of_pairwise (fun a b _ _ hab hba => absurd hab hba.not_gt) m.sorted n.sorted
  cases m; cases n; simpa using heq

@[simp] lemma get?_empty (k : K) : (empty : SortedMap K V).get? k = none := rfl

@[simp] lemma get?_emptyCollection (k : K) : (∅ : SortedMap K V).get? k = none := rfl

variable {e : K × V}
lemma mem_entries_insert : e ∈ (m.insert k v).entries ↔ e = (k,v) ∨ e ∈ m.entries ∧ e.1 ≠ k := by
  simp only [insert,mem_append,mem_cons,mem_filter,decide_eq_true_eq]
  constructor
  · rintro (⟨h,hlt⟩ | rfl | ⟨h,hlt⟩)
    · exact .inr ⟨h,hlt.ne⟩
    · exact .inl rfl
    · exact .inr ⟨h,hlt.ne'⟩
  · rintro (rfl | ⟨h,hne⟩)
    · exact .inr (.inl rfl)
    · rcases lt_or_gt_of_ne hne with hlt | hlt
      · exact .inl ⟨h,hlt⟩
      · exact .inr (.inr ⟨h,hlt⟩)

lemma get?_insert (m : SortedMap K V) (k : K) (v : V) (a : K) :
    (m.insert k v).get? a = if a = k then some v else m.get? a := by
  ext w
  rw [get?_eq_some_iff,mem_entries_insert]
  by_cases ha : a = k
  · subst ha
    simp [eq_comm]
  · simp [ha,get?_eq_some_iff]

@[simp] lemma get?_insert_self (m : SortedMap K V) (k : K) (v : V) : (m.insert k v).get? k = some v := by
  simp [get?_insert]

variable {a : K}
lemma get?_insert_of_ne (m : SortedMap K V) (v : V) (h : a ≠ k) : (m.insert k v).get? a = m.get? a := by
  simp [get?_insert,h]

lemma insert_insert (m : SortedMap K V) (k : K) (v w : V) : (m.insert k v).insert k w = m.insert k w := by
  ext1 a
  simp only [get?_insert]
  split_ifs <;> rfl

lemma insert_self (h : m.get? k = some v) : m.insert k v = m := by
  ext1 a
  rw [get?_insert]
  split_ifs with ha
  · rw [ha,h]
  · rfl

section
variable (m : SortedMap K V)
@[simp] lemma get?_filterMap (f : K → V → Option W) (k : K) :
    (m.filterMap f).get? k = (m.get? k).bind (f k) := by
  ext w
  rw [get?_eq_some_iff,Option.bind_eq_some_iff]
  simp only [filterMap,mem_filterMap,Option.map_eq_some_iff,Prod.mk.injEq]
  constructor
  · rintro ⟨⟨a,v⟩,he,w,hw,rfl,rfl⟩
    exact ⟨v,get?_eq_some_iff.2 he,hw⟩
  · rintro ⟨v,hv,hw⟩
    exact ⟨(k,v),get?_eq_some_iff.1 hv,w,hw,rfl,rfl⟩

@[simp] lemma get?_filter (p : K → V → Bool) (k : K) : (m.filter p).get? k = (m.get? k).filter (p k) := by
  rw [filter,get?_filterMap]
  cases m.get? k <;> simp [Option.filter]

@[simp] lemma get?_mapVal (f : K → V → W) (k : K) : (m.mapVal f).get? k = (m.get? k).map (f k) := by
  rw [mapVal,get?_filterMap]
  cases m.get? k <;> rfl

lemma get?_erase (k a : K) : (m.erase k).get? a = if a = k then none else m.get? a := by
  rw [erase,get?_filter]
  by_cases h : a = k
  · cases m.get? a <;> simp [Option.filter,h]
  · cases m.get? a <;> simp [Option.filter,h]

lemma get?_eraseMany (l : List K) (a : K) : (m.eraseMany l).get? a = if a ∈ l then none else m.get? a := by
  induction l generalizing m with
  | nil => simp [eraseMany]
  | cons k l ih =>
    change ((m.erase k).eraseMany l).get? a = _
    rw [ih,get?_erase]
    by_cases hl : a ∈ l <;> by_cases hk : a = k <;> simp [hl,hk]

end

variable {l : List (K × V)}
lemma get?_insertMany_of_notMem (m : SortedMap K V)
    (h : a ∉ l.map Prod.fst) : (m.insertMany l).get? a = m.get? a := by
  induction l generalizing m with
  | nil => rfl
  | cons e l ih =>
    simp only [map_cons,mem_cons,not_or] at h
    change ((m.insert e.1 e.2).insertMany l).get? a = _
    rw [ih _ h.2,get?_insert_of_ne _ _ h.1]

lemma get?_insertMany_of_mem (m : SortedMap K V)
    (hl : (l.map Prod.fst).Nodup) (h : (a,v) ∈ l) : (m.insertMany l).get? a = some v := by
  induction l generalizing m with
  | nil => simp at h
  | cons e l ih =>
    obtain ⟨hne,hl⟩ := nodup_cons.1 hl
    change ((m.insert e.1 e.2).insertMany l).get? a = _
    rcases mem_cons.1 h with rfl | h
    · rw [get?_insertMany_of_notMem _ hne,get?_insert_self]
    · exact ih _ hl h

lemma mem_entries_insertMany (h : e ∈ (m.insertMany l).entries) : e ∈ m.entries ∨ e ∈ l := by
  induction l generalizing m with
  | nil => exact .inl h
  | cons x l ih =>
    rcases ih h with h | h
    · rcases mem_entries_insert.1 h with rfl | ⟨h,_⟩
      · exact .inr mem_cons_self
      · exact .inl h
    · exact .inr (mem_cons_of_mem _ h)

lemma mem_keys : k ∈ m.keys ↔ (m.get? k).isSome := by
  rw [Option.isSome_iff_exists]
  simp only [keys,mem_map,get?_eq_some_iff]
  constructor
  · rintro ⟨e,he,rfl⟩
    exact ⟨e.2,he⟩
  · rintro ⟨v,hv⟩
    exact ⟨(k,v),hv,rfl⟩

lemma keys_sorted (m : SortedMap K V) : m.keys.Pairwise (· < ·) :=
  pairwise_map.2 m.sorted

lemma keys_nodup (m : SortedMap K V) : m.keys.Nodup :=
  m.keys_sorted.imp (fun h => h.ne)

lemma get?_overlay (m n : SortedMap K V) (a : K) : (m.overlay n).get? a = (n.get? a).or (m.get? a) := by
  cases h : n.get? a with
  | none =>
    have ha : a ∉ n.entries.map Prod.fst := by
      intro hm
      simpa [h] using mem_keys.1 hm
    exact get?_insertMany_of_notMem m ha
  | some v => exact get?_insertMany_of_mem m n.keys_nodup (get?_eq_some_iff.1 h)

@[simp] lemma empty_overlay (m : SortedMap K V) : (∅ : SortedMap K V).overlay m = m := by
  ext1 k
  rw [get?_overlay,get?_emptyCollection,Option.or_none]

@[simp] lemma ofList_entries (m : SortedMap K V) : ofList m.entries = m := empty_overlay m

lemma get?_ofList_eq_some_iff (hl : (l.map Prod.fst).Nodup) : (ofList l).get? k = some v ↔ (k,v) ∈ l := by
  constructor
  · intro h
    exact (mem_entries_insertMany (get?_eq_some_iff.1 h)).resolve_left not_mem_nil
  · exact get?_insertMany_of_mem empty hl

/-- Entries listed in another order make the same map. -/
lemma ofList_perm {m : List (K × V)} (hl : (l.map Prod.fst).Nodup) (h : l.Perm m) : ofList l = ofList m := by
  ext k v
  rw [get?_ofList_eq_some_iff hl,get?_ofList_eq_some_iff ((h.map Prod.fst).nodup_iff.1 hl),h.mem_iff]

@[simp] lemma setOf_keys (m : SortedMap K Unit) : setOf m.keys = m := by
  rw [setOf,keys,map_map]
  exact (congrArg ofList (map_id _)).trans m.ofList_entries

lemma entries_mapVal (m : SortedMap K V) (f : K → V → W) :
    (m.mapVal f).entries = m.entries.map (fun e => (e.1,f e.1 e.2)) := by
  simp [mapVal,filterMap,filterMap_eq_map']

lemma contains_insertMany : (m.insertMany l).contains k = true ↔ m.contains k = true ∨ k ∈ l.map Prod.fst := by
  induction l generalizing m with
  | nil => simp [insertMany]
  | cons e l ih =>
    change ((m.insert e.1 e.2).insertMany l).contains k = true ↔ _
    rw [ih,contains,get?_insert]
    by_cases h : k = e.1 <;> simp [h,contains]

lemma contains_setOf {l : List K} : (setOf l).contains k = true ↔ k ∈ l := by
  rw [setOf,ofList,contains_insertMany]
  simp [contains]

@[simp] lemma contains_eq_true :
    m.contains k = true ↔ ∃ v, m.get? k = some v :=
  Option.isSome_iff_exists

def entryAt (m : SortedMap K V) (k : K) : List (K × V) := (m.get? k).toList.map (fun v => (k,v))

lemma mem_entryAt : e ∈ m.entryAt k ↔ e.1 = k ∧ e ∈ m.entries := by
  simp only [entryAt,mem_map,Option.mem_toList,get?_eq_some_iff]
  constructor
  · rintro ⟨v,hv,rfl⟩
    exact ⟨rfl,hv⟩
  · rintro ⟨rfl,he⟩
    exact ⟨e.2,he,rfl⟩

lemma mem_entries_erase : e ∈ (m.erase k).entries ↔ e ∈ m.entries ∧ e.1 ≠ k := by
  rw [← get?_eq_some_iff,get?_erase,← get?_eq_some_iff]
  by_cases h : e.1 = k <;> simp [h]

lemma entries_perm_erase (m : SortedMap K V) (k : K) : m.entries.Perm (m.entryAt k ++ (m.erase k).entries) := by
  have hat : (m.entryAt k).Nodup := by
    unfold entryAt
    cases m.get? k <;> simp
  have hnodup : (m.entryAt k ++ (m.erase k).entries).Nodup := by
    refine nodup_append.2 ⟨hat,entries_nodup _,?_⟩
    rintro e he _ hne rfl
    exact (mem_entries_erase.1 hne).2 (mem_entryAt.1 he).1
  refine (perm_ext_iff_of_nodup m.entries_nodup hnodup).2 fun e => ?_
  rw [mem_append,mem_entryAt,mem_entries_erase]
  by_cases h : e.1 = k <;> simp [h]

/-- Storing under a key keeps the entries of the other keys. -/
lemma insert_perm_erase (m : SortedMap K V) (k : K) (v : V) :
    (m.insert k v).entries.Perm ((k,v) :: (m.erase k).entries) := by
  have hnotMem : (k,v) ∉ (m.erase k).entries := fun h => (mem_entries_erase.1 h).2 rfl
  refine (perm_ext_iff_of_nodup (entries_nodup _) (nodup_cons.2 ⟨hnotMem,entries_nodup _⟩)).2 fun e => ?_
  rw [mem_entries_insert,mem_cons,mem_entries_erase]

lemma size_insert_of_mem {w : V} (h : m.get? k = some w) (v : V) : (m.insert k v).size = m.size := by
  have hm := (m.entries_perm_erase k).length_eq
  have hi := (m.insert_perm_erase k v).length_eq
  simp only [entryAt,h,Option.toList_some,map_cons,map_nil,cons_append,nil_append] at hm
  exact hi.trans hm.symm

section
variable (m : SortedMap K V)
lemma size_insert_le (k : K) (v : V) : (m.insert k v).size ≤ m.size + 1 := by
  have hm := (m.entries_perm_erase k).length_eq
  have hi := (m.insert_perm_erase k v).length_eq
  simp only [length_append,length_cons] at hm hi
  simp only [size]
  omega

/-- Storing under a key changes a sum over the entries by what was and what is there. -/
lemma sum_map_insert (k : K) (v : V) (f : K × V → ℕ) :
    ((m.insert k v).entries.map f).sum + (m.get? k).elim 0 (fun w => f (k,w)) = (m.entries.map f).sum + f (k,v) := by
  have hm := ((m.entries_perm_erase k).map f).sum_eq
  have hi := ((m.insert_perm_erase k v).map f).sum_eq
  rw [hi,hm,map_append,sum_append,map_cons,sum_cons,entryAt]
  cases m.get? k with
  | none => simp [Nat.add_comm]
  | some w =>
    simp only [Option.toList_some,map_cons,map_nil,sum_cons,sum_nil,Option.elim_some]
    omega

lemma size_insertMany_le (l : List (K × V)) : (m.insertMany l).size ≤ m.size + l.length := by
  induction l generalizing m with
  | nil => exact Nat.le_refl _
  | cons e l ih =>
    change ((m.insert e.1 e.2).insertMany l).size ≤ _
    have hrest := ih (m.insert e.1 e.2)
    have hone := m.size_insert_le e.1 e.2
    simp only [length_cons]
    omega

lemma entries_filter (p : K → V → Bool) : (m.filter p).entries = m.entries.filter (fun e => p e.1 e.2) := by
  rw [filter,filterMap,← filterMap_eq_filter]
  refine filterMap_congr fun e _ => ?_
  by_cases h : p e.1 e.2 <;> simp [h,Option.guard]

lemma size_filter_le (p : K → V → Bool) : (m.filter p).size ≤ m.size :=
  length_filterMap_le _ _

end

/-- A map with more keys is larger. -/
lemma size_lt_size (h : ∀ k, (m.get? k).isSome → (n.get? k).isSome)
    (hm : m.get? k = none) (hn : (n.get? k).isSome) : m.size < n.size := by
  have hnew : k ∉ m.keys := by rw [mem_keys,hm]; simp
  have hsub : (k :: m.keys).Subperm n.keys := by
    refine subperm_of_subset (nodup_cons.2 ⟨hnew,m.keys_nodup⟩) fun a ha => ?_
    rcases mem_cons.1 ha with rfl | ha
    · exact mem_keys.2 hn
    · exact mem_keys.2 (h a (mem_keys.1 ha))
  have hlength := hsub.length_le
  simp only [keys,length_cons,length_map] at hlength
  exact hlength

end SortedMap
end DataStreams
