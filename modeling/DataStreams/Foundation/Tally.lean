import DataStreams.Foundation.SortedMap
import Mathlib.Data.List.Count
import Mathlib.Data.List.Induction

/-! Votes counted in a map under a key of what is voted for, in any order. -/
namespace DataStreams
open List
variable {K A V : Type} [LinearOrder K] [BEq A] [LawfulBEq A]
/-- A map value that holds an item and the number of its votes. -/
structure Ballot (A V : Type) where
  make : A → ℕ → V
  item : V → A
  votes : V → ℕ
  item_make : ∀ a n, item (make a n) = a
  votes_make : ∀ a n, votes (make a n) = n
  make_item_votes : ∀ v, make (item v) (votes v) = v

def Ballot.count (B : Ballot A V) (key : A → K) (m : SortedMap K V) (a : A) : SortedMap K V :=
  m.insert (key a) (B.make a ((m.get? (key a)).elim 0 B.votes + 1))

/-- A tally holds an item under its key with the number of its votes. -/
lemma Ballot.get?_foldl_count (B : Ballot A V) (key : A → K) (l : List A)
    (hkey : ∀ a ∈ l, ∀ b ∈ l, key a = key b → a = b) (k : K) (v : V) :
    (l.foldl (B.count key) ∅).get? k = some v ↔ key (B.item v) = k ∧ B.votes v = l.count (B.item v) ∧ 0 < B.votes v := by
  induction l using List.reverseRecOn generalizing k v with
  | nil => simp
  | append_singleton l a ih =>
    have hl : ∀ b ∈ l, ∀ c ∈ l, key b = key c → b = c := fun b hb c hc => hkey b (by simp [hb]) c (by simp [hc])
    have hvotes : ((l.foldl (B.count key) ∅).get? (key a)).elim 0 B.votes = l.count a := by
      cases hget : (l.foldl (B.count key) ∅).get? (key a) with
      | none =>
        refine (count_eq_zero.2 fun ha => ?_).symm
        have hsome := (ih hl (key a) (B.make a (l.count a))).2
          ⟨by rw [B.item_make],by rw [B.votes_make,B.item_make],by rw [B.votes_make]; exact count_pos_iff.2 ha⟩
        rw [hget] at hsome
        cases hsome
      | some w =>
        obtain ⟨hk,hw,hpos⟩ := (ih hl (key a) w).1 hget
        have hmem : B.item w ∈ l := count_pos_iff.1 (hw ▸ hpos)
        have hitem := hkey _ (by simp [hmem]) a (by simp) hk
        rw [Option.elim_some,hw,hitem]
    rw [foldl_append,foldl_cons,foldl_nil,count,hvotes,SortedMap.get?_insert]
    by_cases hk : k = key a
    · rw [if_pos hk,Option.some.injEq]
      constructor
      · rintro rfl
        simp [B.item_make,B.votes_make,hk]
      · rintro ⟨hkv,hv,hpos⟩
        have hmem : B.item v ∈ l ++ [a] := count_pos_iff.1 (hv ▸ hpos)
        have hitem := hkey _ hmem a (by simp) (hkv.trans hk)
        rw [hitem,count_append,count_singleton_self] at hv
        rw [← hv,← hitem,B.make_item_votes]
    · rw [if_neg hk,ih hl]
      refine and_congr_right fun hkv => ?_
      have hne : a ≠ B.item v := fun h => hk (by rw [h,hkv])
      rw [count_append,count_singleton,beq_eq_false_iff_ne.2 hne]
      simp

/-- The order of the votes does not matter. -/
lemma Ballot.foldl_count_perm (B : Ballot A V) (key : A → K) {l m : List A} (h : l.Perm m)
    (hkey : ∀ a ∈ l, ∀ b ∈ l, key a = key b → a = b) : l.foldl (B.count key) ∅ = m.foldl (B.count key) ∅ := by
  refine SortedMap.ext fun k => Option.ext fun v => ?_
  rw [B.get?_foldl_count key l hkey,B.get?_foldl_count key m
    (fun a ha b hb => hkey a (h.mem_iff.2 ha) b (h.mem_iff.2 hb)),h.count_eq]

end DataStreams
