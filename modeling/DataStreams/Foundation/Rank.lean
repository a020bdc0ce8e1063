import Mathlib.Algebra.Order.Ring.Int
import Mathlib.Data.List.Sort

/-! Ranks of a sorted list. A middle rank lies in the range of the correct items. -/
namespace DataStreams.Rank
open List
variable {α β : Type*} [LinearOrder β] {f g : α → β} {s xs : List α} {k t : ℕ}

lemma succ_le_countP_le (hs : s.Pairwise (fun a b => f a ≤ f b)) (hk : k < s.length) :
    k + 1 ≤ s.countP (fun a => f a ≤ f s[k]) := by
  have hall : (s.take (k + 1)).countP (fun a => f a ≤ f s[k]) = (s.take (k + 1)).length := by
    apply countP_eq_length.2
    intro a ha
    obtain ⟨i,hi,rfl⟩ := mem_take_iff_getElem.1 ha
    apply decide_eq_true
    rcases (show i ≤ k by omega).eq_or_lt with rfl | hlt
    · exact le_rfl
    · exact pairwise_iff_getElem.1 hs i k _ hk hlt
  calc k + 1 = (s.take (k + 1)).length := by rw [length_take]; omega
    _ = (s.take (k + 1)).countP (fun a => f a ≤ f s[k]) := hall.symm
    _ ≤ s.countP (fun a => f a ≤ f s[k]) := (take_sublist _ _).countP_le

lemma sub_le_countP_ge (hs : s.Pairwise (fun a b => f a ≤ f b)) (hk : k < s.length) :
    s.length - k ≤ s.countP (fun a => f s[k] ≤ f a) := by
  have hall : (s.drop k).countP (fun a => f s[k] ≤ f a) = (s.drop k).length := by
    apply countP_eq_length.2
    intro a ha
    obtain ⟨i,hi,rfl⟩ := mem_drop_iff_getElem.1 ha
    apply decide_eq_true
    rcases Nat.eq_zero_or_pos i with rfl | hpos
    · exact le_rfl
    · exact pairwise_iff_getElem.1 hs k (k + i) hk _ (by omega)
  calc s.length - k = (s.drop k).length := length_drop.symm
    _ = (s.drop k).countP (fun a => f s[k] ≤ f a) := hall.symm
    _ ≤ s.countP (fun a => f s[k] ≤ f a) := (drop_sublist _ _).countP_le

lemma exists_correct {p : α → Bool} {correct faulty : List α} (hperm : xs.Perm (correct ++ faulty))
    (hfaulty : faulty.length ≤ t) (hp : t < xs.countP p) : ∃ a ∈ correct, p a = true := by
  rw [hperm.countP_eq,countP_append] at hp
  have := countP_le_length (p := p) (l := faulty)
  apply countP_pos_iff.1
  omega

/-- With twice as many items as may be faulty, and one more, the middle one lies between two
correct ones. -/
lemma between_correct {correct faulty : List α} (hperm : s.Perm (correct ++ faulty))
    (hfaulty : faulty.length ≤ t) (hlen : 2 * t + 1 ≤ s.length) (hs : s.Pairwise (fun a b => f a ≤ f b)) :
    ∃ m ∈ s[s.length / 2]?, (∃ a ∈ correct, f a ≤ f m) ∧ ∃ a ∈ correct, f m ≤ f a := by
  have hk : s.length / 2 < s.length := by omega
  refine ⟨s[s.length / 2],getElem?_eq_getElem hk,?_,?_⟩
  · have hcount := succ_le_countP_le hs hk
    obtain ⟨a,ha,hle⟩ := exists_correct hperm hfaulty (lt_of_lt_of_le (by omega) hcount)
    exact ⟨a,ha,of_decide_eq_true hle⟩
  · have hcount := sub_le_countP_ge hs hk
    obtain ⟨a,ha,hle⟩ := exists_correct hperm hfaulty (lt_of_lt_of_le (by omega) hcount)
    exact ⟨a,ha,of_decide_eq_true hle⟩

lemma exists_of_length_lt_countP_add {p q : α → Bool} (h : xs.length < xs.countP p + xs.countP q) :
    ∃ a ∈ xs, p a = true ∧ q a = true := by
  induction xs with
  | nil => simp at h
  | cons x xs ih =>
    by_cases hx : p x = true ∧ q x = true
    · exact ⟨x,mem_cons_self,hx⟩
    · have hstep : xs.length < xs.countP p + xs.countP q := by
        rw [countP_cons,countP_cons,length_cons] at h
        split_ifs at h with h₁ h₂ h₂
        · exact absurd ⟨h₁,h₂⟩ hx
        all_goals omega
      obtain ⟨a,ha,hpq⟩ := ih hstep
      exact ⟨a,mem_cons_of_mem _ ha,hpq⟩

lemma rank_le_rank {sf sg : List α} (hf : sf.Perm xs) (hg : sg.Perm xs)
    (hsf : sf.Pairwise (fun a b => f a ≤ f b)) (hsg : sg.Pairwise (fun a b => g a ≤ g b))
    (hfg : ∀ a ∈ xs, f a ≤ g a) (hkf : k < sf.length) (hkg : k < sg.length) : f sf[k] ≤ g sg[k] := by
  have hlow := sub_le_countP_ge hsf hkf
  have hhigh := succ_le_countP_le hsg hkg
  rw [hf.countP_eq] at hlow
  rw [hg.countP_eq] at hhigh
  have hlen := hf.length_eq
  -- an item that counts for both links the two ranks
  obtain ⟨a,ha,hfa,hga⟩ := exists_of_length_lt_countP_add
    (lt_of_lt_of_le (by omega) (Nat.add_le_add hlow hhigh))
  calc f sf[k] ≤ f a := of_decide_eq_true hfa
    _ ≤ g a := hfg a ha
    _ ≤ g sg[k] := of_decide_eq_true hga

end DataStreams.Rank
