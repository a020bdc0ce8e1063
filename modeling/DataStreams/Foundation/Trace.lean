import Mathlib.Algebra.Order.Ring.Int
import Mathlib.Data.List.Chain
import Mathlib.Order.Interval.Set.Basic

/-! Runs of a state machine, and the rules that turn facts about a step into facts about every
round. -/
namespace DataStreams
open List Nat

/-- Round `n + 1` leads from state `n` to state `n + 1`. -/
structure Trace {S I O : Type} (step : ℕ → I → S → S → O → Prop) (start : S) where
  len : ℕ
  input : ℕ → I
  state : ℕ → S
  out : ℕ → O
  state_zero : state 0 = start
  step_ok : ∀ n, n < len → step (n + 1) (input (n + 1)) (state n) (state (n + 1)) (out (n + 1))

namespace Trace
variable {S I O : Type} {step : ℕ → I → S → S → O → Prop} {start : S} (tr : Trace step start)
/-- A property of a round that every later step keeps holds from that round on. -/
lemma invariant_from {P : ℕ → Prop} {m : ℕ} (base : P m)
    (keep : ∀ n, m ≤ n → n < tr.len → P n → P (n + 1)) : ∀ n, m ≤ n → n ≤ tr.len → P n := by
  intro n hmn
  induction n, hmn using le_induction with
  | base => exact fun _ => base
  | succ n hmn ih => exact fun hn => keep n hmn (by omega) (ih (by omega))

/-- A quantity that no step decreases is monotone along the run. -/
lemma mono {α : Type} [Preorder α] (f : S → α) {a : ℕ}
    (h : ∀ n, a ≤ n → n < tr.len → f (tr.state n) ≤ f (tr.state (n + 1))) :
    ∀ m n, a ≤ m → m ≤ n → n ≤ tr.len → f (tr.state m) ≤ f (tr.state n) := by
  intro m n ha hmn
  refine tr.invariant_from (m := m) (P := fun n => f (tr.state m) ≤ f (tr.state n)) le_rfl ?_ n hmn
  intro k hk hlen ih
  exact ih.trans (h k (ha.trans hk) hlen)

/-- A measure that every step lowers until it is zero bounds the rounds it takes. -/
lemma measure_le (f : S → ℕ) (h : ∀ n, n < tr.len → f (tr.state (n + 1)) ≤ f (tr.state n) - 1) :
    ∀ n, n ≤ tr.len → f (tr.state n) ≤ f start - n := by
  intro n
  induction n with
  | zero =>
    intro _
    rw [tr.state_zero]
    exact Nat.le_refl _
  | succ n ih =>
    intro hn
    have hstep := h n hn
    have hbefore := ih (by omega)
    omega

def rounds (p : ℕ → Bool) : List ℕ := (List.range' 1 tr.len).filter p

variable {tr} {p : ℕ → Bool}
@[simp] lemma mem_rounds {n : ℕ} : n ∈ tr.rounds p ↔ (1 ≤ n ∧ n ≤ tr.len) ∧ p n = true := by
  simp only [rounds,mem_filter,mem_range'_1]
  refine and_congr_left fun _ => ⟨?_,?_⟩ <;> omega

lemma rounds_sorted : (tr.rounds p).Pairwise (· < ·) :=
  (pairwise_lt_range').filter _

lemma rounds_pairwise {R : ℕ → ℕ → Prop}
    (h : ∀ m n, 1 ≤ m → m < n → n ≤ tr.len → p m = true → p n = true → R m n) : (tr.rounds p).Pairwise R := by
  refine rounds_sorted.imp_of_mem ?_
  intro m n hm hn hmn
  rw [mem_rounds] at hm hn
  exact h m n hm.1.1 hmn hn.1.2 hm.2 hn.2

/-- Neighbours in the list have no round with the property between them. -/
lemma rounds_isChain {R : ℕ → ℕ → Prop} (h : ∀ m n, 1 ≤ m → m < n → n ≤ tr.len → p m = true → p n = true →
      (∀ k, m < k → k < n → p k = false) → R m n) : (tr.rounds p).IsChain R := by
  rw [isChain_iff_getElem]
  intro i hi
  have hsorted := pairwise_iff_getElem.1 (@rounds_sorted _ _ _ _ _ tr p)
  have hm := mem_rounds.1 (getElem_mem (l := tr.rounds p) (lt_of_succ_lt hi))
  have hn := mem_rounds.1 (getElem_mem hi)
  refine h _ _ hm.1.1 (hsorted i (i + 1) _ hi (lt_succ_self i)) hn.1.2 hm.2 hn.2 ?_
  intro k hmk hkn
  by_contra hpk
  have hk : k ∈ tr.rounds p := mem_rounds.2 ⟨⟨by omega,by omega⟩,by simpa using hpk⟩
  obtain ⟨j,hj,rfl⟩ := getElem_of_mem hk
  -- the list is strictly sorted, so an element between neighbours has an index between theirs
  have hij : i < j := by
    by_contra hle
    rcases Nat.eq_or_lt_of_not_lt hle with heq | hlt
    · subst heq
      omega
    · have := hsorted j i hj (lt_of_succ_lt hi) hlt
      omega
  have hji : j < i + 1 := by
    by_contra hle
    rcases Nat.eq_or_lt_of_not_lt hle with heq | hlt
    · subst heq
      omega
    · have := hsorted (i + 1) j hi hj hlt
      omega
  omega

end Trace

/-- The last `k` values of a sequence up to index `n`, oldest first. -/
def lastValues {α : Type} (f : ℕ → α) (n k : ℕ) : List α := (List.range' (n + 1 - k) k).map f

variable {α : Type} {f : ℕ → α} {n k : ℕ}
@[simp] lemma length_lastValues : (lastValues f n k).length = k := by
  simp [lastValues]

/-- Counted back from the end, the window holds the values of the indices before `n`. -/
lemma getElem?_lastValues {i : ℕ} (hk : k ≤ n + 1) (hi : i < k) :
    (lastValues f n k)[k - 1 - i]? = some (f (n - i)) := by
  rw [lastValues,getElem?_map,getElem?_range' (by omega),Option.map_some,Nat.one_mul]
  congr 2
  omega

/-- Shifting the window by one keeps any number of the old values. -/
lemma drop_lastValues_append {j : ℕ} (hk : k ≤ n + 1) (hj : j ≤ k) :
    (lastValues f n k).drop (k - j) ++ [f (n + 1)] = lastValues f (n + 1) (j + 1) := by
  rw [lastValues,lastValues,← map_drop,drop_range',range'_concat,map_append]
  congr 1
  · congr 2 <;> omega
  · simp only [map_cons,map_nil]
    congr 2
    omega

end DataStreams
