import Mathlib.Algebra.Order.Ring.Int
import Mathlib.Data.List.Range
import Mathlib.Data.Nat.ModEq

/-! A list cut into consecutive blocks of a fixed size, the last of which may be shorter. -/
namespace DataStreams.Blocks
open List Nat
variable {α : Type*} {c : ℕ} {xs : List α} {x : α} {i f : ℕ}
/-- The block with index `i`, empty past the end. -/
def block (c : ℕ) (xs : List α) (i : ℕ) : List α := (xs.drop (c * i)).take c

/-- The number of blocks that are not empty. -/
def count (c : ℕ) (xs : List α) : ℕ := (xs.length + c - 1) / c

def indices (c : ℕ) (xs : List α) (f : ℕ) : List ℕ := List.range' f (count c xs - f)

lemma length_block : (block c xs i).length = min c (xs.length - c * i) := by
  rw [block,length_take,length_drop]

lemma lt_count_iff (hc : 0 < c) : i < count c xs ↔ c * i < xs.length := by
  rw [count,← succ_le_iff,Nat.le_div_iff_mul_le hc,succ_mul,Nat.mul_comm]
  omega

lemma count_le_iff (hc : 0 < c) : count c xs ≤ i ↔ xs.length ≤ c * i := by
  rw [← not_lt,lt_count_iff hc,not_lt]

lemma block_ne_nil_iff (hc : 0 < c) : block c xs i ≠ [] ↔ i < count c xs := by
  rw [lt_count_iff hc,← length_pos_iff,length_block]
  omega

@[simp] lemma mem_indices : i ∈ indices c xs f ↔ f ≤ i ∧ i < count c xs := by
  rw [indices,mem_range'_1]
  omega

@[simp] lemma length_indices : (indices c xs f).length = count c xs - f := length_range'

lemma indices_eq_nil_iff : indices c xs f = [] ↔ count c xs ≤ f := by
  rw [← length_eq_zero_iff,length_indices,Nat.sub_eq_zero_iff_le]

lemma indices_eq_cons (h : f < count c xs) : indices c xs f = f :: indices c xs (f + 1) := by
  rw [indices,indices,show count c xs - f = count c xs - (f + 1) + 1 by omega,range'_succ]

@[simp] lemma tail_indices : (indices c xs f).tail = indices c xs (f + 1) := by
  rw [indices,indices,tail_range',Nat.sub_sub]

lemma indices_eq_append (h : f < count c xs) :
    indices c xs f = List.range' f (count c xs - 1 - f) ++ [count c xs - 1] := by
  rw [indices,show count c xs - f = count c xs - 1 - f + 1 by omega,range'_concat,
    show f + 1 * (count c xs - 1 - f) = count c xs - 1 by omega]

lemma getElem?_indices {j : ℕ} (h : f + j < count c xs) : (indices c xs f)[j]? = some (f + j) := by
  rw [indices,getElem?_range' (by omega),Nat.one_mul]

lemma drop_eq_block_append (c : ℕ) (xs : List α) (i : ℕ) :
    xs.drop (c * i) = block c xs i ++ xs.drop (c * (i + 1)) := by
  rw [block,mul_succ,← drop_drop,take_append_drop]

/-- The blocks from `f` on hold the items from there on, in order. -/
lemma flatMap_block (hc : 0 < c) (xs : List α) (f : ℕ) :
    (indices c xs f).flatMap (block c xs) = xs.drop (c * f) := by
  -- by induction on the number of blocks that are left
  induction hn : count c xs - f generalizing f with
  | zero =>
    have hle : count c xs ≤ f := by omega
    rw [indices_eq_nil_iff.2 hle,flatMap_nil,drop_eq_nil_of_le ((count_le_iff hc).1 hle)]
  | succ n ih =>
    rw [indices_eq_cons (by omega),flatMap_cons,ih (f + 1) (by omega),← drop_eq_block_append]

/-- The sizes of the blocks from `f` on add up to what is left there. -/
lemma sum_length_block (hc : 0 < c) (xs : List α) (f : ℕ) :
    ((indices c xs f).map (fun i => (block c xs i).length)).sum = xs.length - c * f := by
  rw [← length_flatMap,flatMap_block hc,length_drop]

lemma count_append_singleton (hc : 0 < c) : count c (xs ++ [x]) = xs.length / c + 1 := by
  rw [count,length_append,length_singleton,show xs.length + 1 + c - 1 = xs.length + c by omega,
    add_div_right _ hc]

lemma div_length_eq (hc : 0 < c) :
    (xs.length % c = 0 ∧ xs.length / c = count c xs) ∨ (xs.length % c ≠ 0 ∧ xs.length / c + 1 = count c xs) := by
  have hsum := div_add_mod xs.length c
  have hlt := mod_lt xs.length hc
  have hle : count c xs ≤ xs.length / c ↔ xs.length ≤ c * (xs.length / c) := count_le_iff hc
  have hle' : count c xs ≤ xs.length / c + 1 ↔ xs.length ≤ c * (xs.length / c) + c := by
    rw [count_le_iff hc,mul_succ]
  have hge : xs.length / c ≤ count c xs := Nat.div_le_div_right (by omega)
  omega

lemma block_append_self (hc : 0 < c) :
    block c (xs ++ [x]) (xs.length / c) = block c xs (xs.length / c) ++ [x] := by
  have hsum := div_add_mod xs.length c
  have hlt := mod_lt xs.length hc
  rw [block,block,drop_append_of_le_length (by omega),take_of_length_le,take_of_length_le]
  · rw [length_drop]
    omega
  · rw [length_append,length_drop,length_singleton]
    omega

lemma block_append_of_ne (hc : 0 < c) (h : i ≠ xs.length / c) : block c (xs ++ [x]) i = block c xs i := by
  rcases Nat.lt_or_gt_of_ne h with hlt | hgt
  · have hle : c * (i + 1) ≤ xs.length :=
      (Nat.mul_le_mul_left c hlt).trans (mul_div_le xs.length c)
    rw [mul_succ] at hle
    rw [block,block,drop_append_of_le_length (by omega),take_append_of_le_length]
    rw [length_drop]
    omega
  · have hlt : xs.length < c * i := by
      have := lt_mul_div_succ xs.length hc
      exact this.trans_le (Nat.mul_le_mul_left c hgt)
    rw [block,block,drop_eq_nil_of_le,drop_eq_nil_of_le (by omega)]
    rw [length_append,length_singleton]
    omega

lemma indices_append_of_mod_ne_zero (hc : 0 < c) (h : xs.length % c ≠ 0) :
    indices c (xs ++ [x]) f = indices c xs f := by
  have := (div_length_eq hc).resolve_left (fun h0 => h h0.1)
  rw [indices,indices,count_append_singleton hc,this.2]

lemma indices_append_of_mod_eq_zero (hc : 0 < c) (h : xs.length % c = 0) (hf : f ≤ count c xs) :
    indices c (xs ++ [x]) f = indices c xs f ++ [count c xs] := by
  have hq := ((div_length_eq hc).resolve_right (fun h0 => h0.1 h)).2
  have hcount : count c (xs ++ [x]) = count c xs + 1 := by rw [count_append_singleton hc,hq]
  rw [indices_eq_append (by omega),hcount,Nat.add_sub_cancel,indices]

lemma eq_of_mod_eq {slots a b n : ℕ} (hn : n ≤ slots) (ha : f ≤ a ∧ a < f + n) (hb : f ≤ b ∧ b < f + n)
    (h : a % slots = b % slots) : a = b := by
  rcases Nat.le_total a b with hab | hab
  · have hdvd := (modEq_iff_dvd' hab).1 h
    have := eq_zero_of_dvd_of_lt hdvd (by omega)
    omega
  · have hdvd := (modEq_iff_dvd' hab).1 h.symm
    have := eq_zero_of_dvd_of_lt hdvd (by omega)
    omega

end DataStreams.Blocks
