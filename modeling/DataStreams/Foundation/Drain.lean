import Mathlib.Algebra.Order.Ring.Int
import Mathlib.Data.List.Sort

/-! A strictly increasing list is drained below a moving bound, one item at a time. -/
namespace DataStreams.Drain
open List
variable {α : Type} [LinearOrder α] {items : List α} {low high top x : α}
/-- The first item strictly between two bounds. -/
def next (items : List α) (low high : α) : Option α := items.find? (fun x => low < x ∧ x < high)

def drain (items : List α) : α → List α → List α
  | _,[] => []
  | low,high :: highs =>
    match next items low high with
    | none => drain items low highs
    | some x => x :: drain items x highs

def above (items : List α) (low : α) : List α := items.filter (fun x => low < x)

def between (items : List α) (low high : α) : List α := items.filter (fun x => low < x ∧ x < high)

lemma next_mem (h : next items low high = some x) : x ∈ items ∧ low < x ∧ x < high := by
  refine ⟨mem_of_find?_eq_some h,?_⟩
  simpa using find?_some h

lemma next_eq_none_iff : next items low high = none ↔ between items low high = [] := by
  rw [next,between,find?_eq_none,filter_eq_nil_iff]

lemma above_eq_cons (hsorted : items.Pairwise (· < ·)) (h : next items low high = some x) :
    above items low = x :: above items x := by
  have hlow := (next_mem h).2.1
  have hhigh := (next_mem h).2.2
  induction items with
  | nil => cases h
  | cons y items ih =>
    obtain ⟨hy,hrest⟩ := pairwise_cons.1 hsorted
    by_cases hmatch : low < y ∧ y < high
    · have hxy : y = x := by
        rw [next,find?_cons_of_pos (by simpa using hmatch)] at h
        exact Option.some.inj h
      subst hxy
      have hall : above items low = above items y := by
        apply filter_congr
        intro z hz
        exact decide_eq_decide.2 ⟨fun _ => hy z hz,fun hlt => hlow.trans hlt⟩
      rw [above,filter_cons_of_pos (by simpa using hlow),above,filter_cons_of_neg (by simp)]
      exact congrArg (y :: ·) hall
    · have hnext : next items low high = some x := by
        rwa [next,find?_cons_of_neg (by simpa using hmatch)] at h
      -- an item out of the window that comes before one in it is too low
      have hyx := hy x (next_mem hnext).1
      have hylow : ¬ low < y := fun hlt => hmatch ⟨hlt,hyx.trans hhigh⟩
      rw [above,filter_cons_of_neg (by simpa using hylow),above,filter_cons_of_neg (by simpa using hyx.le)]
      exact ih hrest hnext

lemma between_eq_filter_above (items : List α) (low high : α) :
    between items low high = (above items low).filter (fun x => x < high) := by
  rw [above,filter_filter]
  apply filter_congr
  intro x _
  rw [Bool.decide_and,Bool.and_comm]

lemma between_eq_cons (hsorted : items.Pairwise (· < ·)) (h : next items low high = some x) (hx : x < top) :
    between items low top = x :: between items x top := by
  rw [between_eq_filter_above,between_eq_filter_above,above_eq_cons hsorted h,
    filter_cons_of_pos (by simpa using hx)]

/-- What is taken comes first among what is above the bound. -/
lemma drain_prefix (hsorted : items.Pairwise (· < ·)) (low : α) (highs : List α) :
    drain items low highs <+: above items low := by
  induction highs generalizing low with
  | nil => exact nil_prefix
  | cons high highs ih =>
    rw [drain]
    split
    · exact ih low
    · next x hx =>
      rw [above_eq_cons hsorted hx,prefix_cons_inj]
      exact ih x

variable {highs : List α}
lemma drain_lt {low x : α} (h : x ∈ drain items low highs) : ∃ high ∈ highs, x < high := by
  induction highs generalizing low with
  | nil => exact absurd h not_mem_nil
  | cons high highs ih =>
    rw [drain] at h
    split at h
    · obtain ⟨t,ht,hlt⟩ := ih h
      exact ⟨t,mem_cons_of_mem _ ht,hlt⟩
    · next y hy =>
      rcases mem_cons.1 h with rfl | h
      · exact ⟨high,mem_cons_self,(next_mem hy).2.2⟩
      · obtain ⟨t,ht,hlt⟩ := ih h
        exact ⟨t,mem_cons_of_mem _ ht,hlt⟩

variable {n : ℕ}
variable (hsorted : items.Pairwise (· < ·))
include hsorted

lemma drain_replicate {low : α}
    (hn : (between items low top).length ≤ n) : drain items low (List.replicate n top) = between items low top := by
  induction n generalizing low with
  | zero => exact (length_eq_zero_iff.1 (Nat.le_zero.1 hn)).symm
  | succ n ih =>
    rw [replicate_succ,drain]
    split
    · next hnone =>
      have hnil := next_eq_none_iff.1 hnone
      apply ih
      rw [hnil]
      exact Nat.zero_le _
    · next x hx =>
      have hcons := between_eq_cons hsorted hx (next_mem hx).2.2
      rw [hcons,length_cons] at hn
      rw [hcons,ih (by omega)]

/-- After any steps below lower bounds, enough steps below the last one take all there is. -/
lemma drain_append_replicate {low : α}
    (hhighs : ∀ high ∈ highs, high ≤ top) (hn : items.length ≤ n) :
    drain items low (highs ++ List.replicate n top) = between items low top := by
  induction highs generalizing low with
  | nil => exact drain_replicate hsorted ((length_filter_le _ _).trans hn)
  | cons high highs ih =>
    have hrest := fun t ht => hhighs t (mem_cons_of_mem high ht)
    rw [cons_append,drain]
    split
    · exact ih hrest
    · next x hx =>
      have hlt := (next_mem hx).2.2.trans_le (hhighs high mem_cons_self)
      rw [between_eq_cons hsorted hx hlt,ih hrest]

/-- A step that takes nothing finds that everything was taken. -/
lemma drain_eq_between {low : α}
    (hhighs : ∀ high ∈ highs, high ≤ top)
    (hdone : next items ((drain items low highs).getLast?.getD low) top = none) :
    drain items low highs = between items low top := by
  induction highs generalizing low with
  | nil => exact (next_eq_none_iff.1 hdone).symm
  | cons high highs ih =>
    have hrest := fun t ht => hhighs t (mem_cons_of_mem high ht)
    rw [drain] at hdone ⊢
    split at hdone
    · exact ih hrest hdone
    · next x hx =>
      have hlt := (next_mem hx).2.2.trans_le (hhighs high mem_cons_self)
      rw [getLast?_cons,Option.getD_some] at hdone
      rw [between_eq_cons hsorted hx hlt,ih hrest hdone]

end DataStreams.Drain
