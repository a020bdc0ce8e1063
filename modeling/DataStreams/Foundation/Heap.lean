import Mathlib.Data.List.Perm.Basic

/-! Double-ended heaps. They promise an order only if the comparison is a strict weak order of
the contents. -/
namespace DataStreams
open List
variable {α : Type}
structure StrictWeakOn (less : α → α → Prop) (l : List α) : Prop where
  irrefl : ∀ a ∈ l, ¬less a a
  trans : ∀ a ∈ l, ∀ b ∈ l, ∀ c ∈ l, less a b → less b c → less a c
  split : ∀ a ∈ l, ∀ b ∈ l, ∀ c ∈ l, less a c → less a b ∨ less b c

structure Heap (less : α → α → Prop) where
  pop : List α → Option (α × List α)
  popMax : List α → Option (α × List α)
  pop_perm : ∀ {l a rest}, pop l = some (a,rest) → l.Perm (a :: rest)
  popMax_perm : ∀ {l a rest}, popMax l = some (a,rest) → l.Perm (a :: rest)
  pop_isSome : ∀ {l}, l ≠ [] → (pop l).isSome
  popMax_isSome : ∀ {l}, l ≠ [] → (popMax l).isSome
  pop_least : ∀ {l a rest}, StrictWeakOn less l → pop l = some (a,rest) → ∀ b ∈ l, ¬less b a
  popMax_greatest : ∀ {l a rest}, StrictWeakOn less l → popMax l = some (a,rest) → ∀ b ∈ l, ¬less a b

lemma exists_minimal {less : α → α → Prop} [IsTrans α less] [Std.Irrefl less] {l : List α} (h : l ≠ []) :
    ∃ a ∈ l, ∀ b ∈ l, ¬less b a := by
  induction l with
  | nil => exact absurd rfl h
  | cons x l ih =>
    rcases eq_or_ne l [] with rfl | hl
    · refine ⟨x,mem_cons_self,fun b hb => ?_⟩
      rw [mem_singleton.1 hb]
      exact irrefl x
    obtain ⟨m,hm,hmin⟩ := ih hl
    by_cases hx : less x m
    · refine ⟨x,mem_cons_self,fun b hb hless => ?_⟩
      rcases mem_cons.1 hb with rfl | hb
      · exact irrefl b hless
      · exact hmin b hb (IsTrans.trans _ _ _ hless hx)
    · refine ⟨m,mem_cons_of_mem _ hm,fun b hb => ?_⟩
      rcases mem_cons.1 hb with rfl | hb
      · exact hx
      · exact hmin b hb

section ListHeap
variable {less : α → α → Prop} [DecidableRel less] [DecidableEq α] {l rest : List α} {a : α}
/-- The first element that none is less than. -/
def popMinimal (less : α → α → Prop) [DecidableRel less] (l : List α) : Option (α × List α) :=
  (l.find? (fun a => ∀ b ∈ l, ¬less b a)).map fun a => (a,l.erase a)

lemma popMinimal_spec (h : popMinimal less l = some (a,rest)) : l.Perm (a :: rest) ∧ ∀ b ∈ l, ¬less b a := by
  obtain ⟨a',ha,heq⟩ := Option.map_eq_some_iff.1 h
  cases heq
  exact ⟨perm_cons_erase (mem_of_find?_eq_some ha),by simpa using find?_some ha⟩

lemma popMinimal_isSome [IsTrans α less] [Std.Irrefl less] (h : l ≠ []) : (popMinimal less l).isSome := by
  obtain ⟨a,ha,hmin⟩ : ∃ a ∈ l, ∀ b ∈ l, ¬less b a := exists_minimal h
  rw [popMinimal,Option.isSome_map]
  exact find?_isSome.2 ⟨a,ha,decide_eq_true hmin⟩

/-- The heap as a list, the last element pushed in front. Of two elements it yields the one pushed
last unless the other one is less, as a min-max heap in an array does. -/
def listHeap (less : α → α → Prop) [DecidableRel less] [IsTrans α less] [Std.Irrefl less] : Heap less where
  pop := popMinimal less
  popMax := popMinimal (fun a b => less b a)
  pop_perm h := (popMinimal_spec h).1
  popMax_perm h := (popMinimal_spec h).1
  pop_isSome := popMinimal_isSome
  popMax_isSome := popMinimal_isSome
  pop_least _ h := (popMinimal_spec h).2
  popMax_greatest _ h := (popMinimal_spec h).2

end ListHeap
end DataStreams
