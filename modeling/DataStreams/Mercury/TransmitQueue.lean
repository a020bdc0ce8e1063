import DataStreams.Foundation.Heap
import DataStreams.Protocol.Types
import Mathlib.Data.Prod.Lex

/-! The transmit queue is to yield the latest report first and to drop the oldest one when it is
full. -/
namespace DataStreams.Mercury
open List

structure Transmission where
  payload : Bytes
  configDigest : Bytes
  epoch : ℕ
  round : ℕ
  extraHash : Bytes
  deriving DecidableEq

namespace Transmission
def less (t u : Transmission) : Prop := u.epoch < t.epoch ∧ u.round < t.round

instance : DecidableRel less := fun t u => inferInstanceAs (Decidable (u.epoch < t.epoch ∧ u.round < t.round))

instance : IsTrans Transmission less := ⟨fun _ _ _ h h' => ⟨h'.1.trans h.1,h'.2.trans h.2⟩⟩

instance : Std.Irrefl less := ⟨fun _ h => lt_irrefl _ h.1⟩

def time (t : Transmission) : ℕ ×ₗ ℕ := toLex (t.epoch,t.round)

lemma time_lt_of_less {t u : Transmission} (h : less t u) : u.time < t.time := Prod.Lex.lt_iff.2 (.inl h.1)

end Transmission
open Transmission

structure TransmitQueue where
  pq : List Transmission
  closed : Bool

namespace TransmitQueue
variable (H : Heap less) (maxlen : ℕ)
/-- The queue with the transmission, and what was dropped for it and passed to be deleted;
`maxlen` 0 is no limit. A closed queue takes nothing. -/
def push (q : TransmitQueue) (t : Transmission) : Option (TransmitQueue × List Transmission) :=
  if q.closed then none
  else if maxlen ≠ 0 ∧ q.pq.length = maxlen then
    match H.popMax q.pq with
    | none => some ({ q with pq := t :: q.pq },[])
    | some (removed,rest) => some ({ q with pq := t :: rest },[removed])
  else some ({ q with pq := t :: q.pq },[])

/-- What the queue has been through since it was filled: the transmissions that were pushed,
popped and passed to be deleted. -/
structure History where
  pushed : List Transmission
  popped : List Transmission
  deleted : List Transmission

inductive Reaches (loaded : List Transmission) : TransmitQueue → History → Prop
  | init : Reaches loaded ⟨loaded,false⟩ ⟨[],[],[]⟩
  | push {q q' h t dropped} : Reaches loaded q h → q.push H maxlen t = some (q',dropped) →
      Reaches loaded q' { h with pushed := t :: h.pushed, deleted := dropped ++ h.deleted }
  | pop {q h t rest} : Reaches loaded q h → H.pop q.pq = some (t,rest) →
      Reaches loaded { q with pq := rest } { h with popped := t :: h.popped }

variable {H maxlen} {loaded : List Transmission} {q q' : TransmitQueue} {t : Transmission} {dropped : List Transmission}
lemma push_cases (h : q.push H maxlen t = some (q',dropped)) :
    (q'.pq = t :: q.pq ∧ dropped = [] ∧ (maxlen ≠ 0 → q.pq.length ≠ maxlen)) ∨
      ∃ removed rest, H.popMax q.pq = some (removed,rest) ∧ q'.pq = t :: rest ∧ dropped = [removed] ∧ q.pq.length = maxlen := by
  unfold push at h
  split_ifs at h with hclosed hfull
  · split at h
    next hpop =>
      have hnil : q.pq = [] := by
        by_contra hne
        exact absurd (H.popMax_isSome hne) (by rw [hpop]; decide)
      exact absurd (hfull.2.symm.trans (congrArg List.length hnil)) hfull.1
    next removed rest hpop =>
      cases h
      exact .inr ⟨removed,rest,hpop,rfl,rfl,hfull.2⟩
  · cases h
    exact .inl ⟨rfl,rfl,fun hmax hlen => hfull ⟨hmax,hlen⟩⟩

/-- From the first push on the queue is not longer than it may be, and what is in no place is
passed to be deleted. -/
def Bounded (H : Heap less) (maxlen : ℕ) (loaded : List Transmission) : Prop :=
  ∀ q h, Reaches H maxlen loaded q h → (h.pushed ≠ [] → q.pq.length ≤ maxlen) ∧
    (h.pushed ++ loaded).Perm (q.pq ++ h.popped ++ h.deleted)

/-- What was pushed or loaded is queued, popped or deleted. -/
lemma Reaches.perm {h : History} (hr : Reaches H maxlen loaded q h) :
    (h.pushed ++ loaded).Perm (q.pq ++ h.popped ++ h.deleted) := by
  induction hr with
  | init => simp
  | @push q q' h t dropped _ hpush ih =>
    have hcons := (ih.cons t)
    rcases push_cases hpush with ⟨hpq,rfl,-⟩ | ⟨removed,rest,hpop,hpq,rfl,-⟩
    · rw [hpq]
      exact hcons
    · rw [hpq]
      refine hcons.trans ?_
      have hrest := ((H.popMax_perm hpop).append_right h.popped).append_right h.deleted
      refine (hrest.cons t).trans ?_
      simp only [cons_append,append_assoc,nil_append]
      refine List.Perm.cons t ?_
      exact (perm_middle.symm.trans (List.Perm.append_left _ (perm_middle.symm)))
  | @pop q h t rest _ hpop ih =>
    refine ih.trans ?_
    have hrest := ((H.pop_perm hpop).append_right h.popped).append_right h.deleted
    refine hrest.trans ?_
    simp only [cons_append,append_assoc]
    exact perm_middle.symm

lemma Reaches.length_le {h : History} (hlen : loaded.length ≤ maxlen) (hmax : maxlen ≠ 0) (hr : Reaches H maxlen loaded q h) :
    q.pq.length ≤ maxlen := by
  induction hr with
  | init => exact hlen
  | push _ hpush ih =>
    rcases push_cases hpush with ⟨hpq,-,hroom⟩ | ⟨removed,rest,hpop,hpq,-,hfull⟩
    · have := hroom hmax
      rw [hpq,length_cons]
      omega
    · have hrest := (H.popMax_perm hpop).length_eq
      rw [length_cons] at hrest
      rw [hpq,length_cons]
      omega
  | pop _ hpop ih =>
    have hrest := (H.pop_perm hpop).length_eq
    rw [length_cons] at hrest
    dsimp only
    omega

/-- A queue that may hold something stays within its capacity exactly if what is loaded fits. -/
theorem bounded_iff (H : Heap less) {maxlen : ℕ} (hmax : 1 ≤ maxlen) (loaded : List Transmission) :
    Bounded H maxlen loaded ↔ loaded.length ≤ maxlen := by
  refine ⟨fun h => ?_,fun hlen q h hr => ⟨fun _ => hr.length_le hlen (by omega),hr.perm⟩⟩
  by_contra hlong
  have hpush : push H maxlen ⟨loaded,false⟩ ⟨[],[],0,0,[]⟩ = some (⟨⟨[],[],0,0,[]⟩ :: loaded,false⟩,[]) := by
    rw [push,if_neg Bool.false_ne_true,if_neg (by dsimp only; omega)]
  have hle := (h _ _ (.push .init hpush)).1 (cons_ne_nil _ _)
  rw [length_cons] at hle
  omega

/-- Three rows are loaded into a queue for two. -/
theorem not_bounded_of_loaded : ∃ H : Heap less, ¬Bounded H 2 (List.replicate 3 ⟨[],[],1,1,[]⟩) := by
  refine ⟨listHeap less,fun h => ?_⟩
  have hle := (h _ _ (.push .init (t := ⟨[],[],2,2,[]⟩) rfl)).1 (cons_ne_nil _ _)
  exact absurd hle (by decide)

theorem bounded_of_full : Bounded (listHeap less) 2 [⟨[],[],1,2,[]⟩,⟨[],[],1,1,[]⟩] :=
  (bounded_iff _ (by decide) _).2 (by decide)

/-- The next pop yields a latest report, and a push that drops a report drops an oldest one. -/
structure InOrder (H : Heap less) (maxlen : ℕ) (q : TransmitQueue) : Prop where
  pop : ∀ t rest, H.pop q.pq = some (t,rest) → ∀ u ∈ q.pq, u.time ≤ t.time
  evict : ∀ t q' dropped, q.push H maxlen t = some (q',dropped) → ∀ d ∈ dropped, ∀ u ∈ q.pq, d.time ≤ u.time

/-- Of two reports the later one has both a greater epoch and a greater round. -/
def Comparable (P : Transmission → Prop) : Prop := ∀ t u, P t → P u → u.time < t.time → less t u

variable {P : Transmission → Prop} {pq : List Transmission}
lemma Comparable.strictWeakOn (h : Comparable P) (hP : ∀ t ∈ pq, P t) : StrictWeakOn less pq where
  irrefl t _ := irrefl t
  trans t _ u _ v _ := IsTrans.trans t u v
  split t ht u hu v hv hless := by
    rcases lt_or_ge u.time t.time with hlt | hle
    · exact .inl (h t u (hP t ht) (hP u hu) hlt)
    · exact .inr (h u v (hP u hu) (hP v hv) ((time_lt_of_less hless).trans_le hle))

lemma Comparable.inOrder (h : Comparable P) (hP : ∀ t ∈ q.pq, P t) : InOrder H maxlen q where
  pop t rest hpop u hu := by
    have ht : t ∈ q.pq := (H.pop_perm hpop).mem_iff.2 mem_cons_self
    by_contra! hlt
    exact H.pop_least (h.strictWeakOn hP) hpop u hu (h u t (hP u hu) (hP t ht) hlt)
  evict t q' dropped hpush d hd u hu := by
    rcases push_cases hpush with ⟨-,rfl,-⟩ | ⟨removed,rest,hpop,-,rfl,-⟩
    · cases hd
    · cases mem_singleton.1 hd
      have hmem : d ∈ q.pq := (H.popMax_perm hpop).mem_iff.2 mem_cons_self
      by_contra! hlt
      exact H.popMax_greatest (h.strictWeakOn hP) hpop u hu (h d u (hP d hmem) (hP u hu) hlt)

/-- All runs on reports of a class are in order, for any heap that is correct for strict weak
orders, exactly if the reports of the class are comparable. -/
theorem inOrder_iff_comparable (P : Transmission → Prop) :
    (∀ H maxlen loaded q h, Reaches H maxlen loaded q h → (∀ t ∈ h.pushed ++ loaded, P t) → InOrder H maxlen q) ↔
      Comparable P := by
  constructor
  · intro h t u ht hu hlt
    by_contra hless
    -- in a heap of these two nothing comes before the older one
    have hP : ∀ v ∈ [u,t], P v := forall_mem_cons.2 ⟨hu,forall_mem_singleton.2 ht⟩
    have hmin : ∀ v ∈ [u,t], ¬less v u := forall_mem_cons.2 ⟨irrefl u,forall_mem_singleton.2 hless⟩
    have hpop : (listHeap less).pop [u,t] = some (u,[u,t].erase u) := by
      have hfirst : [u,t].find? (fun a => ∀ b ∈ [u,t], ¬less b a) = some u := find?_cons_of_pos (decide_eq_true hmin)
      change popMinimal less [u,t] = _
      rw [popMinimal,hfirst,Option.map_some]
    have hle := (h (listHeap less) 0 [u,t] _ _ .init hP).pop u _ hpop t (mem_cons_of_mem _ mem_cons_self)
    exact absurd hle (not_le.2 hlt)
  · intro h H maxlen loaded q history hr hP
    refine h.inOrder fun t ht => hP t (hr.perm.mem_iff.2 ?_)
    rw [append_assoc]
    exact mem_append_left _ ht

/-- The first report of epoch 2 waits for the fifth one of epoch 1, which was pushed after it. -/
theorem not_inOrder_epochs :
    ∃ q h, Reaches (listHeap less) 10 [] q h ∧ h.pushed = [⟨[],[],1,5,[]⟩,⟨[],[],2,1,[]⟩] ∧
      ¬InOrder (listHeap less) 10 q := by
  let new : Transmission := ⟨[],[],2,1,[]⟩
  let old : Transmission := ⟨[],[],1,5,[]⟩
  refine ⟨_,_,.push (.push .init (t := new) rfl) (t := old) rfl,rfl,fun h => ?_⟩
  have hle := h.pop old [new] (by decide) new (mem_cons_of_mem _ mem_cons_self)
  exact absurd hle (by decide)

end TransmitQueue
end DataStreams.Mercury
