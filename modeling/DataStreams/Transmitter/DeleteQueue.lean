import Mathlib.Data.List.Perm.Basic

/-! The hashes of finished transmissions wait for a loop that deletes them in batches. -/
namespace DataStreams.Transmitter
open List

def deleteQueueMaxSize : ℕ := 1000000
def deleteBatchSize : ℕ := 1000

/-- The oldest hashes beyond the limit are dropped. -/
def addToDeleteQueue (deleteQueue hashes : List ℕ) : List ℕ :=
  (deleteQueue ++ hashes).drop ((deleteQueue ++ hashes).length - deleteQueueMaxSize)

/-- Where the flush loop is, with the hashes not yet deleted. -/
inductive FlushStage
  | waiting
  | deleting (overtime : Bool) (hashes : List ℕ)
  | retrying (overtime : Bool) (hashes : List ℕ)
  | returned

namespace FlushStage
def hashes : FlushStage → List ℕ
  | .deleting _ hashes | .retrying _ hashes => hashes
  | .waiting | .returned => []

variable (overtime : Bool)
/-- The pass in overtime is the last one. -/
def ended : FlushStage := if overtime then .returned else .waiting

def next (hashes : List ℕ) : FlushStage :=
  if hashes = [] then ended overtime else .deleting overtime hashes

@[simp] lemma hashes_ended : (ended overtime).hashes = [] := by
  cases overtime <;> rfl

@[simp] lemma hashes_next (l : List ℕ) : (next overtime l).hashes = l := by
  unfold next
  split_ifs with h
  · rw [hashes_ended,h]
  · rfl

end FlushStage

structure Deletes where
  deleteQueue : List ℕ
  stage : FlushStage
  stopped : Bool

namespace Deletes
def start : Deletes := ⟨[],.waiting,false⟩

def pending (s : Deletes) : List ℕ := s.stage.hashes ++ s.deleteQueue

/-- The steps, with the hashes passed to `AsyncDelete` and the batch the database deletes. -/
inductive Step (s : Deletes) : List ℕ → List ℕ → Deletes → Prop
  | asyncDelete (hash : ℕ) : Step s [hash] [] { s with deleteQueue := addToDeleteQueue s.deleteQueue [hash] }
  | stop : Step s [] [] { s with stopped := true }
  -- both cases of the select may be ready, so a tick can still come after the stop
  | tick (h : s.stage = .waiting) : Step s [] [] { s with deleteQueue := [],stage := .next false s.deleteQueue }
  | exit (h : s.stage = .waiting) (hstop : s.stopped = true) :
    Step s [] [] { s with deleteQueue := [],stage := .next true s.deleteQueue }
  | deleteOk {overtime hashes} (h : s.stage = .deleting overtime hashes) :
    Step s [] (hashes.take deleteBatchSize) { s with stage := .next overtime (hashes.drop deleteBatchSize) }
  | deleteFails {overtime hashes} (h : s.stage = .deleting overtime hashes) :
    Step s [] [] { s with stage := .retrying overtime hashes }
  | retry {overtime hashes} (h : s.stage = .retrying overtime hashes) :
    Step s [] [] { s with stage := .deleting overtime hashes }
  -- in overtime the context ends by its timeout
  | cancel {overtime hashes} (h : s.stage = .retrying overtime hashes)
      (hdone : overtime = true ∨ s.stopped = true) :
    Step s [] [] { s with deleteQueue := addToDeleteQueue s.deleteQueue hashes,stage := .ended overtime }

/-- The states of all interleavings, with the hashes passed and deleted so far, in which
fewer hashes than the limit were pending at each call. -/
inductive Reachable : List ℕ → List ℕ → Deletes → Prop
  | start : Reachable [] [] start
  | step {passed deleted passes batch s s'} (h : Reachable passed deleted s)
      (room : passes ≠ [] → s.pending.length < deleteQueueMaxSize) (hstep : s.Step passes batch s') :
    Reachable (passed ++ passes) (deleted ++ batch) s'

variable {passed deleted passes batch : List ℕ} {s s' : Deletes}
lemma addToDeleteQueue_eq {q hashes : List ℕ} (h : q.length + hashes.length ≤ deleteQueueMaxSize) :
    addToDeleteQueue q hashes = q ++ hashes := by
  rw [addToDeleteQueue,length_append,Nat.sub_eq_zero_of_le h,drop_zero]

/-- What is pending after a step, and what it deletes, was pending before or is passed. -/
lemma Step.perm (h : s.Step passes batch s') (hmax : s.pending.length + passes.length ≤ deleteQueueMaxSize) :
    (s'.pending ++ batch).Perm (s.pending ++ passes) := by
  simp only [pending,length_append] at hmax ⊢
  cases h with
  | asyncDelete hash =>
    rw [addToDeleteQueue_eq (by omega),append_nil,append_assoc]
  | stop => exact List.Perm.refl _
  | tick h | exit h =>
    rw [FlushStage.hashes_next,h]
    simp [FlushStage.hashes]
  | deleteOk h =>
    -- the batch is the front of the hashes
    rw [FlushStage.hashes_next,h,FlushStage.hashes,append_nil,append_assoc]
    refine (perm_append_comm.append_left _).trans ?_
    rw [← append_assoc]
    refine (perm_append_comm.append_right _).trans ?_
    rw [take_append_drop]
  | deleteFails h | retry h => simp [h,FlushStage.hashes]
  | cancel h =>
    rw [h,FlushStage.hashes] at hmax ⊢
    rw [addToDeleteQueue_eq (by omega),FlushStage.hashes_ended,append_nil,append_nil,nil_append]
    exact perm_append_comm

/-- Every hash passed on is deleted or still pending. -/
lemma Reachable.conserved (h : Reachable passed deleted s) :
    passed.Perm (deleted ++ s.pending) ∧ s.pending.length ≤ deleteQueueMaxSize := by
  induction h with
  | start => exact ⟨List.Perm.refl _,Nat.zero_le _⟩
  | @step passed deleted passes batch s s' h room hstep ih =>
    obtain ⟨hpassed,hmax⟩ := ih
    have hroom : s.pending.length + passes.length ≤ deleteQueueMaxSize := by
      cases hstep with
      | asyncDelete hash => exact room (cons_ne_nil _ _)
      | _ => exact hmax
    have hperm := hstep.perm hroom
    constructor
    · calc
        (passed ++ passes).Perm (deleted ++ s.pending ++ passes) := hpassed.append_right _
        _ = deleted ++ (s.pending ++ passes) := append_assoc _ _ _
        List.Perm _ (deleted ++ (s'.pending ++ batch)) := hperm.symm.append_left _
        List.Perm _ (deleted ++ (batch ++ s'.pending)) := perm_append_comm.append_left _
        _ = deleted ++ batch ++ s'.pending := (append_assoc _ _ _).symm
    · have hlength := hperm.length_eq
      simp only [length_append] at hlength
      omega

/-- Every hash passed is deleted, in the list the loop works on or in the queue, and a step
takes none away except by a delete. -/
theorem deletes_conserved (h : Reachable passed deleted s) :
    passed.Perm (deleted ++ (s.stage.hashes ++ s.deleteQueue)) ∧
      ∀ passes batch s', s.Step passes batch s' → s.pending.length + passes.length ≤ deleteQueueMaxSize →
        (s'.pending ++ batch).Perm (s.pending ++ passes) :=
  ⟨h.conserved.1,fun _ _ _ hstep hmax => hstep.perm hmax⟩

lemma Reachable.quiet (h : Reachable passed deleted s) (hstep : s.Step [] batch s') : Reachable passed (deleted ++ batch) s' := by
  have hnext := h.step (fun hne => absurd rfl hne) hstep
  rwa [append_nil] at hnext

lemma Reachable.call (h : Reachable passed deleted s) (hroom : s.pending.length < deleteQueueMaxSize) (hash : ℕ) :
    Reachable (passed ++ [hash]) deleted { s with deleteQueue := s.deleteQueue ++ [hash] } := by
  have hnext := h.step (fun _ => hroom) (.asyncDelete hash)
  rw [pending,length_append] at hroom
  rwa [addToDeleteQueue_eq (show s.deleteQueue.length + 1 ≤ _ by omega),append_nil] at hnext

/-- The loop deletes the hashes 7 and 8. The delete of 9 and 10 fails, and while the loop
waits to try again it is stopped and puts them back behind 11. -/
theorem deletes_conserved_taken :
    Reachable [7,8,9,10,11] [7,8] ⟨[11,9,10],.waiting,true⟩ ∧ [7,8,9,10,11].Perm ([7,8] ++ ([] ++ [11,9,10])) := by
  have htaken : Reachable [7,8] [] ⟨[],.deleting false [7,8],false⟩ :=
    ((Reachable.start.call (by decide) 7).call (by decide) 8).quiet (.tick rfl)
  have hdeleted : Reachable [7,8] [7,8] ⟨[],.waiting,false⟩ := by
    have hbatch := htaken.quiet (.deleteOk rfl)
    exact hbatch
  have hagain : Reachable [7,8,9,10] [7,8] ⟨[],.deleting false [9,10],false⟩ :=
    ((hdeleted.call (by decide) 9).call (by decide) 10).quiet (.tick rfl)
  have hfailed : Reachable [7,8,9,10] [7,8] ⟨[],.retrying false [9,10],false⟩ := hagain.quiet (.deleteFails rfl)
  have hcancelled : Reachable [7,8,9,10,11] [7,8] ⟨[11,9,10],.waiting,true⟩ := by
    have hback := ((hfailed.call (by decide) 11).quiet .stop).quiet (.cancel rfl (.inr rfl))
    rwa [addToDeleteQueue_eq (by decide)] at hback
  exact ⟨hcancelled,(deletes_conserved hcancelled).1⟩

end Deletes
end DataStreams.Transmitter
