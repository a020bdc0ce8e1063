import Mathlib.Algebra.BigOperators.Fin
import Mathlib.Data.List.GetD

/-! Workers that take tasks from a shared counter. Their steps interleave freely and leave what
one loop computes. -/
namespace DataStreams.Workers
open List Function
variable {α β : Type} {W : ℕ}
inductive Phase
  | idle
  | busy (i : ℕ)
  | returned
  deriving DecidableEq

structure State (β : Type) (W : ℕ) where
  next : ℕ
  phase : Fin W → Phase
  slots : List β

/-- Slots start out with the value of an allocated and unwritten result. -/
def start (unset : β) (tasks : List α) : State β W := ⟨0,fun _ => .idle,List.replicate tasks.length unset⟩

def State.Finished (s : State β W) : Prop := ∀ w, s.phase w = .returned

/-- Taking an index is one step, and computing a task and writing its slot is another. -/
inductive Step (f : α → β) (tasks : List α) : State β W → State β W → Prop
  | take {s} (w : Fin W) (hidle : s.phase w = .idle) (hnext : s.next < tasks.length) :
      Step f tasks s { s with next := s.next + 1, phase := update s.phase w (.busy s.next) }
  | leave {s} (w : Fin W) (hidle : s.phase w = .idle) (hnext : tasks.length ≤ s.next) :
      Step f tasks s { s with next := s.next + 1, phase := update s.phase w .returned }
  | write {s} (w : Fin W) (i : ℕ) (a : α) (hbusy : s.phase w = .busy i) (ha : tasks[i]? = some a) :
      Step f tasks s { s with phase := update s.phase w .idle, slots := s.slots.set i (f a) }

abbrev Reaches (f : α → β) (tasks : List α) : State β W → State β W → Prop :=
  Relation.ReflTransGen (Step f tasks)

/-- Every index below the counter is written or in the hands of a worker. -/
structure Inv (f : α → β) (tasks : List α) (s : State β W) : Prop where
  length : s.slots.length = tasks.length
  taken : ∀ i, i < s.next → i < tasks.length → s.slots[i]? = tasks[i]?.map f ∨ ∃ w, s.phase w = .busy i
  task : ∀ w i, s.phase w = .busy i → i < tasks.length
  past : ∀ w, s.phase w = .returned → tasks.length ≤ s.next

variable {f : α → β} {tasks : List α} {s t : State β W}
lemma inv_start (unset : β) : Inv f tasks (start unset tasks : State β W) where
  length := length_replicate
  taken i hi := absurd hi (Nat.not_lt_zero i)
  task w i h := by cases h
  past w h := by cases h

variable {phase : Fin W → Phase} {p : Phase} {v w : Fin W} {i : ℕ}
lemma busy_of_update (hv : phase v = .busy i) (hw : phase w ≠ .busy i) : update phase w p v = .busy i := by
  have hne : v ≠ w := by
    rintro rfl
    exact hw hv
  rw [update_of_ne hne,hv]

lemma eq_or_of_update {q : Phase} (h : update phase w p v = q) : p = q ∨ phase v = q := by
  by_cases hvw : v = w
  · subst hvw
    rw [update_self] at h
    exact .inl h
  · rw [update_of_ne hvw] at h
    exact .inr h

lemma Inv.take (h : Inv f tasks s) (hidle : s.phase w = .idle) (hnext : s.next < tasks.length) :
    Inv f tasks { s with next := s.next + 1, phase := update s.phase w (.busy s.next) } where
  length := h.length
  taken i hi hlt := by
    rcases Nat.lt_succ_iff_lt_or_eq.1 hi with hi | rfl
    · refine (h.taken i hi hlt).imp_right ?_
      rintro ⟨v,hv⟩
      exact ⟨v,busy_of_update hv (by rw [hidle]; exact Phase.noConfusion)⟩
    · exact .inr ⟨w,update_self ..⟩
  task v i hv := by
    rcases eq_or_of_update hv with heq | hv
    · cases heq
      exact hnext
    · exact h.task v i hv
  past v hv := by
    rcases eq_or_of_update hv with heq | hv
    · cases heq
    · exact (h.past v hv).trans (Nat.le_succ _)

lemma Inv.leave (h : Inv f tasks s) (hidle : s.phase w = .idle) (hnext : tasks.length ≤ s.next) :
    Inv f tasks { s with next := s.next + 1, phase := update s.phase w .returned } where
  length := h.length
  taken i _ hlt := by
    refine (h.taken i (hlt.trans_le hnext) hlt).imp_right ?_
    rintro ⟨v,hv⟩
    exact ⟨v,busy_of_update hv (by rw [hidle]; exact Phase.noConfusion)⟩
  task v i hv := by
    rcases eq_or_of_update hv with heq | hv
    · cases heq
    · exact h.task v i hv
  past _ _ := hnext.trans (Nat.le_succ _)

lemma Inv.write (h : Inv f tasks s) {a : α} (hbusy : s.phase w = .busy i)
    (ha : tasks[i]? = some a) :
    Inv f tasks { s with phase := update s.phase w .idle, slots := s.slots.set i (f a) } where
  length := (length_set ..).trans h.length
  taken j hj hlt := by
    by_cases hij : i = j
    · subst hij
      refine .inl ?_
      rw [getElem?_set_self (h.length ▸ hlt),ha]
      rfl
    · rw [getElem?_set_ne hij]
      refine (h.taken j hj hlt).imp_right ?_
      rintro ⟨v,hv⟩
      refine ⟨v,busy_of_update hv ?_⟩
      rw [hbusy]
      intro hbusy'
      exact hij (Phase.busy.inj hbusy')
  task v j hv := by
    rcases eq_or_of_update hv with heq | hv
    · cases heq
    · exact h.task v j hv
  past v hv := by
    rcases eq_or_of_update hv with heq | hv
    · cases heq
    · exact h.past v hv

lemma Inv.reaches (h : Inv f tasks s) (hst : Reaches f tasks s t) : Inv f tasks t := by
  induction hst with
  | refl => exact h
  | tail _ hstep ih =>
    cases hstep with
    | take w hidle hnext => exact ih.take hidle hnext
    | leave w hidle hnext => exact ih.leave hidle hnext
    | write w i a hbusy ha => exact ih.write hbusy ha

/-- However the steps interleave, the slots end up as one loop leaves them. -/
lemma slots_of_finished (hW : 0 < W) {unset : β} (hst : Reaches f tasks (start unset tasks) s)
    (hfinished : s.Finished) : s.slots = tasks.map f := by
  have hinv := (inv_start unset).reaches hst
  have hpast := hinv.past ⟨0,hW⟩ (hfinished ⟨0,hW⟩)
  apply ext_getElem?
  intro i
  rw [getElem?_map]
  by_cases hlt : i < tasks.length
  · rcases hinv.taken i (hlt.trans_le hpast) hlt with hslot | ⟨w,hw⟩
    · exact hslot
    · exact absurd ((hfinished w).symm.trans hw) Phase.noConfusion
  · rw [getElem?_eq_none (not_lt.1 hlt),getElem?_eq_none (hinv.length ▸ not_lt.1 hlt)]
    rfl

def Phase.steps : Phase → ℕ
  | .idle => 1
  | .busy _ => 2
  | .returned => 0

def State.remaining (n : ℕ) (s : State β W) : ℕ := 2 * (n - s.next) + ∑ w, (s.phase w).steps

lemma sum_steps_update (phase : Fin W → Phase) (w : Fin W) (p : Phase) :
    ∑ v, (update phase w p v).steps + (phase w).steps = ∑ v, (phase v).steps + p.steps := by
  have hcomp : (fun v => (update phase w p v).steps) = update (fun v => (phase v).steps) w p.steps := by
    funext v
    exact apply_update (fun _ => Phase.steps) phase w p v
  rw [hcomp,Finset.sum_update_of_mem (Finset.mem_univ w),← Finset.sum_sdiff (Finset.subset_univ {w}),
    Finset.sum_singleton]
  omega

lemma Step.remaining_lt (h : Step f tasks s t) : t.remaining tasks.length < s.remaining tasks.length := by
  cases h with
  | take w hidle hnext =>
    have hsum := sum_steps_update s.phase w (.busy s.next)
    simp only [State.remaining,hidle,Phase.steps] at hsum ⊢
    omega
  | leave w hidle hnext =>
    have hsum := sum_steps_update s.phase w .returned
    simp only [State.remaining,hidle,Phase.steps] at hsum ⊢
    omega
  | write w i a hbusy ha =>
    have hsum := sum_steps_update s.phase w .idle
    simp only [State.remaining,hbusy,Phase.steps] at hsum ⊢
    omega

lemma Inv.exists_step (h : Inv f tasks s) (hw : s.phase w ≠ .returned) : ∃ t, Step f tasks s t := by
  cases hphase : s.phase w with
  | idle =>
    rcases lt_or_ge s.next tasks.length with hnext | hnext
    · exact ⟨_,.take w hphase hnext⟩
    · exact ⟨_,.leave w hphase hnext⟩
  | busy i => exact ⟨_,.write w i _ hphase (getElem?_eq_getElem (h.task w i hphase))⟩
  | returned => exact absurd hphase hw

lemma Inv.exists_finished (h : Inv f tasks s) : ∃ t, Reaches f tasks s t ∧ t.Finished := by
  induction hn : s.remaining tasks.length using Nat.strong_induction_on generalizing s with
  | _ n ih =>
    subst hn
    by_cases hfinished : s.Finished
    · exact ⟨s,.refl,hfinished⟩
    obtain ⟨w,hw⟩ := not_forall.1 hfinished
    obtain ⟨t,hstep⟩ := h.exists_step hw
    obtain ⟨u,htu,hu⟩ := ih _ hstep.remaining_lt (h.reaches (.single hstep)) rfl
    exact ⟨u,htu.head hstep,hu⟩

/-- Some run ends; every run does, since each step lowers what remains. -/
lemma exists_finished (f : α → β) (tasks : List α) (W : ℕ) (unset : β) :
    ∃ s : State β W, Reaches f tasks (start unset tasks) s ∧ s.Finished :=
  (inv_start unset).exists_finished

end DataStreams.Workers
