import Mathlib.Data.List.Count

/-! Calls, fetches, Start and Close of a cache entry in any interleaving; a step is what happens
under one lock. -/
namespace DataStreams.Mercury
open Function List

/-- The channel `chStop` is closed when the cache is `stopped`. -/
inductive ServiceState
  | unstarted
  | started
  | stopping
  | stopped

inductive CallStage
  | hot
  | cold
  | initiating
  | waiting (ch : Option ℕ)
  | returned

/-- Where the fetch is that a call initiates; a running cache queries again after a failure. -/
inductive FlightStage
  | idle
  | initiated
  | abandoning
  | querying
  | sleeping
  | completing
  | ended

/-- The steps that are left if no query fails. -/
def FlightStage.left : FlightStage → ℕ
  | .initiated | .sleeping => 3
  | .querying => 2
  | .abandoning | .completing => 1
  | .idle | .ended => 0

structure Call where
  stage : CallStage
  fetch : FlightStage
  ctxDone : Bool

/-- An entry and its calls. A channel bears the number of the call that made it. -/
structure Flights where
  service : ServiceState
  fetching : Bool
  fetchCh : Option ℕ
  closed : ℕ → Bool
  calls : ℕ → Call

/-- A step of a fetch, the failure of its query in a running cache, or any other step. -/
inductive Move
  | fetch (i : ℕ)
  | failed (i : ℕ)
  | other
  deriving DecidableEq

namespace Flights
def new : Flights := ⟨.unstarted,false,none,fun _ => false,fun _ => ⟨.hot,.idle,false⟩⟩

/-- None is a panic. -/
def initiateFetch (v : Flights) (i : ℕ) : Option Flights :=
  if v.fetching then none else some { v with fetching := true, fetchCh := some i, closed := update v.closed i false }

/-- None is a panic: a channel that is nil or closed cannot be closed. -/
def completeFetch (v : Flights) : Option Flights :=
  if v.fetching then
    v.fetchCh.bind fun ch =>
      if v.closed ch then none
      else some { v with closed := update v.closed ch true, fetchCh := none, fetching := false }
  else none

def set (v : Flights) (i : ℕ) (c : Call) : Flights := { v with calls := update v.calls i c }

/-- A case of the select in `waitForResult` is ready. -/
def Released (v : Flights) (i : ℕ) (ch : Option ℕ) : Prop :=
  (v.calls i).ctxDone = true ∨ v.service = .stopped ∨ ∃ c, ch = some c ∧ v.closed c = true

inductive Step (v : Flights) : Move → Option Flights → Prop
  | hit {i} (h : (v.calls i).stage = .hot ∨ (v.calls i).stage = .cold) :
    Step v .other (v.set i { v.calls i with stage := .returned })
  | wait {i} (h : (v.calls i).stage = .hot ∨ (v.calls i).stage = .cold) (hf : v.fetching = true) :
    Step v .other (v.set i { v.calls i with stage := .waiting v.fetchCh })
  | miss {i} (h : (v.calls i).stage = .hot) (hf : v.fetching = false) :
    Step v .other (v.set i { v.calls i with stage := .cold })
  | initiate {i} (h : (v.calls i).stage = .cold) (hf : v.fetching = false) :
    Step v .other ((v.initiateFetch i).map fun v =>
      v.set i { v.calls i with stage := .initiating, fetch := .initiated })
  | go {i} (h : (v.calls i).fetch = .initiated) (hs : v.service = .started) :
    Step v (.fetch i) (v.set i { v.calls i with stage := .waiting (some i), fetch := .querying })
  | notStarted {i} (h : (v.calls i).fetch = .initiated) (hs : v.service ≠ .started) :
    Step v (.fetch i) (v.set i { v.calls i with fetch := .abandoning })
  | abandonFetch {i} (h : (v.calls i).fetch = .abandoning) :
    Step v (.fetch i) (v.completeFetch.map fun v => v.set i { v.calls i with stage := .returned, fetch := .ended })
  | fail {i} (h : (v.calls i).fetch = .querying) (hs : v.service ≠ .stopped) :
    Step v (.failed i) (v.set i { v.calls i with fetch := .sleeping })
  -- the query succeeds, or it fails and the cache is stopped
  | finish {i} (h : (v.calls i).fetch = .querying) : Step v (.fetch i) (v.set i { v.calls i with fetch := .completing })
  | retry {i} (h : (v.calls i).fetch = .sleeping) : Step v (.fetch i) (v.set i { v.calls i with fetch := .querying })
  | stop {i} (h : (v.calls i).fetch = .sleeping) (hs : v.service = .stopped) :
    Step v (.fetch i) (v.set i { v.calls i with fetch := .completing })
  | complete {i} (h : (v.calls i).fetch = .completing) :
    Step v (.fetch i) (v.completeFetch.map fun v => v.set i { v.calls i with fetch := .ended })
  | leave {i ch} (h : (v.calls i).stage = .waiting ch) (hr : v.Released i ch) :
    Step v .other (v.set i { v.calls i with stage := .returned })
  | cancel {i} : Step v .other (v.set i { v.calls i with ctxDone := true })
  | start (hs : v.service = .unstarted) : Step v .other (some { v with service := .started })
  | close (hs : v.service = .started) : Step v .other (some { v with service := .stopping })
  | closeStop (hs : v.service = .stopping) : Step v .other (some { v with service := .stopped })

inductive Run (v : Flights) : List Move → Flights → Prop
  | nil : Run v [] v
  | step {as a v' w} (h : Run v as v') (hstep : v'.Step a (some w)) : Run v (a :: as) w

/-- What holds of a call, given whether its channel is closed and whether it is that of the entry. -/
structure Tidy (closed : Bool) (own : Prop) (c : Call) : Prop where
  owner : 0 < c.fetch.left ↔ own
  closed : closed = true ↔ c.fetch = .ended
  fresh : c.stage = .hot ∨ c.stage = .cold → c.fetch = .idle
  initiating : c.fetch = .initiated ∨ c.fetch = .abandoning → c.stage = .initiating
  waiting : c.stage ≠ .waiting none

/-- The channel of the entry is that of the one fetch in flight. -/
structure Owned (v : Flights) : Prop where
  fetching : v.fetching = v.fetchCh.isSome
  calls : ∀ i, Tidy (v.closed i) (v.fetchCh = some i) (v.calls i)

/-- What a run does to the call `i`. A fetch takes at most the steps that are left and one more
for each query that fails. A caller waits until it returns. -/
structure Advances (as : List Move) (i : ℕ) (c d : Call) : Prop where
  begun : c.fetch ≠ .idle → d.fetch ≠ .idle
  left : c.fetch ≠ .idle → as.count (.fetch i) + d.fetch.left ≤ c.fetch.left + as.count (.failed i)
  ended : c.fetch = .ended → d.fetch = .ended
  waiting : ∀ ch, c.stage = .waiting ch → d.stage = .waiting ch ∨ d.stage = .returned
  returned : c.stage = .returned → d.stage = .returned
  ctxDone : c.ctxDone = true → d.ctxDone = true

/-- What a run does. A stopped cache stays stopped, and a query that fails there is the last one. -/
structure Next (v : Flights) (as : List Move) (w : Flights) : Prop where
  owned : Owned w
  stopped : v.service = .stopped → w.service = .stopped ∧ ∀ i, .failed i ∉ as
  calls : ∀ i, Advances as i (v.calls i) (w.calls i)

variable {v w u : Flights} {i : ℕ} {a : Move} {as : List Move}
lemma owned_new : Owned new := ⟨rfl,fun i => by constructor <;> simp [new,FlightStage.left]⟩

lemma Advances.cons {c d e : Call} (h : Advances as i c d) (h' : Advances [a] i d e) : Advances (a :: as) i c e := by
  refine ⟨h'.begun ∘ h.begun,fun hc => ?_,h'.ended ∘ h.ended,fun ch hch => ?_,h'.returned ∘ h.returned,
    h'.ctxDone ∘ h.ctxDone⟩
  · have hleft := h.left hc
    have hleft' := h'.left (h.begun hc)
    simp only [count_cons,count_nil] at hleft' ⊢
    omega
  · rcases h.waiting ch hch with hd | hd
    · exact h'.waiting ch hd
    · exact .inr (h'.returned hd)

lemma Next.cons (h : Next v as w) (h' : Next w [a] u) : Next v (a :: as) u := by
  refine ⟨h'.owned,fun hs => ?_,fun i => (h.calls i).cons (h'.calls i)⟩
  obtain ⟨hw,has⟩ := h.stopped hs
  obtain ⟨hu,ha⟩ := h'.stopped hw
  refine ⟨hu,fun i => ?_⟩
  rw [← singleton_append,mem_append,not_or]
  exact ⟨ha i,has i⟩

/-- A step of one call leaves the others as they are. -/
lemma Owned.next_of {c : Call} (h : Owned v) (hservice : w.service = v.service) (hcalls : w.calls = update v.calls i c)
    (hfetching : w.fetching = w.fetchCh.isSome)
    (hoff : ∀ j, j ≠ i → w.closed j = v.closed j ∧ (w.fetchCh = some j ↔ v.fetchCh = some j))
    (ha : a = .other ∨ a = .fetch i ∨ a = .failed i ∧ v.service ≠ .stopped)
    (hc : Tidy (w.closed i) (w.fetchCh = some i) c) (hadv : Advances [a] i (v.calls i) c) : Next v [a] w := by
  refine ⟨⟨hfetching,fun j => ?_⟩,fun hs => ⟨hservice.trans hs,fun j hj => ?_⟩,fun j => ?_⟩
  · rw [hcalls]
    rcases eq_or_ne j i with rfl | hj
    · simpa using hc
    · simpa [hj,hoff j hj] using h.calls j
  · simp [← mem_singleton.1 hj,hs] at ha
  · rw [hcalls]
    rcases eq_or_ne j i with rfl | hj
    · simpa using hadv
    · rw [update_of_ne hj]
      rcases ha with rfl | rfl | ⟨rfl,-⟩ <;> constructor <;> simp +contextual [hj.symm]

/-- The fetch in flight closes its own channel, and closes it for the first time. -/
lemma Owned.completeFetch_eq (h : Owned v) (hi : 0 < (v.calls i).fetch.left) : v.fetchCh = some i ∧ v.completeFetch =
    some { v with closed := update v.closed i true, fetchCh := none, fetching := false } := by
  have hch := (h.calls i).owner.1 hi
  have hclosed : v.closed i ≠ true := by
    intro hc
    simp [(h.calls i).closed.1 hc,FlightStage.left] at hi
  exact ⟨hch,by simp [completeFetch,h.fetching,hch,hclosed]⟩

/-- A step keeps the query with one owner. -/
lemma Owned.next {r : Option Flights} (h : Owned v) (hstep : v.Step a r) : ∃ w, r = some w ∧ Next v [a] w := by
  have hfetching := h.fetching
  cases hstep with
  | @hit i hi | @wait i hi hf | @miss i hi hf | @go i hi hs | @notStarted i hi hs | @fail i hi hs | @finish i hi | @retry i hi
  | @stop i hi hs | @leave i ch hi hr | @cancel i =>
    refine ⟨_,rfl,h.next_of (i := i) rfl rfl hfetching (fun _ _ => ⟨rfl,.rfl⟩) (by simp_all) ?_ ?_⟩ <;>
      obtain ⟨_,_,_,_,_⟩ := h.calls i <;> constructor <;> grind [FlightStage.left,set]
  | @initiate i hi hf =>
    have hch : v.fetchCh = none := by simpa [hf] using hfetching
    rw [initiateFetch,hf,if_neg Bool.false_ne_true]
    refine ⟨_,rfl,h.next_of (i := i) rfl rfl rfl (fun j hj => by simp [set,hj,hj.symm,hch]) (by simp) ?_ ?_⟩
    all_goals
      obtain ⟨_,_,_,_,_⟩ := h.calls i
      constructor <;> simp_all [FlightStage.left,set]
  | @abandonFetch i hi | @complete i hi =>
    obtain ⟨hch,hcomplete⟩ := h.completeFetch_eq (i := i) (by simp [hi,FlightStage.left])
    rw [hcomplete]
    refine ⟨_,rfl,h.next_of (i := i) rfl rfl rfl (fun j hj => by simp [set,hj,hj.symm,hch]) (by simp) ?_ ?_⟩
    all_goals
      obtain ⟨_,_,_,_,_⟩ := h.calls i
      constructor <;> simp_all [FlightStage.left,set]
  | start hs | close hs | closeStop hs =>
    exact ⟨_,rfl,⟨hfetching,h.calls⟩,by simp [hs],fun i => by constructor <;> simp +contextual⟩

lemma Owned.run (h : Owned v) (hrun : Run v as w) : Next v as w := by
  induction hrun with
  | nil => exact ⟨h,fun hs => ⟨hs,by simp⟩,fun i => by constructor <;> simp +contextual⟩
  | step hrun hstep ih =>
    obtain ⟨w,hw,hnext⟩ := ih.owned.next hstep
    cases hw
    exact ih.cons hnext

/-- A fetch in flight is never blocked: its query returns in time when its context is cancelled. -/
lemma exists_step (v : Flights) (h : Owned v) (hi : 0 < (v.calls i).fetch.left) : ∃ w, v.Step (.fetch i) (some w) := by
  have hcomplete := (h.completeFetch_eq hi).2
  cases hfetch : (v.calls i).fetch with
  | idle | ended => simp [hfetch,FlightStage.left] at hi
  | initiated =>
    by_cases hs : v.service = .started
    · exact ⟨_,.go hfetch hs⟩
    · exact ⟨_,.notStarted hfetch hs⟩
  | querying => exact ⟨_,.finish hfetch⟩
  | sleeping => exact ⟨_,.retry hfetch⟩
  | abandoning => exact ⟨_,hcomplete ▸ Step.abandonFetch hfetch⟩
  | completing => exact ⟨_,hcomplete ▸ Step.complete hfetch⟩

/-- Nothing panics, and one fetch at most is in flight. Its channel is closed when it has ended.
Until then it can go on, and no caller is blocked on nil. -/
structure SingleFlight (v : Flights) : Prop where
  no_panic : ∀ a, ¬ v.Step a none
  one_fetch : ∀ i j, 0 < (v.calls i).fetch.left → 0 < (v.calls j).fetch.left → i = j
  closed_iff : ∀ i, (v.calls i).fetch ≠ .idle → (v.closed i = true ↔ (v.calls i).fetch.left = 0)
  can_step : ∀ i, 0 < (v.calls i).fetch.left → ∃ w, v.Step (.fetch i) (some w)
  not_nil : ∀ i, (v.calls i).stage ≠ .waiting none
  runs : ∀ as w, Run v as w → Next v as w

/-- Concurrent calls of a cache, in every run from a new one and under any interleaving. -/
theorem singleFlight (h : Run new as v) : SingleFlight v := by
  have hv := (owned_new.run h).owned
  refine ⟨?_,?_,?_,fun i => v.exists_step hv,fun i => (hv.calls i).waiting,fun _ _ => hv.run⟩
  · intro a hstep
    obtain ⟨w,hw,-⟩ := hv.next hstep
    cases hw
  · intro i j hi hj
    exact Option.some.inj (((hv.calls i).owner.1 hi).symm.trans ((hv.calls j).owner.1 hj))
  · intro i hi
    rw [(hv.calls i).closed]
    cases hfetch : (v.calls i).fetch <;> simp_all [FlightStage.left]

/-- The first call of a started cache, with its query under way. -/
def flying : Flights :=
  ⟨.started,true,some 0,fun _ => false,update (fun _ => ⟨.hot,.idle,false⟩) 0 ⟨.waiting (some 0),.querying,false⟩⟩

lemma run_flying : Run new [.fetch 0,.other,.other,.other] flying := by
  have h := ((Run.nil.step (.start (v := new) rfl)).step (.miss (i := 0) rfl rfl)).step (.initiate (i := 0) rfl rfl)
  simpa [new,set,flying] using h.step (.go (i := 0) (by simp [set]) rfl)

theorem singleFlight_flying : SingleFlight flying := singleFlight run_flying

end Flights
end DataStreams.Mercury
