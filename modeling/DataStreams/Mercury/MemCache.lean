import Mathlib.Tactic.Common

/-! The cache of latest reports. Only a hit compares the expiry with the clock. -/
namespace DataStreams.Mercury
/-- The fetch of an entry; times are those at which a query was started. -/
inductive FetchStage
  | idle
  | initiated
  | trying
  | querying (t : ℕ)
  | failed (err : String)
  | fetched (t : ℕ)

/-- An entry of the cache, a report given by the time its query was started at, with the
callers on the channel of the fetch and those whose channel is closed. -/
structure CacheVal where
  now : ℕ
  fetch : FetchStage
  val : Option ℕ
  err : Option String
  expiresAt : ℕ
  waiting : ℕ
  woken : ℕ

namespace CacheVal
/-- The first result is always expired. -/
def new (now : ℕ) : CacheVal := ⟨now,.idle,none,none,now,0,0⟩

def completeFetch (v : CacheVal) (val : Option ℕ) (err : Option String) (expiresAt : ℕ) : CacheVal :=
  { v with
    fetch := .idle, val, err, waiting := 0, woken := v.woken + v.waiting
    expiresAt := if err = none then expiresAt else v.expiresAt }

/-- The steps of the clock, of the callers and of the fetch. -/
inductive Action
  | tick (d : ℕ)
  | hit
  | wait
  | initiate
  | abandon (err : String)
  | go
  | query
  | fail (err : String)
  | retry
  | stop
  | succeed
  | complete
  | wake
  | wakeError
  | leave (waiting woken : ℕ)
  deriving DecidableEq

/-- One step, with the report that a call returns with no error. Both paths of a call make
the same comparisons; a cleanup only hides the entry from later calls. -/
inductive Step (ttl : ℕ) (v : CacheVal) : Action → Option ℕ → CacheVal → Prop
  | tick (d : ℕ) : Step ttl v (.tick d) none { v with now := v.now + d }
  | hit (h : v.now < v.expiresAt) : Step ttl v .hit v.val v
  | wait (h : v.expiresAt ≤ v.now) (hfetch : v.fetch ≠ .idle) :
    Step ttl v .wait none { v with waiting := v.waiting + 1 }
  | initiate (h : v.expiresAt ≤ v.now) (hfetch : v.fetch = .idle) :
    Step ttl v .initiate none { v with fetch := .initiated, waiting := v.waiting + 1 }
  -- the cache is not started
  | abandon (err : String) (h : v.fetch = .initiated) :
    Step ttl v (.abandon err) none (v.completeFetch none (some err) v.now)
  | go (h : v.fetch = .initiated) : Step ttl v .go none { v with fetch := .trying }
  | query (h : v.fetch = .trying) : Step ttl v .query none { v with fetch := .querying v.now }
  | fail (err : String) {t} (h : v.fetch = .querying t) :
    Step ttl v (.fail err) none { v with fetch := .failed err, err := some err }
  | retry {err} (h : v.fetch = .failed err) : Step ttl v .retry none { v with fetch := .trying }
  -- the cache is stopped
  | stop {err} (h : v.fetch = .failed err) : Step ttl v .stop none (v.completeFetch none (some err) v.now)
  | succeed {t} (h : v.fetch = .querying t) : Step ttl v .succeed none { v with fetch := .fetched t, err := none }
  | complete {t} (h : v.fetch = .fetched t) : Step ttl v .complete none (v.completeFetch (some t) none (t + ttl))
  | wake (h : 0 < v.woken) (herr : v.err = none) : Step ttl v .wake v.val { v with woken := v.woken - 1 }
  | wakeError (h : 0 < v.woken) (herr : v.err ≠ none) : Step ttl v .wakeError none { v with woken := v.woken - 1 }
  -- the context of a caller ends, or the cache stops
  | leave (waiting woken : ℕ) (h : waiting ≤ v.waiting) (h' : woken ≤ v.woken) :
    Step ttl v (.leave waiting woken) none { v with waiting, woken }

/-- A run of a schedule, with the reports returned and the times of their return. -/
inductive Run (ttl : ℕ) : CacheVal → List Action → List (ℕ × ℕ) → Prop
  | nil (v : CacheVal) : Run ttl v [] []
  | silent {v a v' actions rs} (hstep : v.Step ttl a none v') (h : Run ttl v' actions rs) : Run ttl v (a :: actions) rs
  | returns {v a t v' actions rs} (hstep : v.Step ttl a (some t) v') (h : Run ttl v' actions rs) :
    Run ttl v (a :: actions) ((t,v.now) :: rs)

/-- The time since the last query was started, and since the start of the one that gave the
result of the last fetch. -/
structure Elapsed where
  query : ℕ
  answer : ℕ

def Elapsed.after (e : Elapsed) : Action → Elapsed
  | .tick d => ⟨e.query + d,e.answer + d⟩
  | .query => { e with query := 0 }
  | .complete => { e with answer := e.query }
  | _ => e

/-- At each wake-up no more than `ttl` has gone by since the start of the query that gave
the result. -/
def Quick (ttl : ℕ) : Elapsed → List Action → Prop
  | _,[] => True
  | e,a :: actions => (a = .wake → e.answer ≤ ttl) ∧ Quick ttl (e.after a) actions

/-- The times of an entry are those of its schedule. -/
structure Timed (ttl : ℕ) (v : CacheVal) (e : Elapsed) : Prop where
  querying : ∀ t, v.fetch = .querying t ∨ v.fetch = .fetched t → v.now = t + e.query
  answer : ∀ t, v.val = some t → v.now = t + e.answer
  expiresAt : ∀ t, v.val = some t → v.expiresAt = t + ttl

variable {ttl t : ℕ} {v v' : CacheVal} {e : Elapsed} {a : Action} {r : Option ℕ}
lemma Timed.step (h : Timed ttl v e) (hstep : v.Step ttl a r v') : Timed ttl v' (e.after a) := by
  cases hstep with
  | tick d =>
    refine ⟨fun t ht => ?_,fun t ht => ?_,h.expiresAt⟩
    · rw [h.querying t ht,Nat.add_assoc]
      rfl
    · rw [h.answer t ht,Nat.add_assoc]
      rfl
  | query hfetch => exact ⟨fun t ht => by simpa [Elapsed.after] using ht,h.answer,h.expiresAt⟩
  | succeed hfetch => exact ⟨fun t ht => h.querying t (.inl (by simpa [hfetch] using ht.symm)),h.answer,h.expiresAt⟩
  | complete hfetch =>
    refine ⟨by simp [completeFetch],fun t ht => ?_,fun t ht => ?_⟩
    · exact h.querying t (.inr (hfetch.trans (congrArg _ (Option.some.inj ht))))
    · cases ht
      rfl
  | abandon | stop => exact ⟨by simp [completeFetch],nofun,nofun⟩
  | initiate | go | fail | retry => exact ⟨by simp,h.answer,h.expiresAt⟩
  | hit | wait | wake | wakeError | leave => exact ⟨h.querying,h.answer,h.expiresAt⟩

lemma Timed.now_le_add (h : Timed ttl v e) (hwake : a = .wake → e.answer ≤ ttl) (hstep : v.Step ttl a (some t) v') :
    v.now ≤ t + ttl := by
  generalize hr : some t = r at hstep
  cases hstep with
  | hit hlt => exact Nat.le_of_lt (h.expiresAt t hr.symm ▸ hlt)
  | wake =>
    rw [h.answer t hr.symm]
    exact Nat.add_le_add_left (hwake rfl) t
  | _ => cases hr

lemma Run.fresh {actions : List Action} {rs : List (ℕ × ℕ)} (hrun : Run ttl v actions rs) (h : Timed ttl v e)
    (hquick : Quick ttl e actions) : ∀ r ∈ rs, r.2 ≤ r.1 + ttl := by
  induction hrun generalizing e with
  | nil v => exact nofun
  | silent hstep _ ih => exact ih (h.step hstep) hquick.2
  | returns hstep _ ih => exact List.forall_mem_cons.2 ⟨h.now_le_add hquick.1 hstep,ih (h.step hstep) hquick.2⟩

/-- In every run whose waiters wake up within `ttl` of the start of the query that answers
them, no report is returned that was queried more than `ttl` before. Hits need no condition. -/
theorem returned_fresh {now : ℕ} {actions : List Action} {rs : List (ℕ × ℕ)} (hrun : Run ttl (new now) actions rs)
    (hquick : Quick ttl ⟨0,0⟩ actions) : ∀ r ∈ rs, r.2 ≤ r.1 + ttl :=
  hrun.fresh ⟨by simp [new],nofun,nofun⟩ hquick

/-- A call on an empty entry whose query takes the given time, and a second caller that
waits with it. -/
def twoCallers (d : ℕ) : List Action := [.initiate,.go,.wait,.query,.tick d,.succeed,.complete,.wake,.wake]

lemma run_twoCallers (d : ℕ) : Run 1 (new 0) (twoCallers d) [(0,0 + d),(0,0 + d)] := by
  refine .silent (.initiate (Nat.le_refl _) rfl) (.silent (.go rfl) (.silent (.wait (Nat.le_refl _) nofun) ?_))
  refine .silent (.query rfl) (.silent (.tick d) (.silent (.succeed rfl) (.silent (.complete rfl) ?_)))
  exact .returns (.wake Nat.two_pos rfl) (.returns (.wake Nat.one_pos rfl) (.nil _))

theorem returned_fresh_quick : Run 1 (new 0) (twoCallers 1) [(0,1),(0,1)] ∧ ∀ r ∈ [(0,1),(0,1)], r.2 ≤ r.1 + 1 :=
  ⟨run_twoCallers 1,returned_fresh (run_twoCallers 1) (by simp [twoCallers,Quick,Elapsed.after])⟩

/-- A query that takes twice the time to live answers whoever waited for it. -/
theorem returned_stale : Run 1 (new 0) (twoCallers 2) [(0,2),(0,2)] ∧ ¬ ∀ r ∈ [(0,2),(0,2)], r.2 ≤ r.1 + 1 :=
  ⟨run_twoCallers 2,by decide⟩

end CacheVal
end DataStreams.Mercury
