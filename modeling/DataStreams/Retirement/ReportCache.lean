import DataStreams.Protocol.Types

/-! Attested retirement reports and configurations in memory and in a database, under
interleaved calls. -/
namespace DataStreams.Retirement
open Function Option

inductive Content
  | attestedReport (serialized : Bytes)
  | config (signers : List Bytes) (f : ℕ)
  deriving DecidableEq

/-- Reports and configurations are in different maps and tables. -/
def Content.isReport : Content → Bool
  | .attestedReport _ => true
  | .config _ _ => false

structure Call where
  digest : ConfigDigest
  content : Content

abbrev Key := ConfigDigest × Bool

def Call.key (c : Call) : Key := (c.digest,c.content.isReport)

abbrev Table := Key → Option Content

inductive Stage
  | called
  | inserting
  | writing
  | returned
  deriving DecidableEq

structure State where
  db : Table
  cache : Table
  stages : ℕ → Stage

def State.started (db : Table) : State := ⟨db,db,fun _ => .called⟩

inductive Action
  | check (i : ℕ)
  | insert (i : ℕ) (fails : Bool)
  | write (i : ℕ)
  | restart

namespace State
def setStage (s : State) (i : ℕ) (stage : Stage) : State := { s with stages := update s.stages i stage }

/-- `INSERT … ON CONFLICT DO NOTHING`. -/
def insertRow (s : State) (c : Call) : State :=
  { s with db := if s.db c.key = none then update s.db c.key (some c.content) else s.db }

/-- An action of a call that is elsewhere does nothing. After a restart nothing is left of
the calls that were under way. -/
def step (calls : ℕ → Call) (s : State) : Action → State
  | .check i =>
    if s.stages i ≠ .called then s
    else s.setStage i (if (s.cache (calls i).key).isSome then .returned else .inserting)
  | .insert i fails =>
    if s.stages i ≠ .inserting then s
    else if fails then s.setStage i .returned
    else (s.insertRow (calls i)).setStage i .writing
  | .write i =>
    if s.stages i ≠ .writing then s
    else { s with cache := update s.cache (calls i).key (some (calls i).content) }.setStage i .returned
  | .restart => ⟨s.db,s.db,fun i => if s.stages i = .called then .called else .returned⟩

def run (calls : ℕ → Call) (s : State) (actions : List Action) : State := actions.foldl (step calls) s

lemma run_append (calls : ℕ → Call) (s : State) (actions later : List Action) :
    s.run calls (actions ++ later) = (s.run calls actions).run calls later := List.foldl_append

end State

/-- What is served is the row of the database, and it is served ever after. -/
def WriteOnce (calls : ℕ → Call) (db : Table) : Prop :=
  ∀ actions later k v, ((State.started db).run calls actions).cache k = some v →
    ((State.started db).run calls actions).db k = some v ∧
      ((State.started db).run calls (actions ++ later)).cache k = some v

/-- Calls for a digest without a row have the same content. -/
def Agree (calls : ℕ → Call) (db : Table) : Prop :=
  ∀ i j, (calls i).key = (calls j).key → db (calls i).key = none → (calls i).content = (calls j).content

variable {calls : ℕ → Call} {db : Table} {s : State}
structure Consistent (calls : ℕ → Call) (db : Table) (s : State) : Prop where
  loaded : ∀ {k}, db k ≠ none → s.cache k ≠ none
  rows : ∀ {k v}, s.db k = some v → db k = none → ∃ j, (calls j).key = k ∧ (calls j).content = v
  served : ∀ {k v}, s.cache k = some v → s.db k = some v
  fresh : ∀ {i}, s.stages i = .inserting → db (calls i).key = none
  inserted : ∀ {i}, s.stages i = .writing → s.db (calls i).key = some (calls i).content

/-- Rows stay, and so do the keys that are served. -/
def Keeps (s s' : State) : Prop :=
  (∀ {k v}, s.db k = some v → s'.db k = some v) ∧ ∀ {k}, s.cache k ≠ none → s'.cache k ≠ none

lemma Consistent.setStage {i : ℕ} {stage : Stage} (h : Consistent calls db s)
    (hinserting : stage = .inserting → db (calls i).key = none)
    (hwriting : stage = .writing → s.db (calls i).key = some (calls i).content) : Consistent calls db (s.setStage i stage) := by
  have hstages : ∀ j st, (s.setStage i stage).stages j = st → j = i ∧ stage = st ∨ s.stages j = st := by
    intro j st hj
    by_cases hji : j = i
    · subst hji
      exact .inl ⟨rfl,(update_self _ _ _).symm.trans hj⟩
    · exact .inr ((update_of_ne hji _ _).symm.trans hj)
  refine ⟨h.loaded,h.rows,h.served,?_,?_⟩
  · intro j hj
    rcases hstages j _ hj with ⟨rfl,hstage⟩ | hj
    · exact hinserting hstage
    · exact h.fresh hj
  · intro j hj
    rcases hstages j _ hj with ⟨rfl,hstage⟩ | hj
    · exact hwriting hstage
    · exact h.inserted hj

lemma Consistent.insertRow {c : Call} (h : Consistent calls db s) (hc : ∃ j, (calls j).key = c.key ∧ (calls j).content = c.content) :
    Consistent calls db (s.insertRow c) ∧ Keeps s (s.insertRow c) := by
  by_cases hrow : s.db c.key = none
  · have hdb : ∀ {k v}, s.db k = some v → update s.db c.key (some c.content) k = some v := by
      intro k v hk
      have hne : k ≠ c.key := by
        rintro rfl
        cases hrow.symm.trans hk
      exact (update_of_ne hne _ _).trans hk
    have heq : s.insertRow c = { s with db := update s.db c.key (some c.content) } := by
      rw [State.insertRow,if_pos hrow]
    rw [heq]
    refine ⟨⟨h.loaded,?_,fun hk => hdb (h.served hk),h.fresh,fun hi => hdb (h.inserted hi)⟩,hdb,id⟩
    intro k v hk hnone
    by_cases hkey : k = c.key
    · subst hkey
      obtain ⟨j,hj,hcontent⟩ := hc
      dsimp only at hk
      rw [update_self] at hk
      exact ⟨j,hj,hcontent.trans (Option.some.inj hk)⟩
    · exact h.rows ((update_of_ne hkey _ _).symm.trans hk) hnone
  · have heq : s.insertRow c = s := by rw [State.insertRow,if_neg hrow]
    rw [heq]
    exact ⟨h,id,id⟩

/-- A step of any call keeps cache and table consistent, and what is served. -/
lemma Consistent.step (hagree : Agree calls db) (h : Consistent calls db s) (a : Action) :
    Consistent calls db (s.step calls a) ∧ Keeps s (s.step calls a) := by
  have hsame : Consistent calls db s ∧ Keeps s s := ⟨h,id,id⟩
  cases a with
  | check i =>
    rw [State.step]
    split_ifs with hstage hcached
    · exact hsame
    · exact ⟨h.setStage nofun nofun,id,id⟩
    · refine ⟨h.setStage (fun _ => ?_) nofun,id,id⟩
      -- what was loaded is served, so this key was not
      by_contra hloaded
      exact hcached (isSome_iff_ne_none.2 (h.loaded hloaded))
  | insert i fails =>
    rw [State.step]
    split_ifs with hstage hfails
    · exact hsame
    · exact ⟨h.setStage nofun nofun,id,id⟩
    · obtain ⟨hrow,hkeeps⟩ := h.insertRow ⟨i,rfl,rfl⟩
      refine ⟨hrow.setStage nofun fun _ => ?_,hkeeps.1,hkeeps.2⟩
      rw [State.insertRow]
      split_ifs with hnone
      · exact update_self _ _ _
      · -- another call has inserted the row, with the same content
        obtain ⟨v,hv⟩ := ne_none_iff_exists'.1 hnone
        have hfresh := h.fresh (not_not.1 hstage)
        obtain ⟨j,hkey,hcontent⟩ := h.rows hv hfresh
        exact hv.trans (congrArg some (hcontent.symm.trans (hagree i j hkey.symm hfresh).symm))
  | write i =>
    rw [State.step]
    split_ifs with hstage
    · exact hsame
    · have hrow := h.inserted (not_not.1 hstage)
      have hcache : ∀ {k}, s.cache k ≠ none → update s.cache (calls i).key (some (calls i).content) k ≠ none := by
        intro k hk
        by_cases hkey : k = (calls i).key
        · rw [hkey,update_self]
          exact some_ne_none _
        · rwa [update_of_ne hkey]
      refine ⟨Consistent.setStage ⟨fun hk => hcache (h.loaded hk),h.rows,?_,h.fresh,h.inserted⟩ nofun nofun,id,hcache⟩
      intro k v hk
      dsimp only at hk
      by_cases hkey : k = (calls i).key
      · rw [hkey,update_self] at hk
        rw [hkey,← hk]
        exact hrow
      · rw [update_of_ne hkey] at hk
        exact h.served hk
  | restart =>
    have hserved : ∀ {k}, s.cache k ≠ none → s.db k ≠ none := by
      intro k hk
      obtain ⟨v,hv⟩ := ne_none_iff_exists'.1 hk
      rw [h.served hv]
      exact some_ne_none v
    refine ⟨⟨fun hk => hserved (h.loaded hk),h.rows,id,?_,?_⟩,id,hserved⟩ <;>
    · intro i hi
      dsimp only [State.step] at hi
      split_ifs at hi

lemma Consistent.run (hagree : Agree calls db) (h : Consistent calls db s) (actions : List Action) :
    Consistent calls db (s.run calls actions) ∧ Keeps s (s.run calls actions) := by
  induction actions generalizing s with
  | nil => exact ⟨h,id,id⟩
  | cons a actions ih =>
    obtain ⟨hstep,hkeeps⟩ := h.step hagree a
    obtain ⟨hrun,hlater⟩ := ih hstep
    exact ⟨hrun,fun hk => hlater.1 (hkeeps.1 hk),fun hk => hlater.2 (hkeeps.2 hk)⟩

lemma consistent_started (calls : ℕ → Call) (db : Table) : Consistent calls db (State.started db) :=
  ⟨id,fun hk hnone => absurd (hnone.symm.trans hk) nofun,id,nofun,nofun⟩

/-- Both calls look in memory first, and the one whose row was kept writes first. -/
def overwriting (i j : ℕ) : List Action := [.check i,.check j,.insert i false,.insert j false,.write i]

lemma run_overwriting {calls : ℕ → Call} {db : Table} {i j : ℕ} (hij : i ≠ j) (hkey : (calls i).key = (calls j).key)
    (hdb : db (calls i).key = none) :
    ((State.started db).run calls (overwriting i j)).cache (calls i).key = some (calls i).content ∧
      ((State.started db).run calls (overwriting i j ++ [.write j])).cache (calls i).key = some (calls j).content := by
  simp [State.run,overwriting,State.step,State.started,State.setStage,State.insertRow,hij,hij.symm,← hkey,hdb]

/-- The cache is write-once and agrees with the database, whatever the interleaving, exactly
if calls for the same digest agree. -/
theorem writeOnce_iff_agree (calls : ℕ → Call) (db : Table) : WriteOnce calls db ↔ Agree calls db := by
  constructor
  · intro h i j hkey hdb
    by_contra hne
    have hij : i ≠ j := by
      rintro rfl
      exact hne rfl
    obtain ⟨hserved,hlater⟩ := run_overwriting hij hkey hdb
    obtain ⟨-,hsame⟩ := h (overwriting i j) [.write j] _ _ hserved
    exact hne (Option.some.inj (hsame.symm.trans hlater))
  · intro hagree actions later k v hv
    obtain ⟨h,-⟩ := (consistent_started calls db).run hagree actions
    obtain ⟨h',hdb,hcache⟩ := h.run hagree later
    rw [State.run_append]
    refine ⟨h.served hv,?_⟩
    obtain ⟨w,hw⟩ := ne_none_iff_exists'.1 (hcache (hv ▸ some_ne_none v))
    exact hw.trans ((h'.served hw).symm.trans (hdb (h.served hv)))

/-- Two reports for one digest: the second one is served after the first, which is the one
in the database. -/
theorem writeOnce_differing_reports :
    ¬WriteOnce (fun i => ⟨1,.attestedReport [if i = 0 then 0 else 1]⟩) (fun _ => none) := by
  intro h
  obtain ⟨-,hsame⟩ := h (overwriting 0 1) [.write 1] (1,true) (.attestedReport [0]) (by decide)
  exact absurd hsame (by decide)

end DataStreams.Retirement
