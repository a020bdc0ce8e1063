import DataStreams.Transmitter.Machine

/-! Where a transmission can be, and the commit loops that give it up on shutdown. -/
namespace DataStreams.Transmitter
open List Function

def CommitStage.held : CommitStage → List Transmission
  | .selecting ts | .calling ts _ | .inserting ts _ => ts
  | .pushing _ _ | .returned => []

def CommitStage.inserted : CommitStage → List Transmission
  | .pushing ts _ => ts
  | _ => []

namespace State
/-- On the channel or with a commit loop. -/
def Unsaved (cfg : Config) (s : State) (t : Transmission) : Prop :=
  t ∈ s.commitCh ∨ ∃ i, i < cfg.servers.length ∧ t ∈ (s.commitLoops i).stage.held

/-- Inserted and on its way to the server. -/
def InFlight (s : State) (t : Transmission) : Prop :=
  (∃ i, t ∈ (s.commitLoops i).stage.inserted) ∨ (∃ url, t ∈ (s.queues url).pq) ∨
    ∃ url j, (s.transmitLoops url j).stage = .sending t

/-- Answered, dropped from a full queue, or never sent because of its format. -/
def Gone (s : State) (t : Transmission) : Prop :=
  t ∈ s.answered ∨ t ∈ s.dropped ∨ t.reportFormat = .capabilityTrigger

end State

/-- What a commit loop gives up in a step: a buffer that is not full when it returns, and a
batch whose context is already cancelled. -/
def gaveUp (cfg : Config) (s : State) : Action → List Transmission
  | .done i =>
    match (s.commitLoops i).stage with
    | .selecting ts => if ts.length ≥ cfg.buff then [] else ts
    | _ => []
  | .check i =>
    match (s.commitLoops i).stage with
    | .calling ts last => if (s.commitLoops i).ctxDone ∧ last = false then ts else []
    | _ => []
  | _ => []

def givenUp (cfg : Config) (s : State) : List Action → List Transmission
  | [] => []
  | a :: actions => gaveUp cfg s a ++ (step cfg s a).elim [] (fun s' => givenUp cfg s' actions)

/-- A commit loop moves on; it inserts some of what it held and gives some up. -/
structure Commits (cfg : Config) (s s' : State) (now : ℕ) (ts lost : List Transmission) : Prop where
  sent : s'.sent = s.sent
  accepted : s'.accepted = s.accepted
  committed : s'.committed = s.committed ++ ts
  db : s'.db = insertRows cfg now s.db ts
  held : ∀ t ∈ ts, s.Unsaved cfg t
  unsaved : ∀ t, s'.Unsaved cfg t → s.Unsaved cfg t
  saved : ∀ t, s.Unsaved cfg t → s'.Unsaved cfg t ∨ t ∈ lost ∨ t ∈ ts
  inFlight : ∀ t, s'.InFlight t → s.InFlight t ∨ t ∈ ts
  gone : ∀ t, s.Gone t → s'.Gone t
  deletes : ∀ h ∈ s'.deleteQueue, h ∈ s.deleteQueue ∨ ∃ t, s.InFlight t ∧ s'.Gone t ∧ t.hash cfg.sha256 = h

/-- Transmissions in flight move on; some of them are gone, and their rows may be deleted. -/
structure Progress (cfg : Config) (s s' : State) : Prop where
  sent : s'.sent = s.sent
  accepted : s'.accepted = s.accepted
  committed : s'.committed = s.committed
  db : s'.db = s.db
  unsaved : ∀ t, s'.Unsaved cfg t ↔ s.Unsaved cfg t
  inFlight : ∀ t, s'.InFlight t → s.InFlight t
  gone : ∀ t, s.Gone t → s'.Gone t
  deletes : ∀ h ∈ s'.deleteQueue, h ∈ s.deleteQueue ∨ ∃ t, s.InFlight t ∧ s'.Gone t ∧ t.hash cfg.sha256 = h

variable {cfg : Config} {s s' s₁ s₂ : State} {i j : ℕ} {url : ServerURL} {t : Transmission}

lemma Progress.commits (h : Progress cfg s s') : Commits cfg s s' 0 [] [] where
  sent := h.sent
  accepted := h.accepted
  committed := h.committed.trans (append_nil _).symm
  db := h.db
  held _ ht := absurd ht not_mem_nil
  unsaved t := (h.unsaved t).1
  saved t ht := .inl ((h.unsaved t).2 ht)
  inFlight t ht := .inl (h.inFlight t ht)
  gone := h.gone
  deletes := h.deletes

lemma unsaved_setCommit {stage : CommitStage} (hi : i < cfg.servers.length) :
    (s.setCommit i stage).Unsaved cfg t ↔ t ∈ s.commitCh ∨ t ∈ stage.held ∨
      ∃ k, k < cfg.servers.length ∧ k ≠ i ∧ t ∈ (s.commitLoops k).stage.held := by
  simp only [State.Unsaved,State.setCommit,update_apply]
  refine or_congr_right ⟨?_,?_⟩
  · rintro ⟨k,hk,h⟩
    by_cases hki : k = i
    · rw [if_pos hki] at h
      exact .inl h
    · rw [if_neg hki] at h
      exact .inr ⟨k,hk,hki,h⟩
  · rintro (h | ⟨k,hk,hki,h⟩)
    · exact ⟨i,hi,by rwa [if_pos rfl]⟩
    · exact ⟨k,hk,by rwa [if_neg hki]⟩

lemma unsaved_iff (hi : i < cfg.servers.length) :
    s.Unsaved cfg t ↔ t ∈ s.commitCh ∨ t ∈ (s.commitLoops i).stage.held ∨
      ∃ k, k < cfg.servers.length ∧ k ≠ i ∧ t ∈ (s.commitLoops k).stage.held := by
  have hsame : s.setCommit i (s.commitLoops i).stage = s := by
    simp [State.setCommit]
  rw [← unsaved_setCommit hi,hsame]

/-- A commit loop that goes on without a batch has no other one. -/
lemma unsaved_of_release {stage : CommitStage} (hi : i < cfg.servers.length) (hheld : stage.held = [])
    (ht : (s.setCommit i stage).Unsaved cfg t) : s.Unsaved cfg t := by
  rw [unsaved_setCommit hi,hheld] at ht
  rw [unsaved_iff hi]
  exact ht.imp id fun ht => .inr (ht.resolve_left not_mem_nil)

lemma unsaved_or_held (stage : CommitStage) (hi : i < cfg.servers.length) (ht : s.Unsaved cfg t) :
    (s.setCommit i stage).Unsaved cfg t ∨ t ∈ (s.commitLoops i).stage.held := by
  rw [unsaved_setCommit hi]
  rcases (unsaved_iff hi).1 ht with ht | ht | ht
  · exact .inl (.inl ht)
  · exact .inr ht
  · exact .inl (.inr (.inr ht))

lemma inFlight_of_setCommit {stage : CommitStage} (h : (s.setCommit i stage).InFlight t) :
    t ∈ stage.inserted ∨ s.InFlight t := by
  rcases h with ⟨k,h⟩ | h
  · simp only [State.setCommit,update_apply] at h
    split_ifs at h
    · exact .inl h
    · exact .inr (.inl ⟨k,h⟩)
  · exact .inr (.inr h)

lemma inFlight_of_setTransmit {stage : TransmitStage} (h : (s.setTransmit url j stage).InFlight t) :
    stage = .sending t ∨ s.InFlight t := by
  rcases h with h | h | ⟨u,k,h⟩
  · exact .inr (.inl h)
  · exact .inr (.inr (.inl h))
  · simp only [State.setTransmit,update_apply] at h
    split_ifs at h with hu
    · simp only [update_apply] at h
      split_ifs at h
      · exact .inl h
      · exact .inr (.inr (.inr ⟨url,k,h⟩))
    · exact .inr (.inr (.inr ⟨u,k,h⟩))

namespace Progress
lemma trans (h : Progress cfg s s₁) (h' : Progress cfg s₁ s₂) : Progress cfg s s₂ where
  sent := h'.sent.trans h.sent
  accepted := h'.accepted.trans h.accepted
  committed := h'.committed.trans h.committed
  db := h'.db.trans h.db
  unsaved t := (h'.unsaved t).trans (h.unsaved t)
  inFlight t ht := h.inFlight t (h'.inFlight t ht)
  gone t ht := h'.gone t (h.gone t ht)
  deletes k hk := by
    rcases h'.deletes k hk with hk | ⟨t,ht,hgone,heq⟩
    · rcases h.deletes k hk with hk | ⟨t,ht,hgone,heq⟩
      · exact .inl hk
      · exact .inr ⟨t,ht,h'.gone t hgone,heq⟩
    · exact .inr ⟨t,h.inFlight t ht,hgone,heq⟩

/-- Nothing else is told from the state than what is in flight and what is gone. -/
lemma of_eq {phase : Phase} {queues : ServerURL → TransmitQueue} {transmitLoops : ServerURL → ℕ → TransmitLoop}
    {answered : List Transmission} (hanswered : s.answered ⊆ answered)
    (h : ∀ t, { s with phase, queues, transmitLoops, answered }.InFlight t → s.InFlight t) :
    Progress cfg s { s with phase, queues, transmitLoops, answered } where
  sent := rfl
  accepted := rfl
  committed := rfl
  db := rfl
  unsaved _ := Iff.rfl
  inFlight := h
  gone _ ht := ht.imp (fun ht => hanswered ht) id
  deletes _ hk := .inl hk

lemma refl : Progress cfg s s := of_eq (Subset.refl _) fun _ ht => ht

/-- A commit loop moves on with what it holds and what it received. -/
lemma commit {ch : List Transmission} {stage : CommitStage} (hi : i < cfg.servers.length)
    (hheld : ∀ t, (t ∈ ch ∨ t ∈ stage.held) ↔ (t ∈ s.commitCh ∨ t ∈ (s.commitLoops i).stage.held))
    (hinserted : ∀ t ∈ stage.inserted, t ∈ (s.commitLoops i).stage.inserted) :
    Progress cfg s ({ s with commitCh := ch }.setCommit i stage) where
  sent := rfl
  accepted := rfl
  committed := rfl
  db := rfl
  unsaved t := by
    rw [unsaved_setCommit hi,unsaved_iff hi,← or_assoc,← or_assoc,hheld t]
  inFlight t ht := (inFlight_of_setCommit ht).elim (fun ht => .inl ⟨i,hinserted t ht⟩) id
  gone _ ht := ht
  deletes _ hk := .inl hk

lemma idle {stage : TransmitStage} (h : ∀ t, stage ≠ .sending t) : Progress cfg s (s.setTransmit url j stage) :=
  of_eq (Subset.refl _) fun t ht => (inFlight_of_setTransmit ht).resolve_left (h t)

lemma asyncDelete (hflight : s.InFlight t) (hgone : s.Gone t) : Progress cfg s (s.asyncDelete cfg [t]) where
  sent := rfl
  accepted := rfl
  committed := rfl
  db := rfl
  unsaved _ := Iff.rfl
  inFlight _ ht := ht
  gone _ ht := ht
  deletes k hk := by
    rcases mem_append.1 hk with hk | hk
    · exact .inl hk
    · exact .inr ⟨t,hflight,hgone,(mem_singleton.1 hk).symm⟩

lemma pushTo (hflight : s.InFlight t) (h : s.pushTo cfg url t = some s₁) : Progress cfg s s₁ := by
  obtain ⟨⟨q,dropped⟩,hpush,rfl⟩ := Option.map_eq_some_iff.1 h
  have hin : ∀ u, u ∈ q.pq ∨ u ∈ dropped → s.InFlight u := by
    intro u hu
    rcases (TransmitQueue.mem_push hpush).1 hu with rfl | hu
    · exact hflight
    · exact .inr (.inl ⟨url,hu⟩)
  refine ⟨rfl,rfl,rfl,rfl,fun _ => Iff.rfl,?_,?_,?_⟩
  · rintro u (hu | ⟨url',hu⟩ | hu)
    · exact .inl hu
    · simp only [State.asyncDelete,update_apply] at hu
      split_ifs at hu
      · exact hin u (.inl hu)
      · exact .inr (.inl ⟨url',hu⟩)
    · exact .inr (.inr hu)
  · exact fun u hu => hu.imp id (Or.imp (mem_append_left _) id)
  · intro k hk
    refine (mem_append.1 hk).imp id fun hk => ?_
    obtain ⟨u,hu,rfl⟩ := mem_map.1 hk
    exact ⟨u,hin u (.inr hu),.inr (.inl (mem_append_right _ hu)),rfl⟩

end Progress

lemma setCommit_progress {stage : CommitStage} (hi : i < cfg.servers.length)
    (hheld : stage.held = (s.commitLoops i).stage.held)
    (hinserted : ∀ t ∈ stage.inserted, t ∈ (s.commitLoops i).stage.inserted) : Progress cfg s (s.setCommit i stage) :=
  Progress.commit hi (fun _ => by rw [hheld]) hinserted

lemma receive_progress (hi : i < cfg.servers.length) (h : receive cfg s i = some s') : Progress cfg s s' := by
  unfold receive at h
  split at h
  next ts t rest hstage hch =>
    cases h
    -- whatever the new stage is, it holds the old batch and the received element
    refine Progress.commit hi ?_ ?_
    · intro u
      have hheld : (if (ts ++ [t]).length ≥ cfg.buff then CommitStage.calling (ts ++ [t]) false
          else .selecting (ts ++ [t])).held = ts ++ [t] := by
        split_ifs <;> rfl
      rw [hheld,hstage,hch]
      simp only [CommitStage.held,mem_append,mem_cons,not_mem_nil,or_false]
      tauto
    · intro u hu
      split_ifs at hu <;> simp [CommitStage.inserted] at hu
  next => cases h

lemma tick_progress (hi : i < cfg.servers.length) (h : tick s i = some s') : Progress cfg s s' := by
  unfold tick at h
  split at h
  next ts hstage =>
    cases h
    split_ifs
    · exact Progress.refl
    · exact setCommit_progress hi (by rw [hstage]; rfl) (fun _ ht => absurd ht not_mem_nil)
  next => cases h

/-- A commit loop that goes on without what it held has given it up. -/
lemma giveUp_commits {stage : CommitStage} (hi : i < cfg.servers.length) (hheld : stage.held = [])
    (hinserted : stage.inserted = []) :
    Commits cfg s (s.setCommit i stage) 0 [] (s.commitLoops i).stage.held where
  sent := rfl
  accepted := rfl
  committed := (append_nil _).symm
  db := rfl
  held _ ht := absurd ht not_mem_nil
  unsaved t ht := unsaved_of_release hi hheld ht
  saved t ht := (unsaved_or_held stage hi ht).imp_right .inl
  inFlight t ht := by
    rcases inFlight_of_setCommit ht with ht | ht
    · exact absurd (hinserted ▸ ht) not_mem_nil
    · exact .inl ht
  gone _ ht := ht
  deletes _ hk := .inl hk

lemma done_commits (hi : i < cfg.servers.length) (h : done cfg s i = some s') :
    Commits cfg s s' 0 [] (gaveUp cfg s (.done i)) := by
  unfold done at h
  unfold gaveUp
  split at h
  next ts hstage =>
    have hheld : ts = (s.commitLoops i).stage.held := by rw [hstage]; rfl
    simp only [hstage]
    split_ifs at h ⊢
    · cases h
      exact Progress.commits (setCommit_progress hi hheld fun _ ht => absurd ht not_mem_nil)
    · cases h
      rw [hheld]
      exact giveUp_commits hi rfl rfl
  next => cases h

lemma check_commits (hi : i < cfg.servers.length) (h : check s i = some s') :
    Commits cfg s s' 0 [] (gaveUp cfg s (.check i)) := by
  unfold check at h
  unfold gaveUp
  split at h
  next ts last hstage =>
    have hheld : ts = (s.commitLoops i).stage.held := by rw [hstage]; rfl
    simp only [hstage]
    cases h
    split_ifs
    · rw [hheld]
      exact giveUp_commits hi rfl rfl
    · exact Progress.commits (setCommit_progress hi hheld fun _ ht => absurd ht not_mem_nil)
  next => cases h

lemma insert_commits {now : ℕ} (hi : i < cfg.servers.length) (h : insert cfg s i now = some s') :
    ∃ ts, Commits cfg s s' now ts [] := by
  unfold insert at h
  split at h
  next ts last hstage =>
    cases h
    have hheld : (s.commitLoops i).stage.held = ts := by rw [hstage]; rfl
    refine ⟨ts,rfl,rfl,rfl,rfl,?_,?_,?_,?_,fun _ ht => ht,fun _ hk => .inl hk⟩
    · exact fun t ht => .inr ⟨i,hi,hheld ▸ ht⟩
    · exact fun t ht => unsaved_of_release (s := s) hi rfl ht
    · exact fun t ht => (unsaved_or_held _ hi ht).imp_right fun ht => .inr (hheld ▸ ht)
    · exact fun t ht => (inFlight_of_setCommit ht).symm
  next => cases h

lemma push_progress (hi : i < cfg.servers.length) (h : push cfg s i = some s') : Progress cfg s s' := by
  have hreturn : ∀ ts last, (s.commitLoops i).stage = .pushing ts last →
      Progress cfg s (s.setCommit i (afterTransmit last)) := by
    intro ts last hstage
    cases last with
    | false => exact setCommit_progress hi (by rw [hstage]; rfl) (fun _ ht => absurd ht not_mem_nil)
    | true => exact setCommit_progress hi (by rw [hstage]; rfl) (fun _ ht => absurd ht not_mem_nil)
  unfold push at h
  split at h
  next last hstage =>
    cases h
    exact hreturn [] last hstage
  next t rest last hstage =>
    cases hpush : s.pushTo cfg t.serverURL t with
    | none =>
      rw [hpush] at h
      cases h
      exact hreturn (t :: rest) last hstage
    | some s₁ =>
      rw [hpush] at h
      cases h
      have hloops : s₁.commitLoops = s.commitLoops := by
        obtain ⟨_,_,rfl⟩ := Option.map_eq_some_iff.1 hpush
        rfl
      have hflight : s.InFlight t := .inl ⟨i,by rw [hstage]; exact mem_cons_self⟩
      refine (Progress.pushTo hflight hpush).trans (setCommit_progress hi ?_ ?_)
      · rw [hloops,hstage]
        rfl
      · rw [hloops,hstage]
        exact fun u hu => mem_cons_of_mem _ hu
  next => cases h

lemma pop_progress (h : pop cfg s url j = some s') : Progress cfg s s' := by
  unfold pop at h
  split_ifs at h with hstage hclosed
  · cases h
    exact Progress.idle fun _ => by simp
  · obtain ⟨⟨t,rest⟩,hpop,rfl⟩ := Option.map_eq_some_iff.1 h
    have hmem : ∀ u ∈ t :: rest, s.InFlight u := fun u hu =>
      .inr (.inl ⟨url,(cfg.heap.pop_perm hpop).mem_iff.2 hu⟩)
    refine Progress.of_eq (Subset.refl _) fun u hu => ?_
    rcases inFlight_of_setTransmit hu with hu | hu | ⟨url',hu⟩ | hu
    · cases hu
      exact hmem t mem_cons_self
    · exact .inl hu
    · simp only [update_apply] at hu
      split_ifs at hu
      · exact hmem u (mem_cons_of_mem _ hu)
      · exact .inr (.inl ⟨url',hu⟩)
    · exact .inr (.inr hu)

lemma skip_progress (h : skip cfg s url j = some s') : Progress cfg s s' := by
  unfold skip at h
  split at h
  next t hstage =>
    split_ifs at h with hformat
    cases h
    exact (Progress.asyncDelete (.inr (.inr ⟨url,j,hstage⟩)) (.inr (.inr hformat))).trans (Progress.idle fun _ => by simp)
  next => cases h

lemma answer_progress (h : answer cfg s url j = some s') : Progress cfg s s' := by
  unfold answer at h
  split at h
  next t hstage =>
    have hflight : s.InFlight t := .inr (.inr ⟨url,j,hstage⟩)
    have hanswered : Progress cfg s { s with answered := s.answered ++ [t] } :=
      Progress.of_eq (subset_append_left _ _) fun _ hu => hu
    split_ifs at h
    · cases h
      exact hanswered.trans (Progress.idle fun _ => by simp)
    · cases h
      refine (hanswered.trans (Progress.asyncDelete hflight ?_)).trans (Progress.idle fun _ => by simp)
      exact .inl (mem_append_right _ (mem_singleton_self t))
  next => cases h

lemma fail_progress (h : fail cfg s url j = some s') : Progress cfg s s' := by
  unfold fail at h
  split at h
  next t hstage =>
    split_ifs at h
    · cases h
      exact Progress.idle fun _ => by simp
    · cases hpush : s.pushTo cfg url t with
      | none =>
        rw [hpush] at h
        cases h
        exact Progress.idle fun _ => by simp
      | some s₁ =>
        rw [hpush] at h
        cases h
        exact (Progress.pushTo (.inr (.inr ⟨url,j,hstage⟩)) hpush).trans (Progress.idle fun _ => by simp)
  next => cases h

lemma leaveWait_progress {stage : TransmitStage} (hstage : ∀ t, stage ≠ .sending t)
    (h : leaveWait s url j stage = some s') : Progress cfg s s' := by
  unfold leaveWait at h
  split_ifs at h
  cases h
  exact Progress.idle hstage

lemma cancelCommit_progress (h : cancelCommit s i = some s') : Progress cfg s s' := by
  unfold cancelCommit at h
  split_ifs at h
  cases h
  -- a context does not change where a transmission is
  have hstage : ∀ k, (update s.commitLoops i { s.commitLoops i with ctxDone := true } k).stage =
      (s.commitLoops k).stage := by
    intro k
    rw [update_apply]
    split_ifs with hk
    · rw [hk]
    · rfl
  refine ⟨rfl,rfl,rfl,rfl,?_,?_,fun _ ht => ht,fun _ hk => .inl hk⟩
  · intro t
    simp only [State.Unsaved,hstage]
  · intro t ht
    simpa only [State.InFlight,hstage] using ht

lemma cancelTransmit_progress (h : cancelTransmit s url j = some s') : Progress cfg s s' := by
  unfold cancelTransmit at h
  split_ifs at h
  cases h
  refine Progress.of_eq (Subset.refl _) ?_
  rintro t (ht | ht | ⟨url',k,ht⟩)
  · exact .inl ht
  · exact .inr (.inl ht)
  · refine .inr (.inr ⟨url',k,?_⟩)
    rw [← ht]
    simp only [update_apply]
    split_ifs with hurl
    · subst hurl
      rw [update_apply]
      split_ifs with hk
      · rw [hk]
      · rfl
    · rfl

lemma closeQueue_progress (h : closeQueue s url = some s') : Progress cfg s s' := by
  unfold closeQueue at h
  split_ifs at h
  cases h
  refine Progress.of_eq (Subset.refl _) ?_
  rintro t (ht | ⟨url',ht⟩ | ht)
  · exact .inl ht
  · refine .inr (.inl ⟨url',?_⟩)
    simp only [update_apply] at ht
    split_ifs at ht with hurl
    · rwa [hurl]
    · exact ht
  · exact .inr (.inr ht)

lemma stop_progress (h : stop cfg s = some s') : Progress cfg s s' := by
  unfold stop at h
  split_ifs at h
  cases h
  exact Progress.of_eq (Subset.refl _) fun _ ht => ht

lemma finish_progress (h : finish cfg s = some s') : Progress cfg s s' := by
  unfold finish at h
  split_ifs at h
  cases h
  exact Progress.of_eq (Subset.refl _) fun _ ht => ht

lemma forget_progress {k : ℕ} (h : forget s k = some s') : Progress cfg s s' := by
  unfold forget at h
  split_ifs at h
  cases h
  exact ⟨rfl,rfl,rfl,rfl,fun _ => Iff.rfl,fun _ ht => ht,fun _ ht => ht,fun _ hk => .inl (mem_of_mem_erase hk)⟩

/-- What a step can do, with what it gives up. -/
inductive Move (cfg : Config) (s : State) : State → List Transmission → Prop
  | send (t : Transmission) : Move cfg s { s with commitCh := s.commitCh ++ [t], sent := s.sent ++ [t] } []
  | accept (ts : List Transmission) (h : ∀ t ∈ ts, t ∈ s.sent ∧ t.serverURL ∈ cfg.servers) :
    Move cfg s { s with accepted := s.accepted ++ ts } []
  | flush (k : ℕ) (h : k ∈ s.deleteQueue) :
    Move cfg s { s with db := deleteRow cfg s.db k, deleteQueue := s.deleteQueue.erase k } []
  | commit {s' now ts lost} (h : Commits cfg s s' now ts lost) : Move cfg s s' lost

lemma Progress.move (h : Progress cfg s s') : Move cfg s s' [] := .commit h.commits

/-- Every step sends, accepts, flushes or moves a commit loop on. -/
lemma step_cases {a : Action} (h : step cfg s a = some s') : Move cfg s s' (gaveUp cfg s a) := by
  cases a with
  | send t =>
    simp only [step,Transmitter.send] at h
    split_ifs at h
    cases h
    exact .send t
  | accept t =>
    simp only [step,Transmitter.accept] at h
    split_ifs at h with hall
    cases h
    refine .accept _ fun u hu => ?_
    obtain ⟨url,hurl,rfl⟩ := mem_map.1 hu
    exact ⟨hall.2 url hurl,hurl⟩
  | insert i now =>
    obtain ⟨hi,h⟩ := Option.ite_none_right_eq_some.1 h
    obtain ⟨ts,hts⟩ := insert_commits hi h
    exact .commit hts
  | flush k =>
    simp only [step,Transmitter.flush] at h
    split_ifs at h with hk
    cases h
    exact .flush k hk.2
  | done i =>
    obtain ⟨hi,h⟩ := Option.ite_none_right_eq_some.1 h
    exact .commit (done_commits hi h)
  | check i =>
    obtain ⟨hi,h⟩ := Option.ite_none_right_eq_some.1 h
    exact .commit (check_commits hi h)
  | receive i =>
    obtain ⟨hi,h⟩ := Option.ite_none_right_eq_some.1 h
    exact (receive_progress hi h).move
  | tick i =>
    obtain ⟨hi,h⟩ := Option.ite_none_right_eq_some.1 h
    exact (tick_progress hi h).move
  | push i =>
    obtain ⟨hi,h⟩ := Option.ite_none_right_eq_some.1 h
    exact (push_progress hi h).move
  | pop url j => exact (pop_progress (Option.ite_none_right_eq_some.1 h).2).move
  | skip url j => exact (skip_progress (Option.ite_none_right_eq_some.1 h).2).move
  | answer url j => exact (answer_progress (Option.ite_none_right_eq_some.1 h).2).move
  | fail url j => exact (fail_progress (Option.ite_none_right_eq_some.1 h).2).move
  | quit url j => exact (leaveWait_progress (fun _ ht => by cases ht) (Option.ite_none_right_eq_some.1 h).2).move
  | closeQueue url => exact (closeQueue_progress (Option.ite_none_right_eq_some.1 h).2).move
  | resume url j => exact (leaveWait_progress (fun _ ht => by cases ht) h).move
  | cancelCommit i => exact (cancelCommit_progress h).move
  | cancelTransmit url j => exact (cancelTransmit_progress h).move
  | forget k => exact (forget_progress h).move
  | stop => exact (stop_progress h).move
  | finish => exact (finish_progress h).move

/-- What can have a row: the DON and the transmission. -/
def State.known (cfg : Config) (db₀ : List Row) (s : State) : Set (ℕ × Transmission) :=
  { k | (∃ row ∈ db₀, (row.donID,row.transmission) = k) ∨ (k.1 = cfg.donID ∧ k.2 ∈ s.sent) }

def State.Distinct (cfg : Config) (db₀ : List Row) (s : State) : Prop :=
  Set.InjOn (fun k => k.2.hash cfg.sha256) (s.known cfg db₀)

variable {db₀ : List Row} {lost : List Transmission} {now now₀ : ℕ}

/-- Every transmission taken is unsaved, given up or inserted, and what was inserted is gone
or still has its row, as long as no two share a hash. -/
structure Books (cfg : Config) (db₀ : List Row) (s : State) (lost : List Transmission) : Prop where
  accepted : ∀ t ∈ s.accepted, t ∈ s.sent ∧ t.serverURL ∈ cfg.servers
  sent : ∀ t ∈ s.sent, s.Unsaved cfg t ∨ t ∈ lost ∨ t ∈ s.committed
  unsaved : ∀ t, s.Unsaved cfg t → t ∈ s.sent
  committed : ∀ t ∈ s.committed, ∃ donID, (donID,t) ∈ s.known cfg db₀
  inFlight : ∀ t, s.InFlight t → t ∈ s.committed
  db : ∀ row ∈ s.db, (row.donID,row.transmission) ∈ s.known cfg db₀
  deletes : ∀ k ∈ s.deleteQueue, ∃ t ∈ s.committed, t.hash cfg.sha256 = k ∧ s.Gone t
  rows : s.Distinct cfg db₀ → ∀ t ∈ s.committed, s.Gone t ∨ ∃ row ∈ s.db, row.transmission = t

lemma Books.started : Books cfg db₀ (State.started cfg now db₀) [] where
  accepted _ ht := absurd ht not_mem_nil
  sent _ ht := absurd ht not_mem_nil
  unsaved t ht := by simp [State.Unsaved,State.started,CommitStage.held] at ht
  committed t ht := by
    obtain ⟨row,hrow,rfl⟩ := mem_map.1 ht
    exact ⟨row.donID,.inl ⟨row,hrow,rfl⟩⟩
  inFlight t ht := by
    rcases ht with ⟨i,ht⟩ | ⟨url,ht⟩ | ⟨url,j,ht⟩
    · exact absurd ht not_mem_nil
    · simp only [State.started,Config.initQueue] at ht
      split_ifs at ht
      · exact absurd ht not_mem_nil
      · obtain ⟨row,hrow,rfl⟩ := mem_of_mem_load ht
        exact mem_map_of_mem hrow
    · cases ht
  db row hrow := .inl ⟨row,hrow,rfl⟩
  deletes _ hk := absurd hk not_mem_nil
  rows _ t ht := .inr (mem_map.1 ht)

lemma Books.send (B : Books cfg db₀ s lost) (t : Transmission) :
    Books cfg db₀ { s with commitCh := s.commitCh ++ [t], sent := s.sent ++ [t] } lost := by
  have hunsaved : ∀ u, { s with commitCh := s.commitCh ++ [t], sent := s.sent ++ [t] }.Unsaved cfg u ↔
      s.Unsaved cfg u ∨ u = t := by
    intro u
    simp only [State.Unsaved,mem_append,mem_singleton]
    rw [or_right_comm]
  have hknown : s.known cfg db₀ ⊆ { s with commitCh := s.commitCh ++ [t], sent := s.sent ++ [t] }.known cfg db₀ :=
    fun u hu => hu.imp id (And.imp id (mem_append_left _))
  refine ⟨?_,?_,?_,?_,B.inFlight,fun row hrow => hknown (B.db row hrow),B.deletes,fun hinj => B.rows (hinj.mono hknown)⟩
  · exact fun u hu => ⟨mem_append_left _ (B.accepted u hu).1,(B.accepted u hu).2⟩
  · intro u hu
    rw [hunsaved]
    rcases mem_append.1 hu with hu | hu
    · exact (B.sent u hu).imp .inl id
    · exact .inl (.inr (mem_singleton.1 hu))
  · intro u hu
    rcases (hunsaved u).1 hu with hu | rfl
    · exact mem_append_left _ (B.unsaved u hu)
    · exact mem_append_right _ (mem_singleton_self u)
  · intro u hu
    obtain ⟨donID,hu⟩ := B.committed u hu
    exact ⟨donID,hknown hu⟩

lemma Books.accept {ts : List Transmission} (B : Books cfg db₀ s lost)
    (h : ∀ t ∈ ts, t ∈ s.sent ∧ t.serverURL ∈ cfg.servers) : Books cfg db₀ { s with accepted := s.accepted ++ ts } lost :=
  ⟨fun t ht => (mem_append.1 ht).elim (B.accepted t) (h t),B.sent,B.unsaved,B.committed,B.inFlight,B.db,B.deletes,B.rows⟩

lemma Books.flush {k : ℕ} (B : Books cfg db₀ s lost) (h : k ∈ s.deleteQueue) :
    Books cfg db₀ { s with db := deleteRow cfg s.db k, deleteQueue := s.deleteQueue.erase k } lost where
  accepted := B.accepted
  sent := B.sent
  unsaved := B.unsaved
  committed := B.committed
  inFlight := B.inFlight
  db row hrow := B.db row (mem_of_mem_filter hrow)
  deletes k' hk' := B.deletes k' (mem_of_mem_erase hk')
  rows hinj t ht := by
    rcases B.rows hinj t ht with hgone | ⟨row,hrow,rfl⟩
    · exact .inl hgone
    · by_cases hk : row.transmission.hash cfg.sha256 = k
      · obtain ⟨u,hu,heq,hgone⟩ := B.deletes k h
        obtain ⟨donID,hu⟩ := B.committed u hu
        have hsame := hinj (B.db row hrow) hu (hk.trans heq.symm)
        rw [show row.transmission = u from congrArg Prod.snd hsame]
        exact .inl hgone
      · exact .inr ⟨row,mem_filter.2 ⟨hrow,decide_eq_true hk⟩,rfl⟩

/-- What a commit loop inserts is no longer unsaved, and what it gives up is lost. -/
lemma Books.commit {ts lost' : List Transmission} (B : Books cfg db₀ s lost) (h : Commits cfg s s' now ts lost') :
    Books cfg db₀ s' (lost ++ lost') := by
  have hknown : s'.known cfg db₀ = s.known cfg db₀ := by rw [State.known,h.sent]; rfl
  have hts : ∀ t ∈ ts, (cfg.donID,t) ∈ s.known cfg db₀ := fun t ht => .inr ⟨rfl,B.unsaved t (h.held t ht)⟩
  have hdb : ∀ row ∈ s'.db, (row.donID,row.transmission) ∈ s.known cfg db₀ := by
    rw [h.db]
    intro row hrow
    rcases mem_of_mem_insertRows hrow with hrow | ⟨hdon,hrow⟩
    · exact B.db row hrow
    · rw [hdon]
      exact hts _ hrow
  refine ⟨?_,?_,?_,?_,?_,?_,?_,?_⟩
  · rw [h.accepted,h.sent]
    exact B.accepted
  · rw [h.sent,h.committed]
    intro t ht
    rw [mem_append,mem_append]
    rcases B.sent t ht with ht | ht | ht
    · rcases h.saved t ht with ht | ht | ht
      · exact .inl ht
      · exact .inr (.inl (.inr ht))
      · exact .inr (.inr (.inr ht))
    · exact .inr (.inl (.inl ht))
    · exact .inr (.inr (.inl ht))
  · rw [h.sent]
    exact fun t ht => B.unsaved t (h.unsaved t ht)
  · rw [hknown,h.committed]
    exact fun t ht => (mem_append.1 ht).elim (B.committed t) fun ht => ⟨_,hts t ht⟩
  · rw [h.committed]
    exact fun t ht => mem_append.2 ((h.inFlight t ht).imp (B.inFlight t) id)
  · rwa [hknown]
  · rw [h.committed]
    intro k hk
    rcases h.deletes k hk with hk | ⟨t,ht,hgone,heq⟩
    · obtain ⟨t,ht,heq,hgone⟩ := B.deletes k hk
      exact ⟨t,mem_append_left _ ht,heq,h.gone t hgone⟩
    · exact ⟨t,mem_append_left _ (B.inFlight t ht),heq,hgone⟩
  · rw [State.Distinct,hknown,h.committed]
    intro hinj t ht
    rcases mem_append.1 ht with ht | ht
    · rw [h.db]
      exact (B.rows hinj t ht).imp (h.gone t) fun ⟨row,hrow,heq⟩ => ⟨row,subset_insertRows row hrow,heq⟩
    · obtain ⟨row,hrow,heq⟩ := @exists_row_of_mem cfg now s.db _ _ ht
      rw [← h.db] at hrow
      exact .inr ⟨row,hrow,congrArg Prod.snd (hinj (hdb row hrow) (hts t ht) heq)⟩

lemma Books.step {a : Action} (B : Books cfg db₀ s lost) (h : step cfg s a = some s') :
    Books cfg db₀ s' (lost ++ gaveUp cfg s a) := by
  have hmove := step_cases h
  generalize gaveUp cfg s a = lost' at hmove
  cases hmove with
  | send t => exact (append_nil lost).symm ▸ B.send t
  | accept ts hts => exact (append_nil lost).symm ▸ B.accept hts
  | flush k hk => exact (append_nil lost).symm ▸ B.flush hk
  | commit hc => exact B.commit hc

lemma Books.schedule {actions : List Action} (B : Books cfg db₀ s lost) (h : schedule cfg s actions = some s') :
    Books cfg db₀ s' (lost ++ givenUp cfg s actions) := by
  induction actions generalizing s lost with
  | nil =>
    cases h
    rwa [givenUp,append_nil]
  | cons a actions ih =>
    obtain ⟨s₁,hstep,hrest⟩ := Option.bind_eq_some_iff.1 h
    rw [givenUp,hstep,← append_assoc]
    exact ih (B.step hstep) hrest

/-- Answered, dropped from a full queue, or loaded by a Start at the given time. -/
def State.Kept (cfg : Config) (now : ℕ) (s : State) (t : Transmission) : Prop :=
  t ∈ s.answered ∨ t ∈ s.dropped ∨ ∃ next, start cfg now s.db = some next ∧ t ∈ (next.queues t.serverURL).pq

lemma start_eq_some_iff {next : State} :
    start cfg now db₀ = some next ↔
      (∀ url ∈ cfg.servers, (cfg.load now db₀ url).length ≤ cfg.transmitQueueMaxSize) ∧
        State.started cfg now db₀ = next := by
  have hinit : ∀ url, (cfg.initQueue now db₀ url).toOption.isSome ↔
      (cfg.load now db₀ url).length ≤ cfg.transmitQueueMaxSize := by
    intro url
    simp only [Config.initQueue]
    split_ifs with hlen
    · simpa [Except.toOption] using hlen
    · simpa [Except.toOption] using hlen
  unfold start
  simp only [hinit]
  split_ifs with h
  · rw [Option.some_inj,and_iff_right h]
  · exact iff_of_false (by simp) fun h' => h h'.1

/-- The next Start loads the row of a transmission. -/
lemma exists_start {db : List Row} {row : Row} (hlimit : cfg.transmitQueueMaxSize ≠ 0) (hurl : url ∈ cfg.servers)
    (hrows : (db.filter (cfg.selects now url)).length ≤ cfg.maxRows) (hrow : row ∈ db)
    (hselects : cfg.selects now url row = true) :
    ∃ next, start cfg now db = some next ∧ row.transmission ∈ (next.queues url).pq := by
  have hlen : ∀ url ∈ cfg.servers, (cfg.load now db url).length ≤ cfg.transmitQueueMaxSize := by
    intro url _
    rw [length_load,Config.maxRows,if_neg hlimit]
    exact min_le_left _ _
  refine ⟨_,start_eq_some_iff.2 ⟨hlen,rfl⟩,?_⟩
  simp only [State.started,Config.initQueue]
  rw [if_neg (Nat.not_lt.2 (hlen url hurl))]
  exact mem_load hrows hrow hselects

lemma commitCh_of_finish (h : finish cfg s = some s') (ht : s'.Unsaved cfg t) : t ∈ s'.commitCh := by
  unfold finish at h
  split_ifs at h with hall
  cases h
  rcases ht with ht | ⟨i,hi,ht⟩
  · exact ht
  · rw [hall.2.1 i (mem_range.2 hi)] at ht
    exact absurd ht not_mem_nil

/-- When Close returns, every accepted transmission is kept, if none of them was left on the
commit channel or given up by a commit loop, none is a capability trigger, and the queues
have a limit. The rows of a server fit that limit and are not too old at the next Start. -/
theorem accepted_kept {s₀ : State} {actions : List Action} (hstart : start cfg now₀ db₀ = some s₀)
    (hrun : schedule cfg s₀ actions = some s) (hclose : finish cfg s = some s') (hhash : s'.Distinct cfg db₀)
    (hrows : ∀ url ∈ cfg.servers, (s'.db.filter (cfg.selects now url)).length ≤ cfg.maxRows)
    (hage : ∀ row ∈ s'.db, cfg.inAge now row = true) (hlimit : cfg.transmitQueueMaxSize ≠ 0)
    (hformat : ∀ t ∈ s'.accepted, t.reportFormat ≠ .capabilityTrigger)
    (hchannel : ∀ t ∈ s'.accepted, t ∉ s'.commitCh) (hloops : ∀ t ∈ s'.accepted, t ∉ givenUp cfg s₀ actions) :
    ∀ t ∈ s'.accepted, s'.Kept cfg now t := by
  intro t ht
  obtain ⟨-,rfl⟩ := start_eq_some_iff.1 hstart
  have B : Books cfg db₀ s' ([] ++ givenUp cfg (State.started cfg now₀ db₀) actions ++ []) :=
    (Books.started.schedule hrun).commit (finish_progress hclose).commits
  rw [nil_append,append_nil] at B
  obtain ⟨hsent,hurl⟩ := B.accepted t ht
  have hcommitted : t ∈ s'.committed := by
    rcases B.sent t hsent with h | h | h
    · exact absurd (commitCh_of_finish hclose h) (hchannel t ht)
    · exact absurd h (hloops t ht)
    · exact h
  rcases B.rows hhash t hcommitted with (h | h | h) | ⟨row,hrow,rfl⟩
  · exact .inl h
  · exact .inr (.inl h)
  · exact absurd h (hformat t ht)
  · have hown : (cfg.donID,row.transmission) ∈ s'.known cfg db₀ := .inr ⟨rfl,hsent⟩
    have hdon : row.donID = cfg.donID := congrArg Prod.fst (hhash (B.db row hrow) hown rfl)
    refine .inr (.inr (exists_start hlimit hurl (hrows _ hurl) hrow ?_))
    simp [Config.selects,hdon,hage row hrow]

section Sorting
variable {r : Transmission → Transmission → Prop} [DecidableRel r] {pq rest : List Transmission}
def popLeast (r : Transmission → Transmission → Prop) [DecidableRel r] (pq : List Transmission) :
    Option (Transmission × List Transmission) :=
  match pq.insertionSort r with
  | [] => none
  | t :: rest => some (t,rest)

lemma sort_of_popLeast (h : popLeast r pq = some (t,rest)) : pq.insertionSort r = t :: rest := by
  unfold popLeast at h
  split at h
  next => cases h
  next hsort =>
    cases h
    exact hsort

lemma popLeast_perm (h : popLeast r pq = some (t,rest)) : pq.Perm (t :: rest) := by
  rw [← sort_of_popLeast h]
  exact (perm_insertionSort r pq).symm

lemma popLeast_least [Std.Total r] [IsTrans _ r] (h : popLeast r pq = some (t,rest)) : ∀ u ∈ pq, r t u := by
  intro u hu
  have hsorted := pairwise_insertionSort r pq
  rw [sort_of_popLeast h,pairwise_cons] at hsorted
  rcases mem_cons.1 ((popLeast_perm h).mem_iff.1 hu) with rfl | hu
  · exact (Std.Total.total u u : r u u ∨ r u u).elim id id
  · exact hsorted.1 u hu

lemma popLeast_isSome (h : pq ≠ []) : (popLeast r pq).isSome := by
  unfold popLeast
  split
  next hsort =>
    have hlength := length_insertionSort r pq
    rw [hsort] at hlength
    exact absurd (length_eq_zero_iff.1 hlength.symm) h
  next => rfl

end Sorting

instance : Std.Total (fun t u : Transmission => t.seqNr ≤ u.seqNr) := ⟨fun t u => Nat.le_total t.seqNr u.seqNr⟩
instance : IsTrans Transmission (fun t u => t.seqNr ≤ u.seqNr) := ⟨fun _ _ _ h h' => Nat.le_trans h h'⟩
instance : Std.Total (fun t u : Transmission => u.seqNr ≤ t.seqNr) := ⟨fun t u => Nat.le_total u.seqNr t.seqNr⟩
instance : IsTrans Transmission (fun t u => u.seqNr ≤ t.seqNr) := ⟨fun _ _ _ h h' => Nat.le_trans h' h⟩

/-- A heap kept as a list that is sorted when one of its ends is wanted. -/
def sortingHeap : MinMaxHeap where
  pop := popLeast (fun t u => u.seqNr ≤ t.seqNr)
  popMax := popLeast (fun t u => t.seqNr ≤ u.seqNr)
  pop_perm := popLeast_perm
  pop_latest := popLeast_least
  pop_isSome := popLeast_isSome
  popMax_perm := popLeast_perm
  popMax_oldest := popLeast_least
  popMax_isSome := popLeast_isSome

def oneServer : Config where
  donID := 1
  servers := [ascii "wss://server"]
  transmitConcurrency := 1
  transmitQueueMaxSize := 10
  reaperMaxAge := 10 ^ 9
  sha256 := List.length
  heap := sortingHeap

def oneReport : Transmission where
  serverURL := ascii "wss://server"
  configDigest := List.replicate 32 0
  seqNr := 7
  report := [42]
  lifeCycleStage := ascii "production"
  reportFormat := .json
  sigs := []

/-- Transmit has returned nil and the commit loop has taken the report. -/
def taken : List Action := [.send oneReport,.accept oneReport,.receive 0]

/-- The tick of the commit loop. -/
def saved : List Action := [.tick 0,.check 0,.insert 0 1000,.push 0,.push 0]

/-- Close, until the loops have returned. -/
def closing : List Action :=
  [.closeQueue (ascii "wss://server"),.stop,.cancelCommit 0,.done 0,.pop (ascii "wss://server") 0]

/-- A schedule of the one server from its Start until Close returns in `s'`. -/
structure ClosesIn (actions : List Action) (s s' : State) : Prop where
  start : start oneServer 0 [] = some (State.started oneServer 0 [])
  run : schedule oneServer (State.started oneServer 0 []) actions = some s
  close : finish oneServer s = some s'

lemma closesIn_of_decide {actions : List Action} {P : State → Bool}
    (h : ((schedule oneServer (State.started oneServer 0 []) actions).bind (finish oneServer)).any P = true) :
    ∃ s s', ClosesIn actions s s' ∧ P s' = true := by
  obtain ⟨hsome,hP⟩ := (Option.any_eq_true_iff_get _ _).1 h
  obtain ⟨s,hrun,hclose⟩ := Option.bind_eq_some_iff.1 (Option.some_get hsome).symm
  exact ⟨s,_,⟨start_eq_some_iff.2 ⟨by decide,rfl⟩,hrun,hclose⟩,hP⟩

lemma distinct_oneReport (hsent : s'.sent = [oneReport]) : s'.Distinct oneServer [] := by
  have hone : ∀ k ∈ s'.known oneServer [], k = (oneServer.donID,oneReport) := by
    rintro ⟨donID,t⟩ (⟨row,hrow,_⟩ | ⟨rfl,ht⟩)
    · exact absurd hrow not_mem_nil
    · rw [hsent,mem_singleton] at ht
      exact congrArg _ ht
  exact fun k hk k' hk' _ => (hone k hk).trans (hone k' hk').symm

/-- Closed after the tick, the transmitter has the report in its table; the next Start, one
second later, loads it. -/
theorem accepted_kept_after_tick :
    ∃ s s', ClosesIn (taken ++ saved ++ closing) s s' ∧ s'.accepted = [oneReport] ∧
      ∀ t ∈ s'.accepted, s'.Kept oneServer (10 ^ 6) t := by
  obtain ⟨s,s',hcloses,hP⟩ : ∃ s s', ClosesIn (taken ++ saved ++ closing) s s' ∧
      decide (s'.sent = [oneReport] ∧ s'.accepted = [oneReport] ∧ s'.commitCh = [] ∧ s'.db = [⟨1,oneReport,1000⟩]) = true :=
    closesIn_of_decide (by decide +kernel)
  obtain ⟨hsent,haccepted,hchannel,hdb⟩ := of_decide_eq_true hP
  have hlost : givenUp oneServer (State.started oneServer 0 []) (taken ++ saved ++ closing) = [] := by decide +kernel
  refine ⟨s,s',hcloses,haccepted,accepted_kept hcloses.start hcloses.run hcloses.close (distinct_oneReport hsent) ?_ ?_
    (by decide) ?_ ?_ ?_⟩
  · rw [hdb]
    decide
  · rw [hdb]
    decide
  · rw [haccepted]
    decide
  · rw [hchannel]
    exact fun _ _ => not_mem_nil
  · rw [hlost]
    exact fun _ _ => not_mem_nil

/-- Closed before the tick, it has lost a report that it accepted. -/
theorem accepted_lost_before_tick :
    ∃ s s', ClosesIn (taken ++ closing) s s' ∧ s'.Distinct oneServer [] ∧ s'.db = [] ∧ oneReport ∈ s'.accepted ∧
      ∀ now, ¬ s'.Kept oneServer now oneReport := by
  obtain ⟨s,s',hcloses,hP⟩ : ∃ s s', ClosesIn (taken ++ closing) s s' ∧
      decide (s'.sent = [oneReport] ∧ oneReport ∈ s'.accepted ∧ s'.db = [] ∧ s'.answered = [] ∧
        s'.dropped = []) = true :=
    closesIn_of_decide (by decide +kernel)
  obtain ⟨hsent,haccepted,hdb,hanswered,hdropped⟩ := of_decide_eq_true hP
  refine ⟨s,s',hcloses,distinct_oneReport hsent,hdb,haccepted,fun now hkept => ?_⟩
  rw [State.Kept,hanswered,hdropped,hdb] at hkept
  rcases hkept with h | h | ⟨next,hstart,h⟩
  · exact absurd h not_mem_nil
  · exact absurd h not_mem_nil
  · obtain ⟨-,rfl⟩ := start_eq_some_iff.1 hstart
    exact absurd h not_mem_nil

end DataStreams.Transmitter
