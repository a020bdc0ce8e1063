import DataStreams.Transmitter.Shutdown

/-! What a queue is loaded with after a restart, and what a full queue keeps. -/
namespace DataStreams.Transmitter
open List

/-- What the next `n` pops yield, while there is something left. -/
def yields (H : MinMaxHeap) : ℕ → List Transmission → List Transmission
  | 0,_ => []
  | n + 1,pq =>
    match H.pop pq with
    | none => []
    | some (t,rest) => t :: yields H n rest

/-- The queue is filled with the newest rows of the server that are not too old, as many as
are kept, and yields them newest first. -/
def RestartsWith (cfg : Config) (now : ℕ) (db : List Row) (url : ServerURL) : Prop :=
  ∃ pq older, cfg.initQueue now db url = .ok pq ∧
    ((db.filter (cfg.selects now url)).map Row.transmission).Perm (pq ++ older) ∧
    pq.length = min cfg.maxRows (db.filter (cfg.selects now url)).length ∧
    (∀ t ∈ pq, ∀ u ∈ older, u.seqNr ≤ t.seqNr) ∧
    (∀ n, (yields cfg.heap n pq).Pairwise fun t u => u.seqNr ≤ t.seqNr) ∧ (yields cfg.heap pq.length pq).Perm pq

variable {H : MinMaxHeap} {pq : List Transmission}
lemma yields_subset (n : ℕ) : yields H n pq ⊆ pq := by
  induction n generalizing pq with
  | zero => exact nil_subset _
  | succ n ih =>
    rw [yields]
    cases hpop : H.pop pq with
    | none => exact nil_subset _
    | some r =>
      obtain ⟨t,rest⟩ := r
      have hperm := H.pop_perm hpop
      refine cons_subset.2 ⟨hperm.mem_iff.2 mem_cons_self,fun u hu => ?_⟩
      exact hperm.mem_iff.2 (mem_cons_of_mem _ (ih hu))

lemma yields_pairwise (n : ℕ) : (yields H n pq).Pairwise fun t u => u.seqNr ≤ t.seqNr := by
  induction n generalizing pq with
  | zero => exact .nil
  | succ n ih =>
    rw [yields]
    cases hpop : H.pop pq with
    | none => exact .nil
    | some r =>
      obtain ⟨t,rest⟩ := r
      refine .cons (fun u hu => H.pop_latest hpop u ?_) ih
      exact (H.pop_perm hpop).mem_iff.2 (mem_cons_of_mem _ (yields_subset n hu))

lemma yields_perm : (yields H pq.length pq).Perm pq := by
  induction hlen : pq.length generalizing pq with
  | zero =>
    rw [length_eq_zero_iff.1 hlen]
    exact .refl _
  | succ n ih =>
    obtain ⟨r,hpop⟩ := Option.isSome_iff_exists.1 (H.pop_isSome (ne_nil_of_length_eq_add_one hlen))
    obtain ⟨t,rest⟩ := r
    have hperm := H.pop_perm hpop
    have hrest := hperm.length_eq
    rw [hlen,length_cons] at hrest
    rw [yields,hpop]
    exact ((ih (by omega)).cons t).trans hperm.symm

lemma load_newest (cfg : Config) (now : ℕ) (db : List Row) (url : ServerURL) : ∃ older,
    ((db.filter (cfg.selects now url)).map Row.transmission).Perm (cfg.load now db url ++ older) ∧
      ∀ t ∈ cfg.load now db url, ∀ u ∈ older, u.seqNr ≤ t.seqNr := by
  let rows := (db.filter (cfg.selects now url)).insertionSort Row.Before
  have hsorted : rows.Pairwise Row.Before := pairwise_insertionSort _ _
  refine ⟨(rows.drop cfg.maxRows).map Row.transmission,?_,?_⟩
  · rw [Config.load,← map_append,take_append_drop]
    exact ((perm_insertionSort _ _).map _).symm
  · rw [← take_append_drop cfg.maxRows rows,pairwise_append] at hsorted
    intro t ht u hu
    obtain ⟨a,ha,rfl⟩ := mem_map.1 ht
    obtain ⟨b,hb,rfl⟩ := mem_map.1 hu
    rcases hsorted.2.2 a ha b hb with hlt | ⟨heq,-⟩
    · exact hlt.le
    · exact heq.le

/-- A restart works exactly if the queue has a limit or there is nothing to load: no row of
the server that is young enough. -/
theorem restartsWith_iff (cfg : Config) (now : ℕ) (db : List Row) (url : ServerURL) :
    RestartsWith cfg now db url ↔ cfg.transmitQueueMaxSize ≠ 0 ∨ ∀ row ∈ db, cfg.selects now url row = false := by
  have hempty : (db.filter (cfg.selects now url)).length = 0 ↔ ∀ row ∈ db, cfg.selects now url row = false := by
    simp
  have hinit : (cfg.load now db url).length ≤ cfg.transmitQueueMaxSize ↔
      cfg.transmitQueueMaxSize ≠ 0 ∨ ∀ row ∈ db, cfg.selects now url row = false := by
    rw [length_load,← hempty,Config.maxRows]
    split_ifs with h0
    · rw [h0,defaultMaxTransmitQueueSize]
      omega
    · omega
  rw [← hinit]
  constructor
  · rintro ⟨pq,older,hok,-⟩
    by_contra hlong
    simp only [Config.initQueue,if_pos (not_le.1 hlong),reduceCtorEq] at hok
  · intro hle
    obtain ⟨older,hperm,holder⟩ := load_newest cfg now db url
    refine ⟨_,older,?_,hperm,length_load,holder,yields_pairwise,yields_perm⟩
    simp only [Config.initQueue,if_neg (not_lt.2 hle)]

/-- A queue without a limit refuses the first row, inserted a millisecond before. -/
theorem not_restartsWith_unlimited :
    ¬ RestartsWith { oneServer with transmitQueueMaxSize := 0 } 2000 [⟨1,oneReport,1000⟩] oneReport.serverURL := by
  rintro ⟨pq,older,hinit,-⟩
  have herror : Config.initQueue { oneServer with transmitQueueMaxSize := 0 } 2000 [⟨1,oneReport,1000⟩] oneReport.serverURL =
      .error "transmit queue is too small to hold 1 transmissions" := by decide
  rw [herror] at hinit
  cases hinit

namespace TransmitQueue
inductive Reaches (H : MinMaxHeap) (maxlen : ℕ) : TransmitQueue → Prop
  | init {ts} : ts.length ≤ maxlen → Reaches H maxlen ⟨ts,false⟩
  | push {q q' t dropped} : Reaches H maxlen q → q.push H maxlen t = some (q',dropped) → Reaches H maxlen q'
  | pop {q t rest} : Reaches H maxlen q → H.pop q.pq = some (t,rest) → Reaches H maxlen { q with pq := rest }

/-- After a push there are as many of the newest transmissions as fit, the others are passed
to be deleted, and the next pop yields a newest one. -/
def KeepsNewest (H : MinMaxHeap) (maxlen : ℕ) (q : TransmitQueue) (t : Transmission) : Prop :=
  ∃ q' dropped, q.push H maxlen t = some (q',dropped) ∧ q'.pq.length = min maxlen (q.pq.length + 1) ∧
    (t :: q.pq).Perm (q'.pq ++ dropped) ∧ (∀ u ∈ q'.pq, ∀ v ∈ dropped, v.seqNr ≤ u.seqNr) ∧
    ∀ u rest, H.pop q'.pq = some (u,rest) → ∀ v ∈ q'.pq, v.seqNr ≤ u.seqNr

variable {maxlen : ℕ} {q : TransmitQueue} (hmax : 1 ≤ maxlen)
lemma evict_of_lt {pq : List Transmission} (fuel : ℕ) (h : pq.length < maxlen) : evict H maxlen fuel pq = (pq,[]) := by
  cases fuel with
  | zero => rfl
  | succ fuel => rw [evict,if_pos h]

include hmax

/-- A queue that is full drops one, and another one none. -/
lemma push_eq (hopen : q.closed = false) (hlen : q.pq.length ≤ maxlen) (t : Transmission) :
    (q.pq.length < maxlen ∧ q.push H maxlen t = some (⟨t :: q.pq,false⟩,[])) ∨
      q.pq.length = maxlen ∧ ∃ removed rest, H.popMax q.pq = some (removed,rest) ∧
        q.push H maxlen t = some (⟨t :: rest,false⟩,[removed]) := by
  have hpush : q.push H maxlen t = some (⟨t :: (evict H maxlen q.pq.length q.pq).1,false⟩,(evict H maxlen q.pq.length q.pq).2) := by
    rw [push,hopen,if_neg Bool.false_ne_true,if_neg (by omega)]
  rw [hpush]
  rcases hlen.lt_or_eq with hroom | hfull
  · rw [evict_of_lt _ hroom]
    exact .inl ⟨hroom,rfl⟩
  · obtain ⟨r,hpop⟩ := Option.isSome_iff_exists.1 (H.popMax_isSome (ne_nil_of_length_pos (by omega : 0 < q.pq.length)))
    obtain ⟨removed,rest⟩ := r
    have hrest := (H.popMax_perm hpop).length_eq
    rw [length_cons] at hrest
    refine .inr ⟨hfull,removed,rest,hpop,?_⟩
    rw [hrest,evict,if_neg (by omega),hpop]
    dsimp only
    rw [evict_of_lt _ (by omega)]

lemma Reaches.bounded (h : Reaches H maxlen q) : q.closed = false ∧ q.pq.length ≤ maxlen := by
  induction h with
  | init hlen => exact ⟨rfl,hlen⟩
  | push _ hpush ih =>
    rcases push_eq hmax ih.1 ih.2 _ with ⟨hroom,heq⟩ | ⟨hfull,removed,rest,hpop,heq⟩
    · cases heq.symm.trans hpush
      exact ⟨rfl,hroom⟩
    · cases heq.symm.trans hpush
      have hrest := (H.popMax_perm hpop).length_eq
      rw [hfull,length_cons] at hrest
      exact ⟨rfl,hrest.ge⟩
  | pop _ hpop ih =>
    have hrest := (H.pop_perm hpop).length_eq
    rw [length_cons] at hrest
    exact ⟨ih.1,by dsimp only; omega⟩

/-- A push keeps the newest exactly if there is room or something that is not newer. -/
theorem keepsNewest_iff (hq : Reaches H maxlen q) (t : Transmission) :
    KeepsNewest H maxlen q t ↔ q.pq.length < maxlen ∨ ∃ u ∈ q.pq, u.seqNr ≤ t.seqNr := by
  obtain ⟨hopen,hlen⟩ := hq.bounded hmax
  rcases push_eq hmax hopen hlen t with ⟨hroom,heq⟩ | ⟨hfull,removed,rest,hpop,heq⟩
  · refine iff_of_true ⟨_,_,heq,?_,?_,?_,fun u rest hpop => H.pop_latest hpop⟩ (.inl hroom)
    · rw [length_cons]
      omega
    · rw [append_nil]
    · exact fun _ _ _ hv => absurd hv not_mem_nil
  · have hperm := H.popMax_perm hpop
    have hmem : removed ∈ q.pq := hperm.mem_iff.2 mem_cons_self
    constructor
    · rintro ⟨q',dropped,hpush,-,-,hnewest,-⟩
      cases heq.symm.trans hpush
      exact .inr ⟨removed,hmem,hnewest t mem_cons_self removed mem_cons_self⟩
    · intro h
      obtain ⟨u,hu,hle⟩ := h.resolve_left (by omega)
      have holdest := H.popMax_oldest hpop
      have hrest := hperm.length_eq
      rw [length_cons] at hrest
      refine ⟨_,_,heq,?_,?_,?_,fun u rest hpop => H.pop_latest hpop⟩
      · rw [length_cons]
        omega
      · exact (hperm.cons t).trans ((perm_append_singleton removed rest).symm.cons t)
      · intro v hv w hw
        rw [mem_singleton.1 hw]
        rcases mem_cons.1 hv with rfl | hv
        · exact (holdest u hu).trans hle
        · exact holdest v (hperm.mem_iff.2 (mem_cons_of_mem _ hv))

omit hmax

theorem keepsNewest_newer : KeepsNewest sortingHeap 1 ⟨[oneReport],false⟩ { oneReport with seqNr := 8 } :=
  (keepsNewest_iff le_rfl (.init (by decide)) _).2 (.inr ⟨oneReport,mem_cons_self,by decide⟩)

/-- A retry of an older report drops the newer one that filled the queue. -/
theorem not_keepsNewest_retry :
    ∃ q, Reaches sortingHeap 1 q ∧ ¬KeepsNewest sortingHeap 1 q { oneReport with seqNr := 3 } := by
  refine ⟨⟨[oneReport],false⟩,.init (by decide),?_⟩
  rintro ⟨q',dropped,hpush,-,-,hnewest,-⟩
  have heq : push sortingHeap 1 ⟨[oneReport],false⟩ { oneReport with seqNr := 3 } =
      some (⟨[{ oneReport with seqNr := 3 }],false⟩,[oneReport]) := rfl
  cases heq.symm.trans hpush
  exact absurd (hnewest _ mem_cons_self _ mem_cons_self) (by decide)

end TransmitQueue
end DataStreams.Transmitter
