import DataStreams.V31.HistoryRefinement

/-! Over any rounds, a pair answers like a list whose oldest chunks are dropped. -/
namespace DataStreams
open List Function Option

def FitsRecord (decimal : DecimalEncoder) (r : StreamHistoryRecord) : Prop :=
  ∃ size, historyRecordSize decimal r = .ok size ∧ size ≤ maxHistoryRecordBytes

instance (decimal : DecimalEncoder) (r : StreamHistoryRecord) : Decidable (FitsRecord decimal r) :=
  match h : historyRecordSize decimal r with
  | .ok size => decidable_of_iff (size ≤ maxHistoryRecordBytes) (by simp [FitsRecord,h])
  | .error _ => isFalse (by simp [FitsRecord,h])

def IsNewer (records : List StreamHistoryRecord) (r : StreamHistoryRecord) : Prop :=
  ∀ newest ∈ records.getLast?, newest.observedAtNanoseconds < r.observedAtNanoseconds

instance (records : List StreamHistoryRecord) (r : StreamHistoryRecord) : Decidable (IsNewer records r) :=
  inferInstanceAs (Decidable (∀ newest ∈ records.getLast?, newest.observedAtNanoseconds < r.observedAtNanoseconds))

namespace PairHistory
variable {p q : PairHistory}
def offer (decimal : DecimalEncoder) (p : PairHistory) (r : StreamHistoryRecord) : PairHistory :=
  if FitsRecord decimal r then p.push r else p

def series (p : PairHistory) (n : ℕ) (field : Field) : Except HistoryError Series :=
  (p.answer n).bind (fun records => V31.asFailure (seriesFromRecords records field))

variable {n : ℕ}
lemma answer_congr (hrecords : p.records = q.records)
    (h : n ≤ p.retained ∧ n ≤ q.retained ∨ p.dropped = q.dropped) : p.answer n = q.answer n := by
  have hnewest : p.newest n = q.newest n := by rw [newest,newest,hrecords]
  rcases h with ⟨hp,hq⟩ | hdropped
  · rw [answer,answer,if_neg (not_lt.2 hp),if_neg (not_lt.2 hq),hnewest]
  · have hretained : p.retained = q.retained := by rw [retained,retained,hrecords,hdropped]
    rw [answer,answer,hnewest,hretained]

variable {field : Field}
lemma series_eq_ok_iff (hfield : ∀ r ∈ p.records, ∃ d, projectStreamValue r.value field = .ok d) :
    (∃ series, p.series n field = .ok series) ↔ n ≤ p.retained := by
  constructor
  · rintro ⟨series,h⟩
    by_contra hshort
    rw [PairHistory.series,answer,if_pos (not_le.1 hshort)] at h
    cases h
  · intro h
    have hsub : (p.newest n).Sublist p.records := drop_sublist _ _
    obtain ⟨series,hseries⟩ := seriesFromRecords_returns (p.increasing.sublist hsub) fun r hr => hfield r (hsub.subset hr)
    exact ⟨series,by rw [PairHistory.series,answer,if_neg (not_lt.2 h),Except.bind,hseries]; rfl⟩

lemma series_eq_ok {series : Series} (h : p.series n field = .ok series) :
    series.timestamps = (p.newest n).map StreamHistoryRecord.observedAtNanoseconds ∧
      List.Forall₂ (fun r d => projectStreamValue r.value field = .ok d) (p.newest n) series.values := by
  rw [PairHistory.series,answer] at h
  split_ifs at h
  · cases h
  · rw [Except.bind] at h
    cases hseries : seriesFromRecords (p.newest n) field with
    | error e =>
      rw [hseries] at h
      cases h
    | ok result =>
      rw [hseries] at h
      cases h
      exact seriesFromRecords_eq_ok hseries

end PairHistory

namespace V31

structure PairRound where
  depth : ℕ
  record : Option StreamHistoryRecord
  reads : List (ℕ × Field)
  depth_le : (depth : ℤ) ≤ maxHistoryRecordsPerPair

/-- What a round returned, and the pairs it found corrupt. -/
structure PairOutcome where
  appended : Option (Except HistoryError Bool)
  answers : List (Except HistoryError Series)
  corrupt : List HistKey

/-- The record has a value that observations can have. -/
structure RecordInRange (decimal : DecimalEncoder) (r : StreamHistoryRecord) : Prop where
  observedAt_lt : r.observedAtNanoseconds < 2 ^ 64
  decodable : r.value.Decodable
  size : ∃ size, historyRecordSize decimal r = .ok size

namespace PairRound
def append (L : HistoryLibs) (kv : HistoryKV) (k : HistKey) (s : HistoryStore) :
    Option StreamHistoryRecord → HistoryStore × Option (Except HistoryError Bool)
  | none => (s,none)
  | some r =>
    let (s',result) := s.append L kv k r
    (s',some result)

def read (L : HistoryLibs) (kv : HistoryKV) (k : HistKey) :
    HistoryStore → List (ℕ × Field) → HistoryStore × List (Except HistoryError Series)
  | s,[] => (s,[])
  | s,(n,field) :: rest =>
    let (s₁,answer) := s.series L kv k n field
    let (s₂,answers) := read L kv k s₁ rest
    (s₂,answer :: answers)

def run (L : HistoryLibs) (k : HistKey) (kv : HistoryKV) (x : PairRound) : Except HistoryError (HistoryKV × PairOutcome) := do
  let s ← newHistoryStore kv
  let s ← s.setRequired L kv k x.depth
  let (s,appended) := append L kv k s x.record
  let (s,answers) := read L kv k s x.reads
  let kv' ← s.flush L kv
  .ok (kv',⟨appended,answers,s.corrupt.keys⟩)

def next (decimal : DecimalEncoder) (p : PairHistory) (x : PairRound) : PairHistory :=
  x.record.elim (p.setDepth x.depth x.depth_le) ((p.setDepth x.depth x.depth_le).offer decimal)

def offered (decimal : DecimalEncoder) (p : PairHistory) (r : StreamHistoryRecord) : Except HistoryError Bool :=
  match historyRecordSize decimal r with
  | .ok size =>
    if size ≤ maxHistoryRecordBytes then .ok (decide (p.depth ≠ 0 ∧ p.Accepts r))
    else if p.depth ≠ 0 ∧ p.Accepts r then .error (.tooLarge size) else .ok false
  | .error e => .error (.failure e)

def outcome (decimal : DecimalEncoder) (p : PairHistory) (x : PairRound) : PairOutcome where
  appended := x.record.map (offered decimal (p.setDepth x.depth x.depth_le))
  answers := x.reads.map (fun q => (next decimal p x).series q.1 q.2)
  corrupt := []

end PairRound

def runRounds (L : HistoryLibs) (k : HistKey) : HistoryKV → List PairRound → Except HistoryError (HistoryKV × List PairOutcome)
  | kv,[] => .ok (kv,[])
  | kv,x :: rest => do
    let (kv₁,outcome) ← x.run L k kv
    let (kv₂,outcomes) ← runRounds L k kv₁ rest
    .ok (kv₂,outcome :: outcomes)

def listOutcomes (decimal : DecimalEncoder) : PairHistory → List PairRound → List PairOutcome
  | _,[] => []
  | p,x :: rest => x.outcome decimal p :: listOutcomes decimal (x.next decimal p) rest

variable {L : HistoryLibs} {kv : HistoryKV} {s : HistoryStore} {g : HistoryRound} {k : HistKey}
/-- An append pushes the record on the list, or refuses it as the list does. -/
lemma follows_append {record : Option StreamHistoryRecord} (h : s.Follows L kv g) (hk : k ∉ g.appended)
    (htouched : k ∈ g.touched) (hr : ∀ r ∈ record, RecordInRange L.marshalDecimal r) :
    ∃ s' g', PairRound.append L kv k s record = (s',record.map (PairRound.offered L.marshalDecimal (g.now k))) ∧
      s'.Follows L kv g' ∧ g'.start = g.start ∧ k ∈ g'.touched ∧
      g'.now = update g.now k (record.elim (g.now k) ((g.now k).offer L.marshalDecimal)) := by
  cases record with
  | none => exact ⟨s,g,rfl,h,rfl,htouched,(update_eq_self _ _).symm⟩
  | some r =>
    have hrange := hr r rfl
    obtain ⟨size,hsize⟩ := hrange.size
    rw [map_some,elim_some,PairRound.offered,PairHistory.offer,hsize,PairRound.append]
    dsimp only
    by_cases hsmall : size ≤ maxHistoryRecordBytes
    · obtain ⟨s',happend,h'⟩ := h.append hk ⟨hrange.observedAt_lt,hrange.decodable,size,hsize,hsmall⟩
      rw [happend,if_pos hsmall,if_pos ⟨size,hsize,hsmall⟩]
      exact ⟨s',_,rfl,h',rfl,mem_cons_self,rfl⟩
    · obtain ⟨s',happend,h'⟩ := h.append_tooLarge hk hsize (not_le.1 hsmall)
      have hlarge : ¬ FitsRecord L.marshalDecimal r := by
        rintro ⟨size',hsize',hsmall'⟩
        exact hsmall (Except.ok.inj (hsize.symm.trans hsize') ▸ hsmall')
      rw [happend,if_neg hsmall,if_neg hlarge]
      exact ⟨s',_,rfl,h',rfl,mem_cons_self,(update_eq_self _ _).symm⟩

lemma follows_read (reads : List (ℕ × Field)) (h : s.Follows L kv g) (htouched : k ∈ g.touched) :
    ∃ s' g', PairRound.read L kv k s reads = (s',reads.map (fun q => (g.now k).series q.1 q.2)) ∧
      s'.Follows L kv g' ∧ g'.start = g.start ∧ k ∈ g'.touched ∧ g'.now = g.now := by
  induction reads generalizing s g with
  | nil => exact ⟨s,g,rfl,h,rfl,htouched,rfl⟩
  | cons q rest ih =>
    obtain ⟨n,field⟩ := q
    obtain ⟨s₁,hseries,h₁⟩ := h.series k n field
    obtain ⟨s₂,g₂,hread,h₂,hstart,htouched₂,hnow⟩ := ih h₁ mem_cons_self
    refine ⟨s₂,g₂,?_,h₂,hstart,htouched₂,hnow⟩
    rw [PairRound.read,hseries]
    dsimp only
    rw [hread]
    rfl

def onePair (k : HistKey) (p : PairHistory) : HistKey → PairHistory := update (fun _ => .none) k p

variable {p : PairHistory}
lemma depth_onePair {a : HistKey} (h : (onePair k p a).depth ≠ 0) : a = k := by
  by_contra hne
  rw [onePair,update_of_ne hne] at h
  exact h rfl

@[simp] lemma onePair_self (k : HistKey) (p : PairHistory) : onePair k p k = p := update_self _ _ _

/-- A round does to the stored keys what it does to the list, and answers what the list
answers. -/
lemma run_refines (hL : L.ReadsBack) (hk : k.OnWire) (h : Stored L kv (onePair k p)) (x : PairRound)
    (hr : ∀ r ∈ x.record, RecordInRange L.marshalDecimal r) :
    ∃ kv', x.run L k kv = .ok (kv',x.outcome L.marshalDecimal p) ∧
      Stored L kv' (onePair k (x.next L.marshalDecimal p)) := by
  obtain ⟨s₀,hnew,h₀⟩ := HistoryStore.follows_newHistoryStore h
  obtain ⟨s₁,hset,h₁⟩ := h₀.setRequired (k := k) not_mem_nil x.depth_le
  have hnow₁ : ((HistoryRound.begin (onePair k p)).setDepth k x.depth x.depth_le).now =
      onePair k (p.setDepth x.depth x.depth_le) := by
    simp [HistoryRound.setDepth,HistoryRound.set,HistoryRound.begin,onePair]
  obtain ⟨s₂,g₂,happend,h₂,hstart₂,htouched₂,hnow₂⟩ := follows_append h₁ not_mem_nil mem_cons_self hr
  obtain ⟨s₃,g₃,hread,h₃,hstart₃,htouched₃,hnow₃⟩ := follows_read x.reads h₂ htouched₂
  have hnow : g₃.now = onePair k (x.next L.marshalDecimal p) := by
    rw [hnow₃,hnow₂,hnow₁,onePair_self,onePair,update_idem]
    rfl
  have htouched : ∀ a, (g₃.start a).depth ≠ 0 → a ∈ g₃.touched := by
    intro a ha
    rw [hstart₃,hstart₂] at ha
    exact depth_onePair ha ▸ htouched₃
  have hone : ∀ a, (g₃.now a).depth ≠ 0 → a = k := fun a ha => depth_onePair (hnow ▸ ha)
  have hsize : [k].length ≤ maxHistoryPairs := Nat.le_of_ble_eq_true rfl
  obtain ⟨kv',hflush,hstored⟩ := h₃.flush hL htouched (fun a ha => hone a ha ▸ hk) hsize
    fun a ha => mem_singleton.2 (hone a ha)
  refine ⟨kv',?_,hnow ▸ hstored⟩
  rw [PairRound.run,hnew,Go.ok_bind,hset,Go.ok_bind,happend]
  dsimp only
  rw [hread]
  dsimp only
  rw [hflush,Go.ok_bind,h₃.corrupt,hnow₁,onePair_self,← hnow₃,hnow,onePair_self]
  rfl

def nextList (decimal : DecimalEncoder) (records : List StreamHistoryRecord) (x : PairRound) :
    List StreamHistoryRecord :=
  if x.depth = 0 then []
  else x.record.elim records (fun r => if FitsRecord decimal r ∧ IsNewer records r then records ++ [r] else records)

def historyAfter (decimal : DecimalEncoder) (rounds : List PairRound) : PairHistory :=
  rounds.foldl (PairRound.next decimal) .none

variable {decimal : DecimalEncoder}
variable {r : StreamHistoryRecord}
lemma accepts_iff_isNewer : p.Accepts r ↔ IsNewer p.records r := by
  rw [PairHistory.Accepts,PairHistory.last,IsNewer]
  cases hlast : p.records.getLast? with
  | none => simpa using .inl (getLast?_eq_none_iff.1 hlast)
  | some a =>
    have hne : p.records ≠ [] := ne_nil_of_mem (mem_of_getLast? hlast)
    simp [hne]

lemma offer_eq : p.offer decimal r = if FitsRecord decimal r ∧ IsNewer p.records r then p.push r else p := by
  rw [PairHistory.offer]
  by_cases hfits : FitsRecord decimal r
  · by_cases hnewer : IsNewer p.records r
    · rw [if_pos hfits,if_pos ⟨hfits,hnewer⟩]
    · rw [if_pos hfits,if_neg fun h => hnewer h.2,PairHistory.push,dif_neg fun h => hnewer (accepts_iff_isNewer.1 h.2)]
  · rw [if_neg hfits,if_neg fun h => hfits h.1]

variable {n : ℕ}
lemma push_eq (hdepth : p.depth ≠ 0) (hnewer : IsNewer p.records r)
    (hdropped : p.dropped = max n (redundantChunks p.records.length p.depth)) :
    (p.push r).records = p.records ++ [r] ∧
      (p.push r).dropped = max n (redundantChunks (p.records ++ [r]).length p.depth) := by
  have hmono : redundantChunks p.records.length p.depth ≤ redundantChunks (p.records.length + 1) p.depth :=
    Nat.div_le_div_right (Nat.sub_le_sub_right (Nat.le_succ _) _)
  rw [PairHistory.push,dif_pos ⟨hdepth,accepts_iff_isNewer.2 hnewer⟩]
  refine ⟨rfl,?_⟩
  dsimp only
  rw [hdropped,max_assoc,max_eq_right hmono,length_append,length_singleton]

variable {x : PairRound}
lemma next_eq (hx : x.depth ≠ 0) :
    (x.next decimal p).records = nextList decimal p.records x ∧
      (x.next decimal p).dropped = max p.dropped (redundantChunks (nextList decimal p.records x).length x.depth) := by
  obtain ⟨hrecords,hdepth,hdropped⟩ : (p.setDepth x.depth x.depth_le).records = p.records ∧
      (p.setDepth x.depth x.depth_le).depth = x.depth ∧
      (p.setDepth x.depth x.depth_le).dropped = max p.dropped (redundantChunks p.records.length x.depth) := by
    rw [PairHistory.setDepth,dif_neg hx]
    exact ⟨rfl,rfl,rfl⟩
  rw [nextList,if_neg hx,PairRound.next]
  cases x.record with
  | none => exact ⟨hrecords,hdropped⟩
  | some r =>
    rw [elim_some,elim_some,offer_eq,hrecords]
    split_ifs with hkeeps
    · have hpush := push_eq (r := r) (n := p.dropped) (hdepth.symm ▸ hx) (hrecords.symm ▸ hkeeps.2)
        (by rw [hdropped,hdepth,hrecords])
      rwa [hrecords,hdepth] at hpush
    · exact ⟨hrecords,hdropped⟩

lemma records_next (x : PairRound) : (x.next decimal p).records = nextList decimal p.records x := by
  by_cases hx : x.depth = 0
  · have hnone : (p.setDepth x.depth x.depth_le) = .none := by rw [PairHistory.setDepth,dif_pos hx]
    rw [PairRound.next,hnone,nextList,if_pos hx]
    cases x.record with
    | none => rfl
    | some r =>
      rw [elim_some,PairHistory.offer]
      split_ifs
      · rw [PairHistory.push,dif_neg fun h => h.1 rfl]
        rfl
      · rfl
  · exact (next_eq hx).1

lemma records_foldl (rounds : List PairRound) :
    (rounds.foldl (PairRound.next decimal) p).records = rounds.foldl (nextList decimal) p.records := by
  induction rounds generalizing p with
  | nil => rfl
  | cons x rest ih => rw [foldl_cons,foldl_cons,ih,records_next]

/-- A smaller depth gives the same answers within it. -/
lemma answer_next_of_depth_le {y : PairRound} (hrecord : x.record = y.record) (hpos : 0 < y.depth)
    (hle : y.depth ≤ x.depth) (hn : n ≤ y.depth) : (y.next decimal p).answer n = (x.next decimal p).answer n := by
  have hx : x.depth ≠ 0 := (hpos.trans_le hle).ne'
  obtain ⟨hrx,hdx⟩ := next_eq (p := p) hx
  obtain ⟨hry,hdy⟩ := next_eq (p := p) hpos.ne'
  have hlist : nextList decimal p.records y = nextList decimal p.records x := by
    rw [nextList,nextList,if_neg hx,if_neg hpos.ne',hrecord]
  rw [hlist] at hry hdy
  refine PairHistory.answer_congr (hry.trans hrx.symm) ?_
  rw [PairHistory.retained,PairHistory.retained,hrx,hry,hdx,hdy]
  simp only [redundantChunks,maxHistoryChunkRecords]
  omega

/-- Over any number of rounds the store answers what the list answers. -/
lemma runRounds_refines {L : HistoryLibs} (hL : L.ReadsBack) {k : HistKey} (hk : k.OnWire) {rounds : List PairRound}
    (hrounds : ∀ x ∈ rounds, ∀ r ∈ x.record, RecordInRange L.marshalDecimal r) {kv : HistoryKV} {p : PairHistory}
    (h : Stored L kv (onePair k p)) :
    ∃ kv', runRounds L k kv rounds = .ok (kv',listOutcomes L.marshalDecimal p rounds) ∧
      Stored L kv' (onePair k (rounds.foldl (PairRound.next L.marshalDecimal) p)) := by
  induction rounds generalizing kv p with
  | nil => exact ⟨kv,rfl,h⟩
  | cons x rest ih =>
    obtain ⟨kv₁,hrun,h₁⟩ := run_refines hL hk h x (hrounds x mem_cons_self)
    obtain ⟨kv₂,hrest,h₂⟩ := ih (fun y hy => hrounds y (mem_cons_of_mem _ hy)) h₁
    refine ⟨kv₂,?_,h₂⟩
    rw [runRounds,hrun,Go.ok_bind]
    dsimp only
    rw [hrest]
    rfl

lemma onePair_none (k : HistKey) : onePair k .none = fun _ => .none := update_eq_self _ _

/-- Stream history refines a list. In every round the series that are read are those of the
list, no stored state is found corrupt, and a smaller depth changes no series within it. -/
theorem history_refines_list {L : HistoryLibs} (hL : L.ReadsBack) {k : HistKey} (hk : k.OnWire) {rounds : List PairRound}
    (hrounds : ∀ x ∈ rounds, ∀ r ∈ x.record, RecordInRange L.marshalDecimal r) :
    ∃ kv, runRounds L k .empty rounds = .ok (kv,listOutcomes L.marshalDecimal .none rounds) ∧
      (pairStore L kv k).Represents (historyAfter L.marshalDecimal rounds) ∧
      (historyAfter L.marshalDecimal rounds).records = rounds.foldl (nextList L.marshalDecimal) [] ∧
      (∀ n field, (∀ r ∈ (historyAfter L.marshalDecimal rounds).records, ∃ d, projectStreamValue r.value field = .ok d) →
        ((∃ series, (historyAfter L.marshalDecimal rounds).series n field = .ok series) ↔
          n ≤ (historyAfter L.marshalDecimal rounds).retained)) ∧
      (∀ n field series, (historyAfter L.marshalDecimal rounds).series n field = .ok series →
        series.timestamps = ((historyAfter L.marshalDecimal rounds).newest n).map StreamHistoryRecord.observedAtNanoseconds ∧
        List.Forall₂ (fun r d => projectStreamValue r.value field = .ok d)
          ((historyAfter L.marshalDecimal rounds).newest n) series.values) ∧
      ∀ x y : PairRound, (∀ r ∈ x.record, RecordInRange L.marshalDecimal r) → x.record = y.record → x.reads = y.reads →
        0 < y.depth → y.depth ≤ x.depth → (∀ q ∈ y.reads, q.1 ≤ y.depth) →
        ∃ kvx kvy before after, x.run L k kv = .ok (kvx,before) ∧ y.run L k kv = .ok (kvy,after) ∧
          after.answers = before.answers := by
  obtain ⟨kv,hruns,hstored⟩ := runRounds_refines hL hk hrounds (onePair_none k ▸ stored_empty L)
  refine ⟨kv,hruns,?_,records_foldl rounds,fun _ _ => PairHistory.series_eq_ok_iff,?_,?_⟩
  · have hpair := hstored.pair k
    rwa [onePair_self] at hpair
  · intro n field series h
    exact PairHistory.series_eq_ok h
  · intro x y hx hrecord hreads hpos hle hwithin
    obtain ⟨kvx,hrunx,_⟩ := run_refines hL hk hstored x hx
    obtain ⟨kvy,hruny,_⟩ := run_refines hL hk hstored y (hrecord ▸ hx)
    refine ⟨kvx,kvy,_,_,hrunx,hruny,?_⟩
    simp only [PairRound.outcome,hreads]
    refine map_congr_left fun q hq => ?_
    rw [PairHistory.series,PairHistory.series,answer_next_of_depth_le hrecord hpos hle (hwithin q hq)]

def historyLibs : HistoryLibs where
  wire := { wireOf [] [] [] with
    unmarshalDecimal := readDecimal
    unmarshalQuote := readQuote
    unmarshalTimestamped := readTimestamped
    zstdContentSize := fun b => .ok (some b.length)
    zstdDecodeAll := fun b => .ok b }
  marshalDecimal := marshalDecimal
  zstd := id
  unmarshalHeader := readHistoryHeaderProto
  unmarshalChunk := readHistoryChunkProto

lemma readsBack_historyLibs : historyLibs.ReadsBack where
  values := readsValues_of_readers rfl rfl rfl
  zstd := ⟨fun _ _ _ => rfl,fun _ _ _ => rfl⟩
  header := readHistoryHeaderProto_marshal
  chunk := readHistoryChunkProto_marshal

def priceRecord (t : ℕ) (price : ℤ) : StreamHistoryRecord := ⟨t,.decimal ⟨price,0⟩⟩

/-- Two prices for a depth of two, then a depth of one. -/
def priceRounds : List PairRound :=
  [⟨2,some (priceRecord 5 100),[(1,.value)],by decide⟩,⟨2,some (priceRecord 7 101),[(2,.value)],by decide⟩,
    ⟨1,none,[(1,.value),(3,.value)],by decide⟩]

theorem history_refines_list_prices : historyLibs.ReadsBack ∧ HistKey.OnWire ⟨1,1⟩ ∧
    ∃ kv, runRounds historyLibs ⟨1,1⟩ .empty priceRounds = .ok (kv,listOutcomes marshalDecimal .none priceRounds) ∧
      (historyAfter marshalDecimal priceRounds).records = [priceRecord 5 100,priceRecord 7 101] := by
  have hsize : ∀ t price, ∃ size, historyRecordSize marshalDecimal (priceRecord t price) = .ok size := by
    intro t price
    rw [historyRecordSize,historyRecordToProto,streamValueToProto,priceRecord,StreamValue.marshalBinary,marshalDecimal,
      if_pos (show (-2 ^ 31 : ℤ) ≤ 0 ∧ (0 : ℤ) < 2 ^ 31 by decide)]
    exact ⟨_,rfl⟩
  have hrange : ∀ t price, t < 2 ^ 64 → RecordInRange marshalDecimal (priceRecord t price) := by
    intro t price ht
    refine ⟨ht,StreamValue.decodable_decimal.2 ?_,hsize t price⟩
    exact ⟨show -maxDecimalExponent ≤ 0 by decide,show 0 ≤ maxDecimalExponent by decide⟩
  have hrounds : ∀ x ∈ priceRounds, ∀ r ∈ x.record, RecordInRange marshalDecimal r := by
    intro x hx r hr
    simp only [priceRounds,mem_cons,not_mem_nil,or_false] at hx
    rcases hx with rfl | rfl | rfl
    · cases hr
      exact hrange _ _ (by decide)
    · cases hr
      exact hrange _ _ (by decide)
    · cases hr
  have hk : HistKey.OnWire ⟨1,1⟩ := ⟨by decide,by decide⟩
  obtain ⟨kv,hruns,_,hrecords,_⟩ := history_refines_list readsBack_historyLibs hk hrounds
  refine ⟨readsBack_historyLibs,hk,kv,hruns,hrecords.trans ?_⟩
  decide +kernel

end V31
end DataStreams
