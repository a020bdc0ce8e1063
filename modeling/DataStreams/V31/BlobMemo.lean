import DataStreams.Foundation.Trace
import DataStreams.V31.Observation

/-! The memo of decoded blobs, which concurrent calls share. A call decodes as it would without
it. -/
namespace DataStreams.V31
open List Go UInt8

/-- Bytes in the order of their numbers; it makes byte strings keys. -/
instance byteOrder : LinearOrder UInt8 :=
  { (inferInstance : LE UInt8), (inferInstance : LT UInt8) with
    le_refl := fun a => UInt8.le_refl a
    le_trans := fun _ _ _ => UInt8.le_trans
    lt_iff_le_not_ge := fun a b => by
      rw [lt_iff_toNat_lt,le_iff_toNat_le,le_iff_toNat_le]
      exact lt_iff_le_not_ge
    le_antisymm := fun _ _ => UInt8.le_antisymm
    le_total := UInt8.le_total
    toDecidableLE := inferInstance
    toDecidableLT := inferInstance
    toDecidableEq := inferInstance }

/-- The number of oracles the protocol allows. -/
def maxOracles : ℕ := 31

def maxMemoizedPayloadBytes : ℕ := 4 * maxObservationDecompressedBytes
def maxMemoizedPayloads : ℕ := maxOracles * maxObservationBlobHandles

/-- The entries of one sequence number; there is no map before the first round. -/
structure BlobPayloadCache where
  seqNr : ℕ
  bytes : ℕ
  entries : Option (SortedMap Bytes BlobPayloadEntry)

namespace BlobPayloadCache
def new : BlobPayloadCache := ⟨0,0,none⟩

/-- The memo for a sequence number. What was held for another one is dropped. -/
def round (c : BlobPayloadCache) (seqNr : ℕ) : BlobPayloadCache :=
  if c.seqNr ≠ seqNr ∨ c.entries = none then ⟨seqNr,0,some ∅⟩ else c

/-- A read through the handle of a round; a superseded handle misses. -/
def get (c : BlobPayloadCache) (seqNr : ℕ) (handle : Bytes) : Option BlobPayloadEntry :=
  if c.seqNr ≠ seqNr then none else c.entries.bind (fun m => m.get? handle)

/-- A write through the handle of a round. It is declined if the handle is superseded, or if
there would be too many entries or too many bytes. -/
def put (c : BlobPayloadCache) (seqNr : ℕ) (handle : Bytes) (entry : BlobPayloadEntry) : Go BlobPayloadCache :=
  if c.seqNr ≠ seqNr then .ok c
  else
    let prev := c.entries.bind (fun m => m.get? handle)
    if prev.isNone ∧ (c.entries.elim 0 SortedMap.size) ≥ maxMemoizedPayloads then .ok c
    else
      let bytes := c.bytes + entry.size - prev.elim 0 BlobPayloadEntry.size
      if bytes > maxMemoizedPayloadBytes then .ok c
      else
        match c.entries with
        | none => Go.panics "assignment to entry in nil map"
        | some m => .ok { c with entries := some (m.insert handle entry), bytes := bytes }

end BlobPayloadCache

def decodeBlob (W : WireLibs) (fetcher : BlobFetcher) (budget : ℕ) (handle : Bytes) : Go BlobPayloadEntry := do
  let payload ← Go.ofExcept (fetchBlob fetcher handle)
  let raw ← decodeFramedPayload W payload (min budget maxObservationDecompressedBytes) "blob payload"
  Go.ofExcept (decodeBlobEntry W raw)

def mergeEntry (acc : Observation × ℕ) (entry : BlobPayloadEntry) : Go (Observation × ℕ) :=
  if acc.1.cycleStartSeqNr ≠ 0 ∧ acc.1.cycleStartSeqNr ≠ entry.cycleStartSeqNr then
    Go.err "observation references blobs from different cycles"
  else
    .ok ({ acc.1 with
      cycleStartSeqNr := entry.cycleStartSeqNr
      streamValues := acc.1.streamValues.overlay entry.values },acc.2 - entry.size)

inductive Call
  /-- About to look up the next handle. -/
  | lookup (memo : Option ℕ) (handles : List Bytes) (acc : Observation × ℕ)
  /-- About to store what the first handle decoded to. -/
  | store (memo : Option ℕ) (handle : Bytes) (handles : List Bytes) (acc : Observation × ℕ)
      (entry : BlobPayloadEntry)
  | done (result : Go Observation)

namespace Call
def merged (memo : Option ℕ) (handles : List Bytes) (acc : Observation × ℕ) (entry : BlobPayloadEntry) : Call :=
  match mergeEntry acc entry with
  | .error e => .done (.error e)
  | .ok acc => .lookup memo handles acc

def start (W : WireLibs) (memo : Option ℕ) (raw : Bytes) : Call :=
  if raw.length = 0 then .done (.ok .empty)
  else
    match (do
      let (handles,main) ← decodeFrame W raw
      let message ← Go.ofExcept (W.unmarshalObservation main)
      let obs ← Go.ofExcept (observationFromProto message)
      .ok (handles,obs) : Go (List Bytes × Observation)) with
    | .error e => .done (.error e)
    | .ok (handles,obs) => .lookup memo handles (obs,maxObservationDecompressedBytes)

def step (W : WireLibs) (fetcher : BlobFetcher) (c : BlobPayloadCache) : Call → BlobPayloadCache × Call
  | .lookup _ [] acc => (c,.done (.ok acc.1))
  | .lookup memo (handle :: handles) acc =>
    match memo.bind (fun seqNr => c.get seqNr handle) with
    | some entry =>
      if entry.size > acc.2 then
        (c,.done (Go.err s!"decompressed blob payload too large: {entry.size} > {acc.2} bytes"))
      else (c,merged memo handles acc entry)
    | none =>
      match decodeBlob W fetcher acc.2 handle with
      | .error e => (c,.done (.error e))
      | .ok entry => (c,.store memo handle handles acc entry)
  | .store memo handle handles acc entry =>
    match memo.elim (.ok c) (fun seqNr => c.put seqNr handle entry) with
    | .error e => (c,.done (.error e))
    | .ok c => (c,merged memo handles acc entry)
  | .done r => (c,.done r)

def result? : Call → Option (Go Observation)
  | .done r => some r
  | _ => none

/-- The uses of the memo a call can still make, and its return. -/
def remaining : Call → ℕ
  | .lookup _ handles _ => 2 * handles.length + 1
  | .store _ _ handles _ _ => 2 * handles.length + 2
  | .done _ => 0

end Call

/-- The memo of a plugin and the calls made so far, with their observations. -/
structure Decoding where
  cache : BlobPayloadCache
  calls : List (Bytes × Call)

inductive DecodingAction
  /-- A call starts; one with a sequence number asks the memo for its round. -/
  | start (memo : Option ℕ) (raw : Bytes)
  /-- The call at this index goes on to its next use of the memo. -/
  | step (call : ℕ)

def Decoding.act (W : WireLibs) (fetcher : BlobFetcher) (s : Decoding) : DecodingAction → Decoding
  | .start memo raw =>
    ⟨memo.elim s.cache s.cache.round,s.calls ++ [(raw,Call.start W memo raw)]⟩
  | .step i =>
    match s.calls[i]? with
    | none => s
    | some (raw,call) =>
      let (cache,call) := call.step W fetcher s.cache
      ⟨cache,s.calls.set i (raw,call)⟩

/-- Any schedule of calls from an unused memo. -/
def Decoding.run (W : WireLibs) (fetcher : BlobFetcher) (actions : List DecodingAction) : Decoding :=
  actions.foldl (Decoding.act W fetcher) ⟨.new,[]⟩

/-- What is known of the libraries: a frame that decodes has its declared content size, and the
empty message has no cycle start. -/
structure PayloadLaws (W : WireLibs) : Prop where
  size : ∀ body n out, W.zstdContentSize body = .ok (some n) → W.zstdDecodeAll body = .ok out → out.length = n
  empty : ∀ chunk, W.unmarshalBlobPayload [] = .ok chunk → chunk.cycleStartSeqNr = 0

section Budgets
variable {W : WireLibs} {fetcher : BlobFetcher} {payload raw body handle : Bytes} {budget budget' : ℕ} {what : String}
  {entry : BlobPayloadEntry}

/-- The payload frames these bytes, as they are or compressed. -/
def Frames (W : WireLibs) (raw : Bytes) : Bytes → Prop
  | [] => False
  | codec :: body => codec = 0 ∧ body = raw ∨
    codec = 1 ∧ W.zstdContentSize body = .ok (some raw.length) ∧ W.zstdDecodeAll body = .ok raw

/-- How a payload that does not fit a budget is refused. -/
def overBudget (what : String) (size budget : ℕ) : List String :=
  [s!"{what} budget exhausted",s!"{what} too large: {size} > {budget} bytes",
    s!"declared decompressed {what} too large: {size} > {budget} bytes"]

lemma decodeFramedPayload_cons {codec : UInt8} (hpos : 0 < budget) :
    decodeFramedPayload W (codec :: body) budget what =
      match codec with
      | 0 => if body.length > budget then Go.err s!"{what} too large: {body.length} > {budget} bytes" else .ok body
      | 1 => Go.ofExcept (decodeZstd W body budget what)
      | c => Go.err s!"unknown {what} codec {c.toNat}" := by
  rw [decodeFramedPayload,if_neg (by simp),if_neg hpos.ne']
  rfl

lemma Frames.refused (h : Frames W raw payload) (hlt : budget < raw.length) :
    ∃ e ∈ overBudget what raw.length budget, decodeFramedPayload W payload budget what = Go.err e := by
  cases payload with
  | nil => exact h.elim
  | cons codec body =>
    rcases Nat.eq_zero_or_pos budget with rfl | hpos
    · exact ⟨_,mem_cons_self,rfl⟩
    rw [decodeFramedPayload_cons hpos]
    rcases h with ⟨rfl,rfl⟩ | ⟨rfl,hsize,-⟩
    · exact ⟨_,by simp [overBudget],if_pos hlt⟩
    · have hover : decodeZstd W body budget what = .error s!"declared decompressed {what} too large: {raw.length} > {budget} bytes" := by
        rw [decodeZstd,hsize,ok_bind]
        exact if_pos hlt
      exact ⟨_,by simp [overBudget],congrArg Go.ofExcept hover⟩

variable (hW : PayloadLaws W)
include hW

lemma decodeZstd_eq_ok : decodeZstd W body budget what = .ok raw ↔
    W.zstdContentSize body = .ok (some raw.length) ∧ W.zstdDecodeAll body = .ok raw ∧ raw.length ≤ budget := by
  constructor
  · intro h
    obtain ⟨size,hsize,h⟩ := bind_ok_iff.1 h
    cases size with
    | none => cases h
    | some n =>
      dsimp only at h
      split_ifs at h with hn
      obtain ⟨out,hout,h⟩ := bind_ok_iff.1 h
      split_ifs at h with hlen
      cases h
      rw [hW.size body n raw hsize hout]
      exact ⟨hsize,hout,not_lt.1 hn⟩
  · rintro ⟨hsize,hout,hle⟩
    rw [decodeZstd,hsize,ok_bind]
    dsimp only
    rw [if_neg (not_lt.2 hle),hout,ok_bind,if_neg (not_lt.2 hle)]

lemma decodeFramedPayload_eq_ok : decodeFramedPayload W payload budget what = .ok raw ↔
    Frames W raw payload ∧ 0 < budget ∧ raw.length ≤ budget := by
  cases payload with
  | nil => exact iff_of_false (err_ne_ok _ _) fun h => h.1
  | cons codec body =>
    rcases Nat.eq_zero_or_pos budget with rfl | hpos
    · exact iff_of_false (err_ne_ok _ _) fun h => Nat.lt_irrefl 0 h.2.1
    rw [decodeFramedPayload_cons hpos,Frames]
    split
    · rw [or_iff_left (fun h => absurd h.1 (by decide)),and_iff_right rfl]
      split_ifs with hlong
      · refine iff_of_false (err_ne_ok _ _) ?_
        rintro ⟨rfl,-,hle⟩
        exact hle.not_gt hlong
      · constructor
        · rintro ⟨⟩
          exact ⟨rfl,hpos,not_lt.1 hlong⟩
        · rintro ⟨rfl,-⟩
          rfl
    · rw [or_iff_right (fun h => absurd h.1 (by decide)),ofExcept_eq_ok,decodeZstd_eq_ok hW]
      simp [hpos,and_assoc]
    · next hraw hzstd =>
      exact iff_of_false (err_ne_ok _ _) fun h => h.1.elim (fun h => hraw h.1) fun h => hzstd h.1

lemma decodeBlobEntry_size (h : decodeBlobEntry W raw = .ok entry) :
    entry.size = raw.length ∧ 1 ≤ raw.length := by
  obtain ⟨chunk,hchunk,h⟩ := bind_ok_iff.1 h
  split_ifs at h with hcycle
  obtain ⟨values,_,h⟩ := bind_ok_iff.1 h
  cases h
  refine ⟨rfl,length_pos_iff.2 ?_⟩
  rintro rfl
  exact hcycle (hW.empty chunk hchunk)

lemma decodeBlob_rebudget (h : decodeBlob W fetcher budget handle = .ok entry) :
    (entry.size ≤ budget' → decodeBlob W fetcher budget' handle = .ok entry) ∧ (budget' < entry.size →
      ∃ e ∈ overBudget "blob payload" entry.size (min budget' maxObservationDecompressedBytes),
        decodeBlob W fetcher budget' handle = Go.err e) := by
  obtain ⟨payload,hpayload,h⟩ := bind_ok_iff.1 h
  obtain ⟨raw,hraw,h⟩ := bind_ok_iff.1 h
  obtain ⟨hsize,hpos⟩ := decodeBlobEntry_size hW (ofExcept_eq_ok.1 h)
  obtain ⟨hframes,-,hle⟩ := (decodeFramedPayload_eq_ok hW).1 hraw
  rw [hsize,decodeBlob,hpayload,ok_bind]
  constructor
  · intro hbudget
    rw [(decodeFramedPayload_eq_ok hW).2 ⟨hframes,by omega,by omega⟩,ok_bind,h]
  · intro hbudget
    obtain ⟨e,hmem,he⟩ := hframes.refused (show min budget' maxObservationDecompressedBytes < raw.length by omega)
    rw [he]
    exact ⟨e,hmem,rfl⟩

end Budgets

lemma mergeBlob_eq (W : WireLibs) (fetcher : BlobFetcher) (acc : Observation × ℕ) (handle : Bytes) :
    mergeBlob W fetcher acc handle = decodeBlob W fetcher acc.2 handle >>= mergeEntry acc := by
  rw [decodeBlob,bind_assoc]
  simp only [bind_assoc]
  rfl

namespace BlobPayloadCache
def total (c : BlobPayloadCache) : ℕ := c.entries.elim 0 (fun m => (m.entries.map (fun e => e.2.size)).sum)

/-- The byte counter is exact and within its limit, and every entry is what its handle decodes
to within some budget. -/
structure Sound (W : WireLibs) (fetcher : BlobFetcher) (c : BlobPayloadCache) : Prop where
  bytes_eq : c.bytes = c.total
  bytes_le : c.bytes ≤ maxMemoizedPayloadBytes
  decodes : ∀ m, c.entries = some m → ∀ handle entry, m.get? handle = some entry →
    ∃ budget, decodeBlob W fetcher budget handle = .ok entry

variable {W : WireLibs} {fetcher : BlobFetcher} {c c' : BlobPayloadCache} {seqNr : ℕ} {handle : Bytes}
  {entry : BlobPayloadEntry}

lemma sound_new : Sound W fetcher new where
  bytes_eq := rfl
  bytes_le := Nat.zero_le _
  decodes := by
    intro m hm
    cases hm

lemma Sound.round (h : c.Sound W fetcher) (seqNr : ℕ) : (c.round seqNr).Sound W fetcher := by
  rw [BlobPayloadCache.round]
  split_ifs
  · refine ⟨rfl,Nat.zero_le _,?_⟩
    rintro _ ⟨⟩ handle entry hget
    rw [SortedMap.get?_emptyCollection] at hget
    cases hget
  · exact h

lemma Sound.get (h : c.Sound W fetcher) (hget : c.get seqNr handle = some entry) :
    ∃ budget, decodeBlob W fetcher budget handle = .ok entry := by
  rw [BlobPayloadCache.get] at hget
  split_ifs at hget
  obtain ⟨m,hm,hentry⟩ := Option.bind_eq_some_iff.1 hget
  exact h.decodes m hm handle entry hentry

lemma put_cases (h : c.put seqNr handle entry = .ok c') : c' = c ∨ ∃ m, c.entries = some m ∧
    c' = ⟨c.seqNr,c.bytes + entry.size - (m.get? handle).elim 0 BlobPayloadEntry.size,some (m.insert handle entry)⟩ ∧
    c'.bytes ≤ maxMemoizedPayloadBytes := by
  rw [put] at h
  dsimp only at h
  split_ifs at h with hseq hfull hbytes
  · cases h
    exact .inl rfl
  · cases h
    exact .inl rfl
  · cases h
    exact .inl rfl
  · cases hm : c.entries with
    | none =>
      rw [hm] at h
      exact absurd h (panics_ne_ok _ _)
    | some m =>
      rw [hm] at h hbytes
      cases h
      exact .inr ⟨m,rfl,rfl,not_lt.1 hbytes⟩

/-- A memo of decoded payloads stays one. -/
lemma Sound.put (h : c.Sound W fetcher) {budget : ℕ} (hentry : decodeBlob W fetcher budget handle = .ok entry)
    (hput : c.put seqNr handle entry = .ok c') : c'.Sound W fetcher := by
  rcases put_cases hput with rfl | ⟨m,hm,rfl,hle⟩
  · exact h
  · have hsum := m.sum_map_insert handle entry (fun e => e.2.size)
    have hbytes : c.bytes = (m.entries.map (fun e => e.2.size)).sum := by
      rw [h.bytes_eq,total,hm]
      rfl
    constructor
    · change c.bytes + entry.size - _ = ((m.insert handle entry).entries.map (fun e => e.2.size)).sum
      rw [hbytes]
      cases hget : m.get? handle with
      | none =>
        rw [hget] at hsum
        simp only [Option.elim_none] at hsum ⊢
        omega
      | some prev =>
        rw [hget] at hsum
        simp only [Option.elim_some] at hsum ⊢
        omega
    · exact hle
    · rintro _ ⟨⟩ a e hget
      rw [SortedMap.get?_insert] at hget
      split_ifs at hget with ha
      · cases hget
        exact ⟨budget,ha ▸ hentry⟩
      · exact h.decodes m hm a e hget

lemma put_returns (h : c.entries.isSome) : ∃ c', c.put seqNr handle entry = .ok c' ∧ c'.entries.isSome := by
  obtain ⟨m,hm⟩ := Option.isSome_iff_exists.1 h
  rw [put]
  dsimp only
  split_ifs
  · exact ⟨c,rfl,h⟩
  · exact ⟨c,rfl,h⟩
  · exact ⟨c,rfl,h⟩
  · rw [hm]
    exact ⟨_,rfl,rfl⟩

lemma round_isSome (c : BlobPayloadCache) (seqNr : ℕ) : (c.round seqNr).entries.isSome := by
  rw [BlobPayloadCache.round]
  split_ifs with h
  · rfl
  · exact Option.isSome_iff_ne_none.2 (not_or.1 h).2

end BlobPayloadCache

/-- The same result, except that a hit which is too large for the budget is refused in
words of its own. -/
def SameOutcome {α : Type} (a b : Go α) : Prop :=
  a = b ∨ ∃ size budget, ∃ e ∈ overBudget "blob payload" size (min budget maxObservationDecompressedBytes),
    a = Go.err s!"decompressed blob payload too large: {size} > {budget} bytes" ∧ b = Go.err e

namespace Call
variable {W : WireLibs} {fetcher : BlobFetcher} {c : BlobPayloadCache} {raw : Bytes} {memo : Option ℕ}
  {handles : List Bytes} {acc : Observation × ℕ} {entry : BlobPayloadEntry} {call : Call}

/-- What decoding without a memo has still to do. -/
def rest (W : WireLibs) (fetcher : BlobFetcher) (handles : List Bytes) (acc : Observation × ℕ) : Go Observation := do
  let (obs,_) ← handles.foldlM (mergeBlob W fetcher) acc
  .ok obs

def Agrees (W : WireLibs) (fetcher : BlobFetcher) (raw : Bytes) : Call → Prop
  | .lookup _ handles acc => fetchBlobsAndDecodeObservation W fetcher raw = rest W fetcher handles acc
  | .store _ handle handles acc entry => decodeBlob W fetcher acc.2 handle = .ok entry ∧
    fetchBlobsAndDecodeObservation W fetcher raw = mergeEntry acc entry >>= rest W fetcher handles
  | .done r => SameOutcome r (fetchBlobsAndDecodeObservation W fetcher raw)

def usesMemo : Call → Bool
  | .lookup memo _ _ => memo.isSome
  | .store memo _ _ _ _ => memo.isSome
  | .done _ => false

lemma rest_cons (handle : Bytes) (handles : List Bytes) (acc : Observation × ℕ) :
    rest W fetcher (handle :: handles) acc =
      decodeBlob W fetcher acc.2 handle >>= fun entry => mergeEntry acc entry >>= rest W fetcher handles := by
  rw [rest,foldlM_cons,mergeBlob_eq,bind_assoc,bind_assoc]
  rfl

lemma start_agrees (W : WireLibs) (fetcher : BlobFetcher) (memo : Option ℕ) (raw : Bytes) :
    (start W memo raw).Agrees W fetcher raw := by
  have hraw : fetchBlobsAndDecodeObservation W fetcher raw = if raw.length = 0 then .ok .empty
      else (do
        let (handles,main) ← decodeFrame W raw
        let message ← Go.ofExcept (W.unmarshalObservation main)
        let obs ← Go.ofExcept (observationFromProto message)
        .ok (handles,obs) : Go (List Bytes × Observation)) >>=
          fun r => rest W fetcher r.1 (r.2,maxObservationDecompressedBytes) := by
    rw [fetchBlobsAndDecodeObservation]
    simp only [bind_assoc]
    rfl
  rw [start]
  split_ifs with hempty
  · refine .inl ?_
    rw [hraw,if_pos hempty]
  · rw [if_neg hempty] at hraw
    split
    · next e he =>
      refine .inl ?_
      rw [hraw,he]
      rfl
    · next handles obs hok =>
      change fetchBlobsAndDecodeObservation W fetcher raw = _
      rw [hraw,hok]
      rfl

lemma merged_agrees (h : fetchBlobsAndDecodeObservation W fetcher raw = mergeEntry acc entry >>= rest W fetcher handles) :
    (merged memo handles acc entry).Agrees W fetcher raw := by
  rw [merged]
  cases hm : mergeEntry acc entry with
  | error e =>
    refine .inl ?_
    rw [h,hm]
    rfl
  | ok acc' =>
    change fetchBlobsAndDecodeObservation W fetcher raw = _
    rw [h,hm]
    rfl

/-- A step with a memo does what one without it would. -/
lemma step_agrees (hW : PayloadLaws W) (hc : c.Sound W fetcher) (hmap : call.usesMemo = true → c.entries.isSome)
    (h : call.Agrees W fetcher raw) :
    (call.step W fetcher c).1.Sound W fetcher ∧ (call.step W fetcher c).2.Agrees W fetcher raw ∧
      (c.entries.isSome → (call.step W fetcher c).1.entries.isSome) := by
  rcases call with ⟨memo,handles,acc⟩ | ⟨memo,handle,handles,acc,entry⟩ | r
  · cases handles with
    | nil => exact ⟨hc,.inl h.symm,id⟩
    | cons handle handles =>
      change fetchBlobsAndDecodeObservation W fetcher raw = _ at h
      rw [rest_cons] at h
      rw [step]
      split
      · next entry hentry =>
        obtain ⟨seqNr,_,hget⟩ := Option.bind_eq_some_iff.1 hentry
        obtain ⟨budget,hbudget⟩ := hc.get hget
        obtain ⟨hfits,hover⟩ := @decodeBlob_rebudget _ _ _ _ acc.2 _ hW hbudget
        split_ifs with hlarge
        · obtain ⟨e,hmem,he⟩ := hover hlarge
          refine ⟨hc,.inr ⟨_,_,e,hmem,rfl,?_⟩,id⟩
          rw [h,he]
          rfl
        · rw [hfits (not_lt.1 hlarge)] at h
          exact ⟨hc,merged_agrees h,id⟩
      · split
        · next e he =>
          refine ⟨hc,.inl ?_,id⟩
          rw [h,he]
          rfl
        · next entry hentry =>
          refine ⟨hc,⟨hentry,?_⟩,id⟩
          rw [h,hentry]
          rfl
  · obtain ⟨hentry,h⟩ := h
    rw [step]
    cases memo with
    | none => exact ⟨hc,merged_agrees h,id⟩
    | some seqNr =>
      obtain ⟨c',hput,hsome⟩ := @BlobPayloadCache.put_returns c seqNr handle entry (hmap rfl)
      simp only [Option.elim_some,hput]
      exact ⟨hc.put hentry hput,merged_agrees h,fun _ => hsome⟩
  · exact ⟨hc,h,id⟩

lemma usesMemo_merged (h : (merged memo handles acc entry).usesMemo = true) : memo.isSome := by
  rw [merged] at h
  split at h
  · cases h
  · exact h

lemma usesMemo_step (h : (call.step W fetcher c).2.usesMemo = true) : call.usesMemo = true := by
  rcases call with ⟨memo,handles,acc⟩ | ⟨memo,handle,handles,acc,entry⟩ | r
  · cases handles with
    | nil => cases h
    | cons handle handles =>
      rw [step] at h
      split at h
      · split_ifs at h
        · cases h
        · exact usesMemo_merged h
      · split at h
        · cases h
        · exact h
  · rw [step] at h
    split at h
    · cases h
    · exact usesMemo_merged h
  · cases h

lemma result?_eq_some {r : Go Observation} (h : call.result? = some r) : call = .done r := by
  cases call with
  | lookup _ _ _ => cases h
  | store _ _ _ _ _ => cases h
  | done r' =>
    cases h
    rfl

lemma remaining_pos (h : call.result? = none) : 0 < call.remaining := by
  cases call with
  | lookup _ _ _ => exact Nat.succ_pos _
  | store _ _ _ _ _ => exact Nat.succ_pos _
  | done _ => cases h

lemma remaining_merged_le : (merged memo handles acc entry).remaining ≤ 2 * handles.length + 1 := by
  rw [merged]
  split
  · exact Nat.zero_le _
  · exact Nat.le_refl _

lemma remaining_step (h : 0 < call.remaining) : (call.step W fetcher c).2.remaining < call.remaining := by
  rcases call with ⟨memo,handles,acc⟩ | ⟨memo,handle,handles,acc,entry⟩ | r
  · cases handles with
    | nil => exact h
    | cons handle handles =>
      have hlength : (lookup memo (handle :: handles) acc).remaining = 2 * handles.length + 3 := by
        rw [remaining,length_cons]
        omega
      rw [step,hlength]
      split
      · next entry _ =>
        have hmerged := @remaining_merged_le memo handles acc entry
        split_ifs
        · change 0 < _
          omega
        · dsimp only
          omega
      · split
        · change 0 < _
          omega
        · change 2 * handles.length + 2 < _
          omega
  · have hmerged := @remaining_merged_le memo handles acc entry
    change _ < 2 * handles.length + 2
    rw [step]
    split
    · change 0 < _
      omega
    · dsimp only
      omega
  · exact absurd h (Nat.lt_irrefl 0)

end Call

/-- What every schedule keeps. -/
structure Decoding.Transparent (W : WireLibs) (fetcher : BlobFetcher) (s : Decoding) : Prop where
  sound : s.cache.Sound W fetcher
  agrees : ∀ p ∈ s.calls, p.2.Agrees W fetcher p.1
  map : ∀ p ∈ s.calls, p.2.usesMemo = true → s.cache.entries.isSome

namespace Decoding
variable {W : WireLibs} {fetcher : BlobFetcher} {s : Decoding}
lemma usesMemo_start {memo : Option ℕ} {raw : Bytes} (h : (Call.start W memo raw).usesMemo = true) : memo.isSome := by
  rw [Call.start] at h
  split_ifs at h
  · cases h
  · split at h
    · cases h
    · exact h

/-- No interleaving of calls tells the memo from decoding every time. -/
lemma Transparent.act (hW : PayloadLaws W) (h : s.Transparent W fetcher) (a : DecodingAction) :
    (s.act W fetcher a).Transparent W fetcher := by
  cases a with
  | start memo raw =>
    have hcache : (memo.elim s.cache s.cache.round).Sound W fetcher := by
      cases memo with
      | none => exact h.sound
      | some seqNr => exact h.sound.round seqNr
    have hkept : s.cache.entries.isSome → (memo.elim s.cache s.cache.round).entries.isSome := by
      cases memo with
      | none => exact id
      | some seqNr => exact fun _ => s.cache.round_isSome seqNr
    refine ⟨hcache,?_,?_⟩
    · intro p hp
      rcases mem_append.1 hp with hp | hp
      · exact h.agrees p hp
      · rw [mem_singleton.1 hp]
        exact Call.start_agrees W fetcher memo raw
    · intro p hp huses
      rcases mem_append.1 hp with hp | hp
      · exact hkept (h.map p hp huses)
      · rw [mem_singleton.1 hp] at huses
        obtain ⟨seqNr,rfl⟩ := Option.isSome_iff_exists.1 (usesMemo_start huses)
        exact s.cache.round_isSome seqNr
  | step i =>
    rw [Decoding.act]
    cases hi : s.calls[i]? with
    | none => exact h
    | some p =>
      have hmem := mem_of_getElem? hi
      obtain ⟨hsound,hagrees,hkept⟩ := Call.step_agrees hW h.sound (h.map p hmem) (h.agrees p hmem)
      refine ⟨hsound,?_,?_⟩
      · intro q hq
        rcases mem_or_eq_of_mem_set hq with hq | rfl
        · exact h.agrees q hq
        · exact hagrees
      · intro q hq huses
        rcases mem_or_eq_of_mem_set hq with hq | rfl
        · exact hkept (h.map q hq huses)
        · exact hkept (h.map p hmem (Call.usesMemo_step huses))

lemma transparent_run (hW : PayloadLaws W) (actions : List DecodingAction) :
    (run W fetcher actions).Transparent W fetcher := by
  induction actions using List.reverseRecOn with
  | nil =>
    exact ⟨BlobPayloadCache.sound_new,fun _ hp => absurd hp not_mem_nil,fun _ hp => absurd hp not_mem_nil⟩
  | append_singleton actions a ih =>
    rw [run,foldl_append]
    exact ih.act hW a

end Decoding

variable {W : WireLibs} {r : List Bytes × Bytes}
lemma length_decodeHandles {count : ℕ} {bytes : Bytes}
    (h : decodeHandles W count bytes = .ok r) : r.1.length = count := by
  induction count generalizing bytes r with
  | zero =>
    cases h
    rfl
  | succ count ih =>
    rw [decodeHandles] at h
    split at h
    · exact absurd h (err_ne_ok _ _)
    obtain ⟨_,_,h⟩ := bind_ok_iff.1 h
    split_ifs at h
    · exact absurd h (err_ne_ok _ _)
    obtain ⟨_,_,h⟩ := bind_ok_iff.1 h
    obtain ⟨_,_,h⟩ := bind_ok_iff.1 h
    obtain ⟨_,_,h⟩ := bind_ok_iff.1 h
    obtain ⟨q,hq,h⟩ := bind_ok_iff.1 h
    cases h
    rw [length_cons,ih hq]

lemma length_decodeFrame_le {raw : Bytes} (h : decodeFrame W raw = .ok r) :
    r.1.length ≤ maxObservationBlobHandles := by
  obtain ⟨_,_,h⟩ := bind_ok_iff.1 h
  split_ifs at h
  · exact absurd h (err_ne_ok _ _)
  obtain ⟨_,_,h⟩ := bind_ok_iff.1 h
  split at h
  · exact absurd h (err_ne_ok _ _)
  split_ifs at h with hcount
  · exact absurd h (err_ne_ok _ _)
  obtain ⟨_,_,h⟩ := bind_ok_iff.1 h
  rw [length_decodeHandles h]
  exact not_lt.1 hcount

lemma remaining_start_le (W : WireLibs) (memo : Option ℕ) (raw : Bytes) :
    (Call.start W memo raw).remaining ≤ 2 * maxObservationBlobHandles + 1 := by
  rw [Call.start]
  split_ifs
  · exact Nat.zero_le _
  · split
    · exact Nat.zero_le _
    · next handles obs hok =>
      obtain ⟨r,hframe,hok⟩ := bind_ok_iff.1 hok
      obtain ⟨_,_,hok⟩ := bind_ok_iff.1 hok
      obtain ⟨_,_,hok⟩ := bind_ok_iff.1 hok
      cases hok
      have hle := length_decodeFrame_le hframe
      change 2 * r.1.length + 1 ≤ _
      omega

/-- Under every schedule of calls: what a call returns is what decoding its observation without a
memo returns, the byte counter is the sum of the entries' sizes and within its limit, and a call
returns after at most nine steps of its own. -/
theorem memo_transparent {W : WireLibs} (hW : PayloadLaws W) (fetch : Bytes → Bytes) (actions : List DecodingAction) :
    let fetcher : BlobFetcher := some (fun handle => .ok (fetch handle))
    let s := Decoding.run W fetcher actions
    (∀ p ∈ s.calls, ∀ r, p.2.result? = some r → SameOutcome r (fetchBlobsAndDecodeObservation W fetcher p.1)) ∧
      s.cache.bytes = s.cache.total ∧ s.cache.bytes ≤ maxMemoizedPayloadBytes ∧
      (∀ memo raw, (Call.start W memo raw).remaining ≤ 2 * maxObservationBlobHandles + 1) ∧
      ∀ (c : BlobPayloadCache) (call : Call), call.result? = none →
        (call.step W fetcher c).2.remaining < call.remaining := by
  intro fetcher s
  have h : s.Transparent W fetcher := Decoding.transparent_run hW actions
  refine ⟨?_,h.sound.bytes_eq,h.sound.bytes_le,remaining_start_le W,?_⟩
  · intro p hp r hr
    have hagrees := h.agrees p hp
    rw [Call.result?_eq_some hr] at hagrees
    exact hagrees
  · exact fun c call hnone => Call.remaining_step (Call.remaining_pos hnone)

/-- A round in which every observation only carries its timestamp and names blobs of one
value-less stream. -/
def memoWire : WireLibs := wireOf [timestampMessage 10 []] [⟨3,.ofList [(1,none)]⟩] []

lemma memoWire_laws : PayloadLaws memoWire where
  size := by
    intro _ _ _ hsize
    cases hsize
  empty := by
    intro chunk hchunk
    have hrejected : (memoWire.unmarshalBlobPayload []).isOk = false := by decide +kernel
    rw [hchunk] at hrejected
    cases hrejected

def memoFetch : Bytes → Bytes := fun _ => 0 :: marshalBlobPayload ⟨3,.ofList [(1,none)]⟩

def twiceNamed : Bytes := frameObservation [[1],[1]] (marshalObservation (timestampMessage 10 []))

/-- Two calls of round 5, and one of round 6 that drops their entries half-way. -/
def memoSchedule : List DecodingAction :=
  [.start (some 5) twiceNamed,.step 0,.step 0,.start (some 5) twiceNamed,.step 1,.step 0,.start (some 6) twiceNamed,
    .step 1,.step 1,.step 0,.step 1]

def memoRun : Decoding := Decoding.run memoWire (some (fun handle => .ok (memoFetch handle))) memoSchedule

theorem memo_transparent_twiceNamed :
    memoRun.calls.map (fun p => p.2.result?.map Except.isOk) = [some true,some true,none] ∧
      ∀ p ∈ memoRun.calls, ∀ r, p.2.result? = some r →
        SameOutcome r (fetchBlobsAndDecodeObservation memoWire (some (fun handle => .ok (memoFetch handle))) p.1) :=
  ⟨by decide +kernel,(memo_transparent memoWire_laws memoFetch memoSchedule).1⟩

end DataStreams.V31
