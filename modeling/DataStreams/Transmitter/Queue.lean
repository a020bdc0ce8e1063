import DataStreams.Protocol.ChannelVotes

/-! A report on its way to a server is a row of a table and an element of the server's queue. -/
namespace DataStreams.Transmitter
open List

abbrev ServerURL := Bytes

structure Transmission where
  serverURL : ServerURL
  configDigest : Bytes
  seqNr : ℕ
  report : Bytes
  lifeCycleStage : Bytes
  reportFormat : ReportFormat
  sigs : List AttributedOnchainSignature
  deriving DecidableEq

namespace Transmission
/-- What the hash is taken of: the fields one after the other. -/
def hashed (t : Transmission) : Bytes :=
  t.serverURL ++ t.configDigest ++ beU64 t.seqNr ++ t.report ++ t.lifeCycleStage ++ beU32 t.reportFormat.code ++
    t.sigs.flatMap (fun sig => sig.signature ++ [UInt8.ofNat sig.signer])

def hash (sha256 : Bytes → ℕ) (t : Transmission) : ℕ := sha256 t.hashed

def columns (t : Transmission) :
    ServerURL × Bytes × ℕ × Bytes × Bytes × ℕ × List AttributedOnchainSignature :=
  (t.serverURL,t.configDigest,t.seqNr,t.report,t.lifeCycleStage,t.reportFormat.code,t.sigs)

def stages : List Bytes := [ascii "staging",ascii "production",ascii "retired"]

/-- A transmission of the plugin: the widths of the Go types, one of the three stages, and
signatures of 65 bytes. -/
structure OnWire (t : Transmission) : Prop where
  configDigest : t.configDigest.length = 32
  seqNr : t.seqNr < 2 ^ 64
  lifeCycleStage : t.lifeCycleStage ∈ stages
  reportFormat : t.reportFormat.code < 2 ^ 32
  sigs : ∀ sig ∈ t.sigs, sig.signature.length = 65 ∧ sig.signer < 256

lemma length_sigs {s : List AttributedOnchainSignature} (hs : ∀ sig ∈ s, sig.signature.length = 65 ∧ sig.signer < 256) :
    (s.flatMap (fun sig => sig.signature ++ [UInt8.ofNat sig.signer])).length = s.length * 66 := by
  have hwidth : ∀ sig ∈ s, (sig.signature ++ [UInt8.ofNat sig.signer]).length = 66 := by
    intro sig hsig
    rw [length_append,(hs sig hsig).1]
    rfl
  rw [length_flatMap,map_congr_left hwidth,map_const',sum_replicate_nat]

/-- Given their number, the signatures and signers can be read off their bytes. -/
lemma sigs_eq_of_hashed {s r : List AttributedOnchainSignature}
    (hs : ∀ sig ∈ s, sig.signature.length = 65 ∧ sig.signer < 256)
    (hr : ∀ sig ∈ r, sig.signature.length = 65 ∧ sig.signer < 256) (hlen : s.length = r.length)
    (h : s.flatMap (fun sig => sig.signature ++ [UInt8.ofNat sig.signer]) =
      r.flatMap (fun sig => sig.signature ++ [UInt8.ofNat sig.signer])) : s = r := by
  induction s generalizing r with
  | nil => exact (length_eq_zero_iff.1 hlen.symm).symm
  | cons a s ih =>
    cases r with
    | nil => cases hlen
    | cons b r =>
      obtain ⟨⟨hwa,ha⟩,hs⟩ := forall_mem_cons.1 hs
      obtain ⟨⟨hwb,hb⟩,hr⟩ := forall_mem_cons.1 hr
      simp only [flatMap_cons,append_assoc,singleton_append] at h
      obtain ⟨hsig,h⟩ := append_inj h (hwa.trans hwb.symm)
      obtain ⟨hbyte,h⟩ := List.cons.inj h
      have hsigner : a.signer = b.signer := by
        have heq := congrArg UInt8.toNat hbyte
        simp only [UInt8.toNat_ofNat'] at heq
        omega
      have hhead : a = b := by
        cases a
        cases b
        exact congrArg₂ _ hsig hsigner
      rw [hhead,ih hs hr (Nat.succ.inj hlen) h]

/-- No stage is the end of another one. -/
lemma stage_eq_of_append {r r' a b : Bytes} (ha : a ∈ stages) (hb : b ∈ stages) (h : r ++ a = r' ++ b) : a = b := by
  have hsuffix : ∀ a ∈ stages, ∀ b ∈ stages, a <:+ b → a = b := by decide
  rcases suffix_or_suffix_of_suffix (suffix_append r a) (h ▸ suffix_append r' b) with hab | hba
  · exact hsuffix a ha b hb hab
  · exact (hsuffix b hb a ha hba).symm

/-- Two transmissions with the same bytes under the hash are the same row exactly when their
server URLs are equally long and they have the same number of signatures. -/
theorem columns_eq_iff {t u : Transmission} (ht : t.OnWire) (hu : u.OnWire) (h : t.hashed = u.hashed) :
    t.columns = u.columns ↔ t.serverURL.length = u.serverURL.length ∧ t.sigs.length = u.sigs.length := by
  constructor
  · intro hcolumns
    simp only [columns,Prod.mk.injEq] at hcolumns
    obtain ⟨hurl,-,-,-,-,-,hsigs⟩ := hcolumns
    rw [hurl,hsigs]
    exact ⟨rfl,rfl⟩
  · rintro ⟨hurl,hnumber⟩
    -- the signatures and the format from the end, the fields before the report from the front
    obtain ⟨h,hsigs⟩ := append_inj' h (by rw [length_sigs ht.sigs,length_sigs hu.sigs,hnumber])
    obtain ⟨h,hformat⟩ := append_inj' h rfl
    simp only [append_assoc] at h
    obtain ⟨hurl,h⟩ := append_inj h hurl
    obtain ⟨hdigest,h⟩ := append_inj h (ht.configDigest.trans hu.configDigest.symm)
    obtain ⟨hseqNr,h⟩ := append_inj h rfl
    have hstage := stage_eq_of_append ht.lifeCycleStage hu.lifeCycleStage h
    rw [hstage] at h
    simp only [columns,hurl,hdigest,hstage,append_cancel_right h,beU64_inj ht.seqNr hu.seqNr hseqNr,
      beU32_inj ht.reportFormat hu.reportFormat hformat,sigs_eq_of_hashed ht.sigs hu.sigs hnumber hsigs]

def sample (serverURL configDigest : Bytes) (seqNr : ℕ) (report : Bytes) : Transmission where
  serverURL := serverURL
  configDigest := configDigest
  seqNr := seqNr
  report := report
  lifeCycleStage := ascii "production"
  reportFormat := .json
  sigs := [⟨List.replicate 65 7,3⟩]

lemma sample_onWire {serverURL configDigest report : Bytes} {seqNr : ℕ} (hdigest : configDigest.length = 32)
    (hseqNr : seqNr < 2 ^ 64) : (sample serverURL configDigest seqNr report).OnWire :=
  ⟨hdigest,hseqNr,(by decide : ascii "production" ∈ stages),(by decide : ReportFormat.code .json < 2 ^ 32),
    forall_mem_singleton.2 ⟨rfl,by decide⟩⟩

/-- The last byte of a server URL can be read as the first one of the digest. Everything up
to the report then moves by one byte. -/
theorem hashed_not_injective :
    let t := sample (ascii "wss://server1") (List.replicate 32 0) (7 * 2 ^ 8) []
    let u := sample (ascii "wss://server") (ascii "1" ++ List.replicate 31 0) 7 [0]
    t.OnWire ∧ u.OnWire ∧ t.hashed = u.hashed ∧ t.columns ≠ u.columns :=
  ⟨sample_onWire rfl (by decide),sample_onWire rfl (by decide),by decide,
    fun h => absurd (congrArg Prod.fst h) (by decide)⟩

theorem columns_eq_iff_sample :
    let t := sample (ascii "wss://server1") (List.replicate 32 0) (7 * 2 ^ 8) []
    let u := sample (ascii "wss://server") (ascii "1" ++ List.replicate 31 0) 7 [0]
    t.hashed = u.hashed ∧
      (t.columns = u.columns ↔ t.serverURL.length = u.serverURL.length ∧ t.sigs.length = u.sigs.length) :=
  ⟨by decide,columns_eq_iff (sample_onWire rfl (by decide)) (sample_onWire rfl (by decide)) (by decide)⟩

def sentTo (t : Transmission) (url : ServerURL) : Transmission := { t with serverURL := url }

/-- The formats a server can be sent. -/
def packs (t : Transmission) : Bool :=
  match t.reportFormat with
  | .json | .evmPremiumLegacy | .evmABIEncodeUnpacked | .evmABIEncodeUnpackedExpr | .evmStreamlined => true
  | _ => false

end Transmission

/-- The heap of the queue: one end yields the latest sequence number, the other the
oldest. -/
structure MinMaxHeap where
  pop : List Transmission → Option (Transmission × List Transmission)
  popMax : List Transmission → Option (Transmission × List Transmission)
  pop_perm : ∀ {pq t rest}, pop pq = some (t,rest) → pq.Perm (t :: rest)
  pop_latest : ∀ {pq t rest}, pop pq = some (t,rest) → ∀ u ∈ pq, u.seqNr ≤ t.seqNr
  pop_isSome : ∀ {pq}, pq ≠ [] → (pop pq).isSome
  popMax_perm : ∀ {pq t rest}, popMax pq = some (t,rest) → pq.Perm (t :: rest)
  popMax_oldest : ∀ {pq t rest}, popMax pq = some (t,rest) → ∀ u ∈ pq, t.seqNr ≤ u.seqNr
  popMax_isSome : ∀ {pq}, pq ≠ [] → (popMax pq).isSome

structure TransmitQueue where
  pq : List Transmission
  closed : Bool

namespace TransmitQueue
/-- Drops the oldest elements until the queue is shorter than `maxlen`: what is left and what was
dropped. Each pass drops one, so there are enough passes. -/
def evict (H : MinMaxHeap) (maxlen : ℕ) : ℕ → List Transmission → List Transmission × List Transmission
  | 0,pq => (pq,[])
  | fuel + 1,pq =>
    if pq.length < maxlen then (pq,[])
    else
      match H.popMax pq with
      | none => (pq,[])
      | some (removed,rest) =>
        let (left,dropped) := evict H maxlen fuel rest
        (left,removed :: dropped)

/-- The queue with the transmission and what it dropped for it; `maxlen` 0 is no limit. A
closed queue takes nothing. -/
def push (H : MinMaxHeap) (maxlen : ℕ) (q : TransmitQueue) (t : Transmission) :
    Option (TransmitQueue × List Transmission) :=
  if q.closed then none
  else if maxlen = 0 then some ({ q with pq := t :: q.pq },[])
  else
    let (left,dropped) := evict H maxlen q.pq.length q.pq
    some ({ q with pq := t :: left },dropped)

variable {H : MinMaxHeap} {maxlen : ℕ} {u : Transmission}
lemma mem_evict {fuel : ℕ} {pq : List Transmission} :
    u ∈ pq ↔ u ∈ (evict H maxlen fuel pq).1 ∨ u ∈ (evict H maxlen fuel pq).2 := by
  induction fuel generalizing pq with
  | zero => simp [evict]
  | succ fuel ih =>
    rw [evict]
    split_ifs with hroom
    · simp
    · cases hpop : H.popMax pq with
      | none => simp
      | some r =>
        obtain ⟨removed,rest⟩ := r
        dsimp only
        rw [(H.popMax_perm hpop).mem_iff,mem_cons,mem_cons,ih]
        exact or_left_comm

lemma mem_push {q q' : TransmitQueue} {t : Transmission} {dropped : List Transmission}
    (h : q.push H maxlen t = some (q',dropped)) : u ∈ q'.pq ∨ u ∈ dropped ↔ u = t ∨ u ∈ q.pq := by
  unfold push at h
  split_ifs at h with hclosed hunbounded
  · cases h
    simp
  · cases h
    have hall : u ∈ q.pq ↔ u ∈ (evict H maxlen q.pq.length q.pq).1 ∨ u ∈ (evict H maxlen q.pq.length q.pq).2 :=
      mem_evict
    rw [hall,mem_cons,or_assoc]

end TransmitQueue

end DataStreams.Transmitter
