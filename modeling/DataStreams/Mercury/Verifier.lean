import DataStreams.Foundation.Fault
import DataStreams.Protocol.Types

/-! Verification of signed reports. The number of signatures is computed in eight bits. -/
namespace DataStreams.Mercury
open List Go Function

abbrev Bytes32 := { b : Bytes // b.length = 32 }

structure SignedReport where
  rawRs : List Bytes32
  rawSs : List Bytes32
  rawVs : Bytes32
  reportContext : Bytes32 × Bytes32 × Bytes32
  report : Bytes

/-- The signature library. -/
structure Crypto where
  keccak256 : Bytes → Bytes
  ecrecover : Bytes → Bytes → Except String Bytes
  verifySignature : Bytes → Bytes → Bytes → Bool
  unmarshalPubkey : Bytes → Except String Bytes
  pubkeyToAddress : Bytes → Bytes

inductive VerifyError
  | invalidSignatureCount (required got : ℕ)
  | mismatchedSignatureCount (rs ss : ℕ)
  | recovery (e : String)
  | invalidSignature (pubKey sig : Bytes)
  | unmarshalPubkey (pubKey : Bytes) (e : String)
  | unauthorized (signer : Bytes)
  | nonUnique (signer : Bytes)
  deriving DecidableEq

/-- The addresses that may sign, with a mark on those that did, the signers so far and what
went wrong so far. -/
structure Verification where
  signerMap : Bytes → Option Bool
  signers : List Bytes
  errors : List VerifyError

def reportToSigData (c : Crypto) (sr : SignedReport) : Bytes :=
  c.keccak256 (c.keccak256 sr.report ++ sr.reportContext.1.1 ++ sr.reportContext.2.1.1 ++ sr.reportContext.2.2.1)

def Verification.fails (p : Verification) (e : VerifyError) : Verification := { p with errors := p.errors ++ [e] }

def verifyAt (c : Crypto) (sr : SignedReport) (p : Verification) (i : ℕ) : Go Verification := do
  let r ← Go.index sr.rawRs i
  let s ← Go.index sr.rawSs i
  let v ← Go.index sr.rawVs.1 i
  let sig := r.1 ++ s.1 ++ [v]
  match c.ecrecover (reportToSigData c sr) sig with
  | .error e => .ok (p.fails (.recovery e))
  | .ok pubKey =>
    if !c.verifySignature pubKey (reportToSigData c sr) (sig.take 64) then .ok (p.fails (.invalidSignature pubKey sig))
    else
      match c.unmarshalPubkey pubKey with
      | .error e => .ok (p.fails (.unmarshalPubkey pubKey e))
      | .ok pub =>
        match p.signerMap (c.pubkeyToAddress pub) with
        | none => .ok (p.fails (.unauthorized (c.pubkeyToAddress pub)))
        | some true => .ok (p.fails (.nonUnique (c.pubkeyToAddress pub)))
        | some false =>
          .ok { p with
            signerMap := update p.signerMap (c.pubkeyToAddress pub) (some true)
            signers := p.signers ++ [c.pubkeyToAddress pub] }

def verify (c : Crypto) (sr : SignedReport) (f : UInt8) (authorizedSigners : List Bytes) :
    Go (List Bytes × List VerifyError) :=
  if sr.rawRs.length ≠ (f + 1).toNat then .ok ([],[.invalidSignatureCount (f + 1).toNat sr.rawRs.length])
  else if sr.rawRs.length ≠ sr.rawSs.length then
    .ok ([],[.mismatchedSignatureCount sr.rawRs.length sr.rawSs.length])
  else do
    let p ← (List.range sr.rawRs.length).foldlM (verifyAt c sr)
      ⟨fun a => if a ∈ authorizedSigners then some false else none,[],[]⟩
    .ok (p.signers,p.errors)

def SignedBy (c : Crypto) (sr : SignedReport) (address : Bytes) : Prop :=
  ∃ i : ℕ, ∃ r ∈ sr.rawRs[i]?, ∃ s ∈ sr.rawSs[i]?, ∃ v ∈ sr.rawVs.1[i]?, ∃ pubKey pub,
    c.ecrecover (reportToSigData c sr) (r.1 ++ s.1 ++ [v]) = .ok pubKey ∧
      c.verifySignature pubKey (reportToSigData c sr) ((r.1 ++ s.1 ++ [v]).take 64) = true ∧
      c.unmarshalPubkey pubKey = .ok pub ∧ address = c.pubkeyToAddress pub

/-- Verification ends, and without errors there are signatures of one more signer than may be
faulty. -/
def Sound (c : Crypto) (sr : SignedReport) (f : UInt8) (authorizedSigners : List Bytes) : Prop :=
  ∃ signers errors, verify c sr f authorizedSigners = .ok (signers,errors) ∧
    (errors = [] → signers.length = f.toNat + 1 ∧ signers.Nodup ∧
      ∀ a ∈ signers, a ∈ authorizedSigners ∧ SignedBy c sr a)

variable {c : Crypto} {sr : SignedReport} {authorizedSigners : List Bytes} {p q : Verification} {n i : ℕ}
/-- What is known after the signatures before place `n`. -/
structure Verified (c : Crypto) (sr : SignedReport) (authorizedSigners : List Bytes) (n : ℕ) (p : Verification) : Prop where
  authorized : ∀ {a m}, p.signerMap a = some m → a ∈ authorizedSigners
  marked : ∀ a ∈ p.signers, p.signerMap a = some true
  nodup : p.signers.Nodup
  signed : ∀ a ∈ p.signers, SignedBy c sr a
  complete : p.errors = [] → p.signers.length = n

lemma Verified.fails (h : Verified c sr authorizedSigners n p) (e : VerifyError) :
    Verified c sr authorizedSigners (n + 1) (p.fails e) :=
  ⟨h.authorized,h.marked,h.nodup,h.signed,fun hnil => absurd hnil (append_ne_nil_of_right_ne_nil _ (cons_ne_nil _ _))⟩

/-- Checking one more signature keeps the account of the signers. -/
lemma Verified.verifyAt (h : Verified c sr authorizedSigners n p) (hr : n < sr.rawRs.length) (hs : n < sr.rawSs.length)
    (hv : n < 32) : ∃ q, verifyAt c sr p n = .ok q ∧ Verified c sr authorizedSigners (n + 1) q := by
  have hv : n < sr.rawVs.1.length := by rwa [sr.rawVs.2]
  rw [Mercury.verifyAt,index_eq_ok hr,ok_bind,index_eq_ok hs,ok_bind,index_eq_ok hv,ok_bind]
  dsimp only
  split
  · exact ⟨_,rfl,h.fails _⟩
  case _ pubKey hrecover =>
  split_ifs with hverify
  · exact ⟨_,rfl,h.fails _⟩
  split
  · exact ⟨_,rfl,h.fails _⟩
  case _ pub hpub =>
  split
  · exact ⟨_,rfl,h.fails _⟩
  · exact ⟨_,rfl,h.fails _⟩
  case _ hmap =>
  refine ⟨_,rfl,?_,?_,?_,?_,?_⟩
  · intro a m ha
    dsimp only at ha
    by_cases heq : a = c.pubkeyToAddress pub
    · exact heq ▸ h.authorized hmap
    · exact h.authorized (by rwa [update_of_ne heq] at ha)
  · intro a ha
    rcases mem_append.1 ha with ha | ha
    · by_cases heq : a = c.pubkeyToAddress pub
      · exact heq ▸ update_self _ _ _
      · exact (update_of_ne heq _ _).trans (h.marked a ha)
    · exact mem_singleton.1 ha ▸ update_self _ _ _
  · -- an address that is not marked has not signed yet
    refine nodup_append.2 ⟨h.nodup,nodup_singleton _,?_⟩
    intro a ha b hb heq
    rw [← mem_singleton.1 hb,← heq,h.marked a ha] at hmap
    cases hmap
  · intro a ha
    rcases mem_append.1 ha with ha | ha
    · exact h.signed a ha
    · refine ⟨n,_,getElem?_eq_getElem hr,_,getElem?_eq_getElem hs,_,getElem?_eq_getElem hv,pubKey,pub,
        hrecover,?_,hpub,?_⟩
      · simpa using hverify
      · exact mem_singleton.1 ha
  · intro hnil
    rw [length_append,h.complete hnil,length_singleton]

lemma Verified.foldlM (h : Verified c sr authorizedSigners 0 p) (hlen : sr.rawRs.length = sr.rawSs.length)
    (hn : n ≤ sr.rawRs.length) (hv : n ≤ 32) :
    ∃ q, (List.range n).foldlM (Mercury.verifyAt c sr) p = .ok q ∧ Verified c sr authorizedSigners n q := by
  induction n with
  | zero => exact ⟨p,rfl,h⟩
  | succ n ih =>
    obtain ⟨q,hq,hverified⟩ := ih (by omega) (by omega)
    obtain ⟨r,hr,hnext⟩ := hverified.verifyAt (by omega) (by omega) (by omega)
    refine ⟨r,?_,hnext⟩
    rw [range_succ,foldlM_append,hq,ok_bind,foldlM_cons,hr]
    rfl

lemma toNat_add_one {f : UInt8} (h : f.toNat < 255) : (f + 1).toNat = f.toNat + 1 := by
  rw [UInt8.toNat_add]
  exact Nat.mod_eq_of_lt (by simp; omega)

lemma sound_of_lt (c : Crypto) (sr : SignedReport) {f : UInt8} (hf : f.toNat < 32) (authorizedSigners : List Bytes) :
    Sound c sr f authorizedSigners := by
  unfold Sound verify
  split_ifs with hrs hss
  · exact ⟨_,_,rfl,fun h => absurd h (cons_ne_nil _ _)⟩
  · exact ⟨_,_,rfl,fun h => absurd h (cons_ne_nil _ _)⟩
  rw [not_not] at hrs hss
  have hstart : Verified c sr authorizedSigners 0 ⟨fun a => if a ∈ authorizedSigners then some false else none,[],[]⟩ := by
    refine ⟨?_,nofun,nodup_nil,nofun,fun _ => rfl⟩
    intro a m ha
    dsimp only at ha
    split_ifs at ha with hmem
    exact hmem
  obtain ⟨p,hp,hverified⟩ := hstart.foldlM hss le_rfl (by rw [hrs,toNat_add_one (by omega)]; omega)
  refine ⟨p.signers,p.errors,by rw [hp]; rfl,fun hnil => ⟨?_,hverified.nodup,?_⟩⟩
  · rw [hverified.complete hnil,hrs,toNat_add_one (by omega)]
  · exact fun a ha => ⟨hverified.authorized (hverified.marked a ha),hverified.signed a ha⟩

/-- The loop does not get past the 33rd signature, for which there is no recovery byte. -/
lemma verify_ne_ok {f : UInt8} (hf : 32 ≤ f.toNat) (hmax : f.toNat < 255) (hrs : sr.rawRs.length = (f + 1).toNat)
    (hss : sr.rawRs.length = sr.rawSs.length) (r : List Bytes × List VerifyError) :
    verify c sr f authorizedSigners ≠ .ok r := by
  intro h
  rw [verify,if_neg (not_not.2 hrs),if_neg (not_not.2 hss),hrs,toNat_add_one hmax] at h
  obtain ⟨p,hp,-⟩ := bind_ok_iff.1 h
  obtain ⟨k,hk⟩ : ∃ k, f.toNat + 1 = 33 + k := ⟨f.toNat - 32,by omega⟩
  rw [hk,range_add,foldlM_append,range_succ,foldlM_append] at hp
  obtain ⟨q,hq,-⟩ := bind_ok_iff.1 hp
  obtain ⟨q',-,hq⟩ := bind_ok_iff.1 hq
  obtain ⟨q'',hq,-⟩ := bind_ok_iff.1 hq
  simp only [verifyAt,bind_ok_iff] at hq
  obtain ⟨-,-,-,-,v,hv,-⟩ := hq
  have hnone : sr.rawVs.1[32]? = none := getElem?_eq_none sr.rawVs.2.le
  rw [index,hnone] at hv
  exact absurd hv (panics_ne_ok _ _)

/-- Verification of a report is sound and total exactly if at most 31 signers may be faulty
or the report fails the counts of its signatures. -/
theorem sound_iff (c : Crypto) (sr : SignedReport) (f : UInt8) (authorizedSigners : List Bytes) :
    Sound c sr f authorizedSigners ↔
      f.toNat < 32 ∨ sr.rawRs.length ≠ (f + 1).toNat ∨ sr.rawRs.length ≠ sr.rawSs.length := by
  constructor
  · intro h
    by_contra hcond
    push Not at hcond
    obtain ⟨hf,hrs,hss⟩ := hcond
    obtain ⟨signers,errors,hverify,hsound⟩ := h
    rcases (Nat.le_of_lt_succ f.toNat_lt).lt_or_eq with hmax | hmax
    · exact verify_ne_ok hf hmax hrs hss _ hverify
    · -- the count wraps to zero, and no signature is needed
      obtain rfl : f = 255 := UInt8.toNat_inj.1 hmax
      rw [verify,if_neg (not_not.2 hrs),if_neg (not_not.2 hss),hrs] at hverify
      cases hverify
      exact absurd (hsound rfl).1.symm (Nat.succ_ne_zero _)
  · rintro (hf | hrs | hss)
    · exact sound_of_lt c sr hf authorizedSigners
    · rw [Sound,verify,if_pos hrs]
      exact ⟨_,_,rfl,fun h => absurd h (cons_ne_nil _ _)⟩
    · unfold Sound verify
      split_ifs
      · exact ⟨_,_,rfl,fun h => absurd h (cons_ne_nil _ _)⟩
      · exact ⟨_,_,rfl,fun h => absurd h (cons_ne_nil _ _)⟩

def unsigned : SignedReport :=
  let zeros : Bytes32 := ⟨List.replicate 32 0,rfl⟩
  ⟨[],[],zeros,(zeros,zeros,zeros),[]⟩

/-- A library that recovers no signer. -/
def unrecovered : Crypto where
  keccak256 := id
  ecrecover _ _ := .error "recovery failed"
  verifySignature _ _ _ := false
  unmarshalPubkey _ := .error "invalid public key"
  pubkeyToAddress := id

/-- With 255 faulty signers a report without any signature is verified. -/
theorem verify_unsigned_accepted :
    verify unrecovered unsigned 255 [[1],[2]] = .ok ([],[]) ∧ ¬ Sound unrecovered unsigned 255 [[1],[2]] := by
  refine ⟨rfl,?_⟩
  rintro ⟨signers,errors,hverify,hsound⟩
  cases hverify
  exact absurd (hsound rfl).1.symm (Nat.succ_ne_zero _)

end DataStreams.Mercury
