import DataStreams.Foundation.BigEndian
import DataStreams.Foundation.Fault
import DataStreams.Protocol.Types
import Mathlib.Data.Prod.Lex

/-! The database keeps the latest payload under the feed ID, which is read off the front of the
payload. -/
namespace DataStreams.Mercury
open List Function

structure ReportContext where
  configDigest : Bytes
  epoch : ℕ
  round : ℕ
  extraHash : Bytes
  length_configDigest : configDigest.length = 32

/-- The libraries that take signatures apart and pack payloads. The first word of a payload is
the first one of the static report context. -/
structure Packing where
  splitSignature : Bytes → Except String (Bytes × Bytes × UInt8)
  pack : ReportContext → Bytes → List (Bytes × Bytes × UInt8) → Except String Bytes
  take_pack : ∀ {ctx report sigs payload}, pack ctx report sigs = .ok payload → payload.take 32 = ctx.configDigest

structure TransmitCall where
  reportCtx : ReportContext
  report : Bytes
  signatures : List Bytes

namespace TransmitCall
def feedID (c : TransmitCall) : Bytes := c.report.take 32

/-- Epoch and round, in lexicographic order. -/
def time (c : TransmitCall) : ℕ ×ₗ ℕ := toLex (c.reportCtx.epoch,c.reportCtx.round)

/-- The recovery bytes go into an array of 32. -/
def payload (L : Packing) (c : TransmitCall) : Go Bytes := do
  let sigs ← c.signatures.zipIdx.mapM fun sig =>
    match L.splitSignature sig.1 with
    | .error _ => Go.panics "eventTransmit(ev): error in SplitSignature"
    | .ok parts => if sig.2 < 32 then .ok parts else Go.panics "index out of range"
  match L.pack c.reportCtx c.report sigs with
  | .error e => Go.err ("abi.Pack failed: " ++ e)
  | .ok payload => .ok payload

end TransmitCall

structure LatestRow where
  report : Bytes
  epoch : ℕ
  round : ℕ
  deriving DecidableEq

abbrev FeedLatestReports := Bytes → Option LatestRow

def feedIDFromReport (report : Bytes) : Go Bytes :=
  if 32 ≤ report.length then .ok (report.take 32) else Go.err s!"invalid length for report: {report.length}"

/-- A row is replaced by one of a later epoch, or of a later round of its epoch. -/
def upsert (db : FeedLatestReports) (feedID : Bytes) (row : LatestRow) : FeedLatestReports :=
  match db feedID with
  | none => update db feedID (some row)
  | some old =>
    if old.epoch < row.epoch ∨ row.epoch = old.epoch ∧ old.round < row.round then update db feedID (some row) else db

def insertTransmitRequest (db : FeedLatestReports) (serverURLs : List String) (payload : Bytes) (reportCtx : ReportContext) :
    Go FeedLatestReports := do
  let feedID ← feedIDFromReport payload
  if serverURLs.isEmpty then Go.err "no server URLs provided"
  else .ok (upsert db feedID ⟨payload,reportCtx.epoch,reportCtx.round⟩)

def transmit (L : Packing) (serverURLs : List String) (db : FeedLatestReports) (c : TransmitCall) : Go FeedLatestReports := do
  let payload ← c.payload L
  insertTransmitRequest db serverURLs payload c.reportCtx

def latestReport (db : FeedLatestReports) (feedID : Bytes) : Option Bytes := (db feedID).map LatestRow.report

variable (L : Packing) (serverURLs : List String)
/-- The calls that succeeded, last one first, and the table they leave. -/
inductive Transmitted : List TransmitCall → FeedLatestReports → Prop
  | nil : Transmitted [] fun _ => none
  | cons {calls db c db'} : Transmitted calls db → transmit L serverURLs db c = .ok db' → Transmitted (c :: calls) db'

structure LatestOf {κ : Type} (key : TransmitCall → κ) (calls : List TransmitCall) (k : κ) (d : TransmitCall) (payload : Bytes) :
    Prop where
  mem : d ∈ calls
  key_eq : key d = k
  latest : ∀ e ∈ calls, key e = k → e.time ≤ d.time
  payload_eq : d.payload L = .ok payload

def FindsLatest (calls : List TransmitCall) (db : FeedLatestReports) : Prop :=
  ∀ c ∈ calls, ∃ d payload, LatestOf L TransmitCall.feedID calls c.feedID d payload ∧ latestReport db c.feedID = some payload

variable {L serverURLs} {calls : List TransmitCall} {db db' : FeedLatestReports} {c d : TransmitCall} {payload : Bytes} {k : Bytes}
lemma feedIDFromReport_payload (h : c.payload L = .ok payload) : feedIDFromReport payload = .ok c.reportCtx.configDigest := by
  obtain ⟨sigs,-,h⟩ := Go.bind_ok_iff.1 h
  split at h
  next => exact absurd h (Go.err_ne_ok _ _)
  next packed hpack =>
    cases h
    have htake := L.take_pack hpack
    have hlen := congrArg List.length htake
    rw [length_take,c.reportCtx.length_configDigest] at hlen
    rw [feedIDFromReport,if_pos (by omega),htake]

lemma transmit_eq_ok : transmit L serverURLs db c = .ok db' ↔ ∃ payload, c.payload L = .ok payload ∧ serverURLs ≠ [] ∧
    db' = upsert db c.reportCtx.configDigest ⟨payload,c.reportCtx.epoch,c.reportCtx.round⟩ := by
  rw [transmit,Go.bind_ok_iff]
  refine exists_congr fun payload => and_congr_right fun hpayload => ?_
  rw [insertTransmitRequest,feedIDFromReport_payload hpayload,Go.ok_bind]
  cases serverURLs with
  | nil => exact ⟨fun h => absurd h (Go.err_ne_ok _ _),fun h => absurd rfl h.1⟩
  | cons url urls => exact ⟨fun h => ⟨cons_ne_nil _ _,(Except.ok.inj h).symm⟩,fun h => congrArg Except.ok h.2.symm⟩

lemma upsert_of_ne (db : FeedLatestReports) (row : LatestRow) {feedID : Bytes} (h : k ≠ feedID) :
    upsert db feedID row k = db k := by
  rw [upsert]
  cases db feedID with
  | none => exact update_of_ne h _ _
  | some old =>
    dsimp only
    split_ifs
    · exact update_of_ne h _ _
    · rfl

def digest (c : TransmitCall) : Bytes := c.reportCtx.configDigest

def KeepsLatest (L : Packing) (calls : List TransmitCall) (db : FeedLatestReports) (k : Bytes) : Prop :=
  (db k = none ∧ ∀ c ∈ calls, digest c ≠ k) ∨
    ∃ d payload, LatestOf L digest calls k d payload ∧ db k = some ⟨payload,d.reportCtx.epoch,d.reportCtx.round⟩

lemma LatestOf.cons (h : LatestOf L digest calls k d payload) (hc : digest c = k → c.time ≤ d.time) :
    LatestOf L digest (c :: calls) k d payload where
  mem := mem_cons_of_mem _ h.mem
  key_eq := h.key_eq
  latest := forall_mem_cons.2 ⟨hc,h.latest⟩
  payload_eq := h.payload_eq

lemma latestOf_self (hpayload : c.payload L = .ok payload) (h : ∀ e ∈ calls, digest e = digest c → e.time ≤ c.time) :
    LatestOf L digest (c :: calls) (digest c) c payload where
  mem := mem_cons_self
  key_eq := rfl
  latest := forall_mem_cons.2 ⟨fun _ => le_rfl,h⟩
  payload_eq := hpayload

lemma later_iff : (d.reportCtx.epoch < c.reportCtx.epoch ∨
    c.reportCtx.epoch = d.reportCtx.epoch ∧ d.reportCtx.round < c.reportCtx.round) ↔ d.time < c.time := by
  rw [TransmitCall.time,TransmitCall.time,Prod.Lex.toLex_lt_toLex,eq_comm]

/-- A transmission keeps every row at the latest report of its key. -/
lemma KeepsLatest.transmit (h : KeepsLatest L calls db k) (hstep : transmit L serverURLs db c = .ok db') :
    KeepsLatest L (c :: calls) db' k := by
  obtain ⟨payload,hpayload,-,rfl⟩ := transmit_eq_ok.1 hstep
  by_cases hk : k = digest c
  · subst hk
    refine .inr ?_
    rcases h with ⟨hnone,hnew⟩ | ⟨d,old,hd,hrow⟩
    · have hself := latestOf_self hpayload fun e he heq => absurd heq (hnew e he)
      refine ⟨c,payload,hself,?_⟩
      rw [upsert,show db c.reportCtx.configDigest = none from hnone]
      exact update_self _ _ _
    · rw [upsert,show db c.reportCtx.configDigest = some _ from hrow]
      dsimp only
      by_cases hlater : d.time < c.time
      · rw [if_pos (later_iff.2 hlater)]
        refine ⟨c,payload,latestOf_self hpayload fun e he heq => ?_,update_self _ _ _⟩
        exact (hd.latest e he heq).trans hlater.le
      · rw [if_neg (mt later_iff.1 hlater)]
        exact ⟨d,old,hd.cons fun _ => not_lt.1 hlater,hrow⟩
  · have hsame := upsert_of_ne db ⟨payload,c.reportCtx.epoch,c.reportCtx.round⟩ (show k ≠ c.reportCtx.configDigest from hk)
    rw [KeepsLatest,hsame]
    refine h.imp (And.imp_right fun hnew => forall_mem_cons.2 ⟨Ne.symm hk,hnew⟩) ?_
    rintro ⟨d,old,hd,hrow⟩
    exact ⟨d,old,hd.cons fun heq => absurd heq.symm hk,hrow⟩

lemma Transmitted.keepsLatest (h : Transmitted L serverURLs calls db) (k : Bytes) : KeepsLatest L calls db k := by
  induction h with
  | nil => exact .inl ⟨rfl,forall_mem_nil _⟩
  | cons _ hstep ih => exact ih.transmit hstep

/-- The reports of a class of calls are always found exactly if the calls of it that can succeed
have the feed ID of the report as the digest of the context. -/
theorem findsLatest_iff (L : Packing) (serverURLs : List String) (P : TransmitCall → Prop) :
    (∀ calls db, (∀ c ∈ calls, P c) → Transmitted L serverURLs calls db → FindsLatest L calls db) ↔
      ∀ c, P c → (∃ db, transmit L serverURLs (fun _ => none) c = .ok db) → c.reportCtx.configDigest = c.feedID := by
  constructor
  · rintro h c hc ⟨db,hdb⟩
    have hsent := Transmitted.cons .nil hdb
    obtain ⟨d,payload,-,hfound⟩ := h [c] db (forall_mem_singleton.2 hc) hsent c mem_cons_self
    -- The only row is the one under the digest.
    by_contra hne
    rcases hsent.keepsLatest c.feedID with ⟨hnone,-⟩ | ⟨d,_,hd,-⟩
    · rw [latestReport,hnone] at hfound
      cases hfound
    · cases mem_singleton.1 hd.mem
      exact hne hd.key_eq
  · intro h calls db hP hsent c hc
    have hkey : ∀ e ∈ calls, digest e = e.feedID := by
      intro e he
      refine h e (hP e he) ?_
      clear hP hc c
      induction hsent with
      | nil => cases he
      | cons _ hstep ih =>
        rcases mem_cons.1 he with rfl | he
        · obtain ⟨payload,hpayload,hurls,-⟩ := transmit_eq_ok.1 hstep
          exact ⟨_,transmit_eq_ok.2 ⟨payload,hpayload,hurls,rfl⟩⟩
        · exact ih he
    rcases hsent.keepsLatest c.feedID with ⟨-,hnew⟩ | ⟨d,payload,hd,hrow⟩
    · exact absurd (hkey c hc) (hnew c hc)
    · refine ⟨d,payload,⟨hd.mem,(hkey d hd.mem).symm.trans hd.key_eq,fun e he heq => ?_,hd.payload_eq⟩,?_⟩
      · exact hd.latest e he ((hkey e he).trans heq)
      · rw [latestReport,hrow,Option.map_some]

/-- Signatures of 65 bytes, and the Solidity packing of the three words of a context, the
report, the two halves of the signatures and their recovery bytes. -/
def abiPacking : Packing where
  splitSignature sig :=
    if sig.length = 65 then .ok (sig.take 32,(sig.drop 32).take 32,sig.getD 64 0) else .error "wrong length"
  pack ctx report sigs :=
    let context := bigEndian 31 ctx.epoch ++ bigEndian 1 ctx.round ++ ctx.extraHash
    let body := bigEndian 32 report.length ++ report ++ replicate (31 - (report.length + 31) % 32) 0
    let count := bigEndian 32 sigs.length
    let heads := packWords [224,224 + body.length,256 + body.length + 32 * sigs.length]
    let vs := sigs.map (·.2.2) ++ replicate (32 - sigs.length) 0
    .ok (ctx.configDigest ++
      (context ++ heads ++ vs ++ body ++ count ++ sigs.flatMap (·.1) ++ count ++ sigs.flatMap (·.2.1)))
  take_pack h := by
    cases h
    exact take_left' (ReportContext.length_configDigest _)

/-- A report of feed 7 under a configuration with digest 1, with one signature. -/
def feedSeven : TransmitCall where
  reportCtx := ⟨replicate 32 1,1,1,replicate 32 0,rfl⟩
  report := replicate 32 7 ++ bigEndian 32 1700000000
  signatures := [replicate 32 4 ++ replicate 32 5 ++ [27]]

theorem latestReport_not_found :
    ∃ db, Transmitted abiPacking ["url"] [feedSeven] db ∧ latestReport db feedSeven.feedID = none := by
  have hpayload := Go.eq_ok_getD (x := feedSeven.payload abiPacking) (by decide +kernel) []
  refine ⟨_,.cons .nil (transmit_eq_ok.2 ⟨_,hpayload,cons_ne_nil _ _,rfl⟩),?_⟩
  rw [latestReport,upsert_of_ne _ _ (by decide)]
  rfl

end DataStreams.Mercury
