import DataStreams.Protocol.Wire
import Mathlib.Algebra.Order.BigOperators.Group.List
import Mathlib.Algebra.Order.Ring.Nat

/-! An encoded message is a list of fields, which its bytes determine. -/
namespace DataStreams
open List

inductive WireField
  | varint (number value : ℕ)
  | bytes (number : ℕ) (value : Bytes)

namespace WireField
def encode : WireField → Bytes
  | varint k n => putUvarint (8 * k) ++ putUvarint n
  | bytes k b => putUvarint (8 * k + 2) ++ putUvarint b.length ++ b

/-- Every number of the field fits 64 bits. -/
def InRange : WireField → Prop
  | varint k n => 8 * k < 2 ^ 64 ∧ n < 2 ^ 64
  | bytes k b => 8 * k + 2 < 2 ^ 64 ∧ b.length < 2 ^ 64

end WireField

/-- A list is determined by its encodings one after the other when each item is read back
from the front. -/
lemma eq_of_flatMap_eq {α β : Type} {encode : α → List β} {P : α → Prop} (hne : ∀ a, P a → encode a ≠ [])
    (hread : ∀ a b r s, P a → P b → encode a ++ r = encode b ++ s → a = b ∧ r = s) {l m : List α}
    (hl : ∀ a ∈ l, P a) (hm : ∀ a ∈ m, P a) (h : l.flatMap encode = m.flatMap encode) : l = m := by
  induction l generalizing m with
  | nil =>
    cases m with
    | nil => rfl
    | cons b m => exact absurd (append_eq_nil_iff.1 h.symm).1 (hne b (hm b (by simp)))
  | cons a l ih =>
    cases m with
    | nil => exact absurd (append_eq_nil_iff.1 h).1 (hne a (hl a (by simp)))
    | cons b m =>
      rw [flatMap_cons,flatMap_cons] at h
      obtain ⟨rfl,hrest⟩ := hread _ _ _ _ (hl a (by simp)) (hm b (by simp)) h
      rw [ih (fun c hc => hl c (mem_cons_of_mem _ hc)) (fun c hc => hm c (mem_cons_of_mem _ hc)) hrest]

lemma putUvarint_append_inj {a b : ℕ} (ha : a < 2 ^ 64) (hb : b < 2 ^ 64) {r s : Bytes}
    (h : putUvarint a ++ r = putUvarint b ++ s) : a = b ∧ r = s := by
  have hread := uvarint_putUvarint ha r
  rw [h,uvarint_putUvarint hb s,Option.some.injEq,Prod.mk.injEq] at hread
  obtain rfl := hread.1
  exact ⟨rfl,append_cancel_left h⟩

lemma putUvarint_ne_nil {n : ℕ} (h : n < 2 ^ 64) : putUvarint n ≠ [] := by
  intro hnil
  have hread := uvarint_putUvarint h []
  rw [hnil] at hread
  cases hread

namespace WireField
variable {a b : WireField}
/-- A field can be told from the bytes that follow it. -/
lemma encode_append_inj (ha : a.InRange) (hb : b.InRange) {r s : Bytes} (h : a.encode ++ r = b.encode ++ s) :
    a = b ∧ r = s := by
  cases a with
  | varint k n =>
    cases b with
    | varint k' n' =>
      simp only [encode,append_assoc] at h
      obtain ⟨hk,h⟩ := putUvarint_append_inj ha.1 hb.1 h
      obtain ⟨rfl,rfl⟩ := putUvarint_append_inj ha.2 hb.2 h
      obtain rfl : k = k' := by omega
      exact ⟨rfl,rfl⟩
    | bytes k' v' =>
      simp only [encode,append_assoc] at h
      have := (putUvarint_append_inj ha.1 hb.1 h).1
      omega
  | bytes k v =>
    cases b with
    | varint k' n' =>
      simp only [encode,append_assoc] at h
      have := (putUvarint_append_inj ha.1 hb.1 h).1
      omega
    | bytes k' v' =>
      simp only [encode,append_assoc] at h
      obtain ⟨hk,h⟩ := putUvarint_append_inj ha.1 hb.1 h
      obtain ⟨hlen,h⟩ := putUvarint_append_inj ha.2 hb.2 h
      obtain ⟨rfl,rfl⟩ := append_inj h hlen
      obtain rfl : k = k' := by omega
      exact ⟨rfl,rfl⟩

lemma encode_ne_nil (ha : a.InRange) : a.encode ≠ [] := by
  cases a with
  | varint k n => exact append_ne_nil_of_left_ne_nil (putUvarint_ne_nil ha.1) _
  | bytes k v =>
    exact append_ne_nil_of_left_ne_nil (append_ne_nil_of_left_ne_nil (putUvarint_ne_nil ha.1) _) _

/-- Fields are read back one by one. -/
lemma flatMap_encode_inj {l m : List WireField} (hl : ∀ a ∈ l, a.InRange) (hm : ∀ a ∈ m, a.InRange)
    (h : l.flatMap encode = m.flatMap encode) : l = m :=
  eq_of_flatMap_eq (fun _ => encode_ne_nil) (fun _ _ _ _ ha hb => encode_append_inj ha hb) hl hm h

lemma eq_of_map_eq {α β : Type} {f : α → β} {l m : List α} (hf : ∀ x ∈ l, ∀ y ∈ m, f x = f y → x = y)
    (h : l.map f = m.map f) : l = m := by
  induction l generalizing m with
  | nil => exact (map_eq_nil_iff.1 h.symm).symm
  | cons x l ih =>
    cases m with
    | nil => cases h
    | cons y m =>
      obtain ⟨hxy,hrest⟩ := cons_eq_cons.1 h
      rw [hf x (by simp) y (by simp) hxy,
        ih (fun a ha b hb => hf a (mem_cons_of_mem _ ha) b (mem_cons_of_mem _ hb)) hrest]

/-- A number that is zero is left out. -/
def optVarint (k n : ℕ) : List WireField := if n = 0 then [] else [varint k n]

variable (k : ℕ)
/-- Bytes that are empty are left out. -/
def optBytes (b : Bytes) : List WireField := if b = [] then [] else [bytes k b]

@[simp] lemma flatMap_optVarint (k n : ℕ) : (optVarint k n).flatMap encode = protoVarint k n := by
  unfold optVarint protoVarint
  split_ifs <;> simp [encode]

@[simp] lemma flatMap_optBytes (b : Bytes) : (optBytes k b).flatMap encode = protoOptionalBytes k b := by
  unfold optBytes protoOptionalBytes protoBytes
  split_ifs <;> simp [encode]

lemma inRange_of_mem_optVarint {k n : ℕ} (hk : 8 * k < 2 ^ 64) (hn : n < 2 ^ 64) (h : a ∈ optVarint k n) :
    a.InRange := by
  unfold optVarint at h
  split_ifs at h
  · simp at h
  · rw [mem_singleton.1 h]
    exact ⟨hk,hn⟩

lemma inRange_of_mem_optBytes {k : ℕ} {v : Bytes} (hk : 8 * k + 2 < 2 ^ 64) (hv : v.length < 2 ^ 64)
    (h : a ∈ optBytes k v) : a.InRange := by
  unfold optBytes at h
  split_ifs at h
  · simp at h
  · rw [mem_singleton.1 h]
    exact ⟨hk,hv⟩

def numberAt (l : List WireField) : ℕ :=
  (l.map (fun a => match a with
    | varint j n => if j = k then n else 0
    | bytes _ _ => 0)).sum

def bytesAt (l : List WireField) : List Bytes :=
  l.filterMap (fun a => match a with
    | varint _ _ => none
    | bytes j b => if j = k then some b else none)

@[simp] lemma numberAt_append (l m : List WireField) : numberAt k (l ++ m) = numberAt k l + numberAt k m := by
  simp [numberAt]

@[simp] lemma bytesAt_append (l m : List WireField) : bytesAt k (l ++ m) = bytesAt k l ++ bytesAt k m :=
  filterMap_append

@[simp] lemma numberAt_optVarint (k j n : ℕ) : numberAt k (optVarint j n) = if j = k then n else 0 := by
  unfold optVarint
  by_cases hn : n = 0 <;> simp [hn,numberAt]

@[simp] lemma numberAt_optBytes (k j : ℕ) (b : Bytes) : numberAt k (optBytes j b) = 0 := by
  unfold optBytes
  split_ifs <;> rfl

@[simp] lemma bytesAt_optVarint (k j n : ℕ) : bytesAt k (optVarint j n) = [] := by
  unfold optVarint
  split_ifs <;> rfl

@[simp] lemma flatten_bytesAt_optBytes (k j : ℕ) (b : Bytes) :
    (bytesAt k (optBytes j b)).flatten = if j = k then b else [] := by
  unfold optBytes
  by_cases hb : b = []
  · simp [hb,bytesAt]
  · by_cases hk : j = k <;> simp [hb,hk,bytesAt]

lemma bytesAt_optBytes_of_ne {k j : ℕ} (h : j ≠ k) (b : Bytes) : bytesAt k (optBytes j b) = [] := by
  unfold optBytes
  split_ifs <;> simp [bytesAt,h]

@[simp] lemma numberAt_map_bytes {α : Type} (k j : ℕ) (f : α → Bytes) (l : List α) :
    numberAt k (l.map (fun x => bytes j (f x))) = 0 := by
  induction l with
  | nil => rfl
  | cons x l ih => simpa [numberAt] using ih

@[simp] lemma bytesAt_map_bytes {α : Type} (k j : ℕ) (f : α → Bytes) (l : List α) :
    bytesAt k (l.map (fun x => bytes j (f x))) = if j = k then l.map f else [] := by
  rw [bytesAt,filterMap_map]
  split_ifs with h <;> simp [h]

end WireField

/-- The aggregator is spelled as the wire has it: a number with a name by its name. -/
def Aggregator.OnWire (a : Aggregator) : Prop := a.code < 2 ^ 32 ∧ ∀ code, a = .other code → 4 < code

def ReportFormat.OnWire (f : ReportFormat) : Prop :=
  f.code < 2 ^ 32 ∧ ∀ code, f = .other code → code = 0 ∨ 8 < code

lemma Aggregator.eq_of_code {a b : Aggregator} (ha : a.OnWire) (hb : b.OnWire) (h : a.code = b.code) : a = b := by
  have ha := ha.2
  have hb := hb.2
  cases a <;> cases b <;> simp_all [code] <;> omega

lemma ReportFormat.eq_of_code {f g : ReportFormat} (hf : f.OnWire) (hg : g.OnWire) (h : f.code = g.code) : f = g := by
  have hf := hf.2
  have hg := hg.2
  cases f <;> cases g <;> simp_all [code] <;> omega

structure ChannelDefinition.OnWire (cd : ChannelDefinition) : Prop where
  reportFormat : cd.reportFormat.OnWire
  streamIDs : ∀ s ∈ cd.streams, s.streamID < 2 ^ 32
  aggregators : ∀ s ∈ cd.streams, s.aggregator.OnWire
  source : cd.source < 2 ^ 32
  length : (marshalChannelDefinition cd).length < 2 ^ 64

namespace Stream
def fields (s : Stream) : List WireField :=
  WireField.optVarint 1 s.streamID ++ WireField.optVarint 2 s.aggregator.code

lemma flatMap_fields (s : Stream) : s.fields.flatMap WireField.encode = marshalStreamDefinition s := by
  simp [fields,marshalStreamDefinition]

lemma marshal_inj {s t : Stream} (hs : s.streamID < 2 ^ 32) (hsa : s.aggregator.OnWire) (ht : t.streamID < 2 ^ 32)
    (hta : t.aggregator.OnWire) (h : marshalStreamDefinition s = marshalStreamDefinition t) : s = t := by
  have hrange : ∀ s : Stream, s.streamID < 2 ^ 32 → s.aggregator.OnWire → ∀ a ∈ s.fields, a.InRange := by
    intro s hs hsa a ha
    rcases mem_append.1 ha with ha | ha
    · exact WireField.inRange_of_mem_optVarint (k := 1) (by decide) (hs.trans (by decide)) ha
    · exact WireField.inRange_of_mem_optVarint (k := 2) (by decide) (hsa.1.trans (by decide)) ha
  rw [← flatMap_fields,← flatMap_fields] at h
  have hfields := WireField.flatMap_encode_inj (hrange s hs hsa) (hrange t ht hta) h
  have hid : s.streamID = t.streamID := by simpa [fields] using congrArg (WireField.numberAt 1) hfields
  have hagg : s.aggregator.code = t.aggregator.code := by
    simpa [fields] using congrArg (WireField.numberAt 2) hfields
  have hagg := Aggregator.eq_of_code hsa hta hagg
  cases s
  cases t
  exact congrArg₂ Stream.mk hid hagg

end Stream

namespace ChannelDefinition
def fields (cd : ChannelDefinition) : List WireField :=
  WireField.optVarint 1 cd.reportFormat.code ++
    cd.streams.map (fun s => WireField.bytes 2 (marshalStreamDefinition s)) ++ WireField.optBytes 3 cd.opts ++
    WireField.optVarint 4 cd.tombstone.toNat ++ WireField.optVarint 5 cd.source ++
    WireField.optVarint 6 cd.disableNilStreamValues.toNat

lemma flatMap_fields (cd : ChannelDefinition) : cd.fields.flatMap WireField.encode = marshalChannelDefinition cd := by
  simp only [fields,marshalChannelDefinition,flatMap_append,WireField.flatMap_optVarint,
    WireField.flatMap_optBytes,flatMap_map]
  rfl

lemma toNat_injective : Function.Injective Bool.toNat := by
  intro a b h
  cases a <;> cases b <;> first | rfl | cases h

lemma inRange_fields {cd : ChannelDefinition} (h : cd.OnWire) : ∀ a ∈ cd.fields, a.InRange := by
  have hpart : ∀ b ∈ cd.fields, b.encode.length < 2 ^ 64 := by
    intro b hb
    refine Nat.lt_of_le_of_lt ?_ h.length
    rw [← flatMap_fields,length_flatMap]
    exact le_sum_of_mem (mem_map_of_mem hb)
  intro a ha
  have hlen := hpart a ha
  simp only [fields,mem_append,mem_map] at ha
  rcases ha with ((((ha | ⟨s,hs,rfl⟩) | ha) | ha) | ha) | ha
  · exact WireField.inRange_of_mem_optVarint (k := 1) (by decide) (h.reportFormat.1.trans (by decide)) ha
  · refine ⟨by decide,?_⟩
    simp only [WireField.encode,length_append] at hlen
    omega
  · unfold WireField.optBytes at ha
    split_ifs at ha
    · simp at ha
    · rw [mem_singleton.1 ha] at hlen ⊢
      refine ⟨by decide,?_⟩
      simp only [WireField.encode,length_append] at hlen
      omega
  · exact WireField.inRange_of_mem_optVarint (k := 4) (by decide)
      ((Bool.toNat_le _).trans_lt (by decide)) ha
  · exact WireField.inRange_of_mem_optVarint (k := 5) (by decide) (h.source.trans (by decide)) ha
  · exact WireField.inRange_of_mem_optVarint (k := 6) (by decide)
      ((Bool.toNat_le _).trans_lt (by decide)) ha

/-- The encoding commits to every field. -/
lemma marshal_inj {cd cd' : ChannelDefinition} (h : cd.OnWire) (h' : cd'.OnWire)
    (heq : marshalChannelDefinition cd = marshalChannelDefinition cd') : cd = cd' := by
  rw [← flatMap_fields,← flatMap_fields] at heq
  have hfields := WireField.flatMap_encode_inj (inRange_fields h) (inRange_fields h') heq
  have hformat : cd.reportFormat.code = cd'.reportFormat.code := by
    simpa [fields] using congrArg (WireField.numberAt 1) hfields
  have hformat := ReportFormat.eq_of_code h.reportFormat h'.reportFormat hformat
  have hencoded : cd.streams.map marshalStreamDefinition = cd'.streams.map marshalStreamDefinition := by
    simpa [fields,WireField.bytesAt_optBytes_of_ne] using congrArg (WireField.bytesAt 2) hfields
  have hstreams : cd.streams = cd'.streams := WireField.eq_of_map_eq (fun s hs t ht =>
    Stream.marshal_inj (h.streamIDs s hs) (h.aggregators s hs) (h'.streamIDs t ht) (h'.aggregators t ht)) hencoded
  have hopts : cd.opts = cd'.opts := by
    simpa [fields] using congrArg (fun l => (WireField.bytesAt 3 l).flatten) hfields
  have htombstone : cd.tombstone = cd'.tombstone := toNat_injective
    (by simpa [fields] using congrArg (WireField.numberAt 4) hfields)
  have hsource : cd.source = cd'.source := by simpa [fields] using congrArg (WireField.numberAt 5) hfields
  have hnil : cd.disableNilStreamValues = cd'.disableNilStreamValues := toNat_injective
    (by simpa [fields] using congrArg (WireField.numberAt 6) hfields)
  cases cd
  cases cd'
  simp_all

end ChannelDefinition

/-- The hashed bytes determine the channel and its definition. -/
lemma marshalChannelIDAndDefinition_inj {id id' : ChannelID} {cd cd' : ChannelDefinition} (hid : id < 2 ^ 32)
    (hid' : id' < 2 ^ 32) (h : cd.OnWire) (h' : cd'.OnWire)
    (heq : marshalChannelIDAndDefinition id cd = marshalChannelIDAndDefinition id' cd') : id = id' ∧ cd = cd' := by
  have hfields : ∀ (id : ChannelID) (cd : ChannelDefinition), marshalChannelIDAndDefinition id cd =
      (WireField.optVarint 1 id ++ [WireField.bytes 2 (marshalChannelDefinition cd)]).flatMap WireField.encode := by
    intro id cd
    rw [flatMap_append,WireField.flatMap_optVarint]
    simp [marshalChannelIDAndDefinition,protoBytes,WireField.encode]
  have hrange : ∀ {id : ChannelID} {cd : ChannelDefinition}, id < 2 ^ 32 → cd.OnWire →
      ∀ a ∈ WireField.optVarint 1 id ++ [WireField.bytes 2 (marshalChannelDefinition cd)], a.InRange := by
    intro id cd hid hcd a ha
    rcases mem_append.1 ha with ha | ha
    · exact WireField.inRange_of_mem_optVarint (k := 1) (by decide) (hid.trans (by decide)) ha
    · rw [mem_singleton.1 ha]
      exact ⟨by decide,hcd.length⟩
  rw [hfields,hfields] at heq
  have heq := WireField.flatMap_encode_inj (hrange hid h) (hrange hid' h') heq
  have hids : id = id' := by
    have hnone : ∀ b, WireField.numberAt 1 [WireField.bytes 2 b] = 0 := fun _ => rfl
    simpa [hnone] using congrArg (WireField.numberAt 1) heq
  have hbody : marshalChannelDefinition cd = marshalChannelDefinition cd' := by
    have hone : ∀ b, WireField.bytesAt 2 [WireField.bytes 2 b] = [b] := fun _ => rfl
    simpa [hone] using congrArg (WireField.bytesAt 2) heq
  exact ⟨hids,ChannelDefinition.marshal_inj h h' hbody⟩

end DataStreams
