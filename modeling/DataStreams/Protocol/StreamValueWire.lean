import DataStreams.Foundation.BigEndian
import DataStreams.Protocol.WireReader

/-! Stream values on the wire. Decoding applies limits to exponents and nesting that encoding
does not. -/
namespace DataStreams
open List Go WireField Nat

def marshalQuote (bid benchmark ask : Bytes) : Bytes :=
  protoOptionalBytes 1 bid ++ protoOptionalBytes 2 benchmark ++ protoOptionalBytes 3 ask

def marshalTimestamped (observedAt : ℕ) (v : StreamValueProto) : Bytes :=
  protoVarint 1 observedAt ++ protoBytes 2 (marshalStreamValue v)

def streamValueToProto (decimal : DecimalEncoder) (v : StreamValue) : Except String StreamValueProto := do
  let b ← v.marshalBinary decimal
  .ok ⟨v.type,b⟩

def Decimal.ExponentInRange (d : Decimal) : Prop := -maxDecimalExponent ≤ d.exponent ∧ d.exponent ≤ maxDecimalExponent

instance (d : Decimal) : Decidable d.ExponentInRange := inferInstanceAs (Decidable (_ ∧ _))

variable {d : Decimal}
lemma checkDecimalExponent_eq_ok : checkDecimalExponent d = .ok () ↔ d.ExponentInRange := by
  unfold checkDecimalExponent Decimal.ExponentInRange
  by_cases h : d.exponent > maxDecimalExponent ∨ d.exponent < -maxDecimalExponent
  · rw [if_pos h]
    refine iff_of_false nofun ?_
    omega
  · rw [if_neg h]
    refine iff_of_true rfl ?_
    omega

namespace StreamValue
def nesting : StreamValue → ℕ
  | .decimal _ => 0
  | .quote _ => 0
  | .timestamped _ v => v.nesting + 1

def InRange : StreamValue → Prop
  | .decimal d => d.ExponentInRange
  | .quote q => q.bid.ExponentInRange ∧ q.benchmark.ExponentInRange ∧ q.ask.ExponentInRange
  | .timestamped t v => t < 2 ^ 64 ∧ v.InRange

/-- What decoding lets through. -/
structure Decodable (v : StreamValue) : Prop where
  inRange : v.InRange
  nesting_le : v.nesting ≤ maxStreamValueNesting

lemma decodable_decimal {d : Decimal} : Decodable (.decimal d) ↔ d.ExponentInRange :=
  ⟨fun h => h.inRange,fun h => ⟨h,Nat.zero_le _⟩⟩

lemma decodable_quote {q : Quote} : Decodable (.quote q) ↔
    q.bid.ExponentInRange ∧ q.benchmark.ExponentInRange ∧ q.ask.ExponentInRange :=
  ⟨fun h => h.inRange,fun h => ⟨h,Nat.zero_le _⟩⟩

end StreamValue

/-- The libraries read back the decimals, quotes and timestamped values they wrote. -/
structure WireLibs.ReadsValues (W : WireLibs) (decimal : DecimalEncoder) : Prop where
  decimal : ∀ {d b}, decimal d = .ok b → W.unmarshalDecimal b = .ok d
  quote : ∀ {bid benchmark ask}, (marshalQuote bid benchmark ask).length < 2 ^ 64 →
    W.unmarshalQuote (marshalQuote bid benchmark ask) = .ok (bid,benchmark,ask)
  timestamped : ∀ {t} {v : StreamValue} {b}, t < 2 ^ 64 → (marshalTimestamped t ⟨v.type,b⟩).length < 2 ^ 64 →
    W.unmarshalTimestamped (marshalTimestamped t ⟨v.type,b⟩) = .ok (t,some ⟨v.type,b⟩)
  /-- Timestamps are 64-bit numbers. -/
  timestamp_lt : ∀ {b t v}, W.unmarshalTimestamped b = .ok (t,v) → t < 2 ^ 64

variable {W : WireLibs} {decimal : DecimalEncoder}
variable {b : Bytes}
lemma unmarshalBinaryDecimal_eq_ok {d : Decimal} :
    unmarshalBinaryDecimal W b = .ok d ↔ W.unmarshalDecimal b = .ok d ∧ d.ExponentInRange := by
  simp only [unmarshalBinaryDecimal,bind_ok_iff]
  constructor
  · rintro ⟨d',hd,⟨⟩,hexp,h⟩
    cases h
    exact ⟨hd,checkDecimalExponent_eq_ok.1 hexp⟩
  · rintro ⟨hd,hexp⟩
    exact ⟨d,hd,(),checkDecimalExponent_eq_ok.2 hexp,rfl⟩

variable {v : StreamValue}
lemma marshalBinary_timestamped {t : ℕ} (h : (StreamValue.timestamped t v).marshalBinary decimal = .ok b) :
    ∃ sv, v.marshalBinary decimal = .ok sv ∧ b = marshalTimestamped t ⟨v.type,sv⟩ := by
  rw [StreamValue.marshalBinary,bind_ok_iff] at h
  obtain ⟨sv,hsv,h⟩ := h
  cases h
  exact ⟨sv,hsv,rfl⟩

variable {q : Quote}
lemma marshalBinary_quote (h : (StreamValue.quote q).marshalBinary decimal = .ok b) :
    ∃ bid benchmark ask, decimal q.bid = .ok bid ∧ decimal q.benchmark = .ok benchmark ∧ decimal q.ask = .ok ask ∧
      b = marshalQuote bid benchmark ask := by
  simp only [StreamValue.marshalBinary,bind_ok_iff] at h
  obtain ⟨bid,hbid,benchmark,hbench,ask,hask,h⟩ := h
  cases h
  exact ⟨bid,benchmark,ask,hbid,hbench,hask,rfl⟩

lemma length_le_protoOptionalBytes (k : ℕ) (b : Bytes) : b.length ≤ (protoOptionalBytes k b).length := by
  unfold protoOptionalBytes protoBytes
  split_ifs with hb
  · simp [hb]
  · simp only [length_append]
    omega

lemma length_le_marshalTimestamped (t : ℕ) (v : StreamValueProto) :
    v.value.length ≤ (marshalTimestamped t v).length := by
  have hvalue := length_le_protoOptionalBytes 2 v.value
  simp only [marshalTimestamped,marshalStreamValue,protoBytes,length_append]
  omega

lemma unmarshalNested_decimal (levels : ℕ) (b : Bytes) : unmarshalNested W levels (some ⟨.decimal,b⟩) =
    (unmarshalBinaryDecimal W b).bind (fun d => .ok (.decimal d)) := by
  cases levels <;> rfl

lemma unmarshalNested_quote (levels : ℕ) (b : Bytes) : unmarshalNested W levels (some ⟨.quote,b⟩) =
    (unmarshalBinaryQuote W b).bind (fun q => .ok (.quote q)) := by
  cases levels <;> rfl

lemma unmarshalNested_timestamped (levels : ℕ) (b : Bytes) :
    unmarshalNested W (levels + 1) (some ⟨.timestamped,b⟩) = (W.unmarshalTimestamped b).bind (fun t =>
      (unmarshalNested W levels t.2).bind (fun v => .ok (.timestamped t.1 v))) :=
  rfl

/-- Values round trip through the binary form. -/
lemma unmarshalNested_marshalBinary (hW : W.ReadsValues decimal) :
    ∀ {levels : ℕ} {b : Bytes}, v.InRange → v.nesting ≤ levels → v.marshalBinary decimal = .ok b →
      b.length < 2 ^ 64 → unmarshalNested W levels (some ⟨v.type,b⟩) = .ok v := by
  induction v with
  | decimal d =>
    intro levels b hrange _ h _
    rw [StreamValue.type,unmarshalNested_decimal,unmarshalBinaryDecimal_eq_ok.2 ⟨hW.decimal h,hrange⟩]
    rfl
  | quote q =>
    intro levels b hrange _ h hlen
    obtain ⟨bid,benchmark,ask,hbid,hbench,hask,rfl⟩ := marshalBinary_quote h
    have hq : unmarshalBinaryQuote W (marshalQuote bid benchmark ask) = .ok q := by
      simp only [unmarshalBinaryQuote,bind_ok_iff]
      exact ⟨_,hW.quote hlen,_,unmarshalBinaryDecimal_eq_ok.2 ⟨hW.decimal hbid,hrange.1⟩,_,
        unmarshalBinaryDecimal_eq_ok.2 ⟨hW.decimal hbench,hrange.2.1⟩,_,
        unmarshalBinaryDecimal_eq_ok.2 ⟨hW.decimal hask,hrange.2.2⟩,rfl⟩
    rw [StreamValue.type,unmarshalNested_quote,hq]
    rfl
  | timestamped t v ih =>
    intro levels b hrange hnest h hlen
    obtain ⟨sv,hsv,rfl⟩ := marshalBinary_timestamped h
    cases levels with
    | zero => exact absurd hnest (not_succ_le_zero _)
    | succ levels =>
      have hsvlen : sv.length < 2 ^ 64 := (length_le_marshalTimestamped t ⟨v.type,sv⟩).trans_lt hlen
      have hinner := ih hrange.2 (le_of_succ_le_succ hnest) hsv hsvlen
      rw [StreamValue.type.eq_3,unmarshalNested_timestamped,hW.timestamped hrange.1 hlen]
      simp only [Except.bind,hinner]

/-- A value that decoding lets through is read back from its encoding. -/
lemma unmarshalProtoStreamValue_toProto (hW : W.ReadsValues decimal) (hv : v.Decodable)
    {pb : StreamValueProto} (h : streamValueToProto decimal v = .ok pb) (hlen : pb.value.length < 2 ^ 64) :
    unmarshalProtoStreamValue W (some pb) = .ok v := by
  rw [streamValueToProto,bind_ok_iff] at h
  obtain ⟨b,hb,h⟩ := h
  cases h
  exact unmarshalNested_marshalBinary hW hv.inRange hv.nesting_le hb hlen

lemma inRange_of_unmarshalBinaryQuote (h : unmarshalBinaryQuote W b = .ok q) :
    StreamValue.InRange (.quote q) := by
  simp only [unmarshalBinaryQuote,bind_ok_iff,unmarshalBinaryDecimal_eq_ok] at h
  obtain ⟨_,_,bid,hbid,benchmark,hbench,ask,hask,h⟩ := h
  cases h
  exact ⟨hbid.2,hbench.2,hask.2⟩

variable {levels : ℕ}
lemma inRange_of_type_ne {enc : StreamValueProto} (ht : enc.type ≠ .timestamped)
    (h : unmarshalNested W levels (some enc) = .ok v) : v.InRange ∧ v.nesting = 0 := by
  obtain ⟨type,b⟩ := enc
  cases type with
  | decimal =>
    rw [unmarshalNested_decimal] at h
    obtain ⟨d,hd,⟨⟩⟩ := bind_ok_iff.1 h
    exact ⟨(unmarshalBinaryDecimal_eq_ok.1 hd).2,rfl⟩
  | quote =>
    rw [unmarshalNested_quote] at h
    obtain ⟨q,hq,⟨⟩⟩ := bind_ok_iff.1 h
    exact ⟨inRange_of_unmarshalBinaryQuote hq,rfl⟩
  | timestamped => exact absurd rfl ht
  | other code => cases levels <;> cases h

/-- What is decoded is in range and nested no deeper than allowed. -/
lemma inRange_of_unmarshalNested (hW : W.ReadsValues decimal) :
    ∀ {enc : Option StreamValueProto} {v : StreamValue}, unmarshalNested W levels enc = .ok v →
      v.InRange ∧ v.nesting ≤ levels := by
  induction levels with
  | zero =>
    rintro (_ | ⟨type,b⟩) v h
    · cases h
    by_cases ht : type = .timestamped
    · subst ht
      obtain ⟨⟨_,_ | _⟩,_,h⟩ := bind_ok_iff.1 h <;> cases h
    · obtain ⟨hrange,hnest⟩ := inRange_of_type_ne ht h
      exact ⟨hrange,hnest.le⟩
  | succ levels ih =>
    rintro (_ | ⟨type,b⟩) v h
    · cases h
    by_cases ht : type = .timestamped
    · subst ht
      obtain ⟨t,ht,h⟩ := bind_ok_iff.1 h
      obtain ⟨v',hv,⟨⟩⟩ := bind_ok_iff.1 h
      obtain ⟨hrange,hnest⟩ := ih hv
      exact ⟨⟨hW.timestamp_lt ht,hrange⟩,succ_le_succ hnest⟩
    · obtain ⟨hrange,hnest⟩ := inRange_of_type_ne ht h
      exact ⟨hrange,hnest.trans_le (Nat.zero_le _)⟩

/-- Decoding lets nothing else through. -/
lemma decodable_of_unmarshalProtoStreamValue (hW : W.ReadsValues decimal) {enc : Option StreamValueProto}
    (h : unmarshalProtoStreamValue W enc = .ok v) : v.Decodable :=
  ⟨(inRange_of_unmarshalNested hW h).1,(inRange_of_unmarshalNested hW h).2⟩

/-- Version and sign of an integer, then its magnitude. -/
def gobInt (n : ℤ) : Bytes := (if n < 0 then 3 else 2) :: bigEndian ((n.natAbs.size + 7) / 8) n.natAbs

def readGobInt : Bytes → Except String ℤ
  | [] => .ok 0
  | 2 :: magnitude => .ok (ofBigEndian magnitude)
  | 3 :: magnitude => .ok (-ofBigEndian magnitude)
  | _ => .error "malformed input"

lemma readGobInt_gobInt (n : ℤ) : readGobInt (gobInt n) = .ok n := by
  have hlt : n.natAbs < 256 ^ ((n.natAbs.size + 7) / 8) := by
    refine (lt_size_self n.natAbs).trans_le ?_
    rw [show 256 = 2 ^ 8 from rfl,← Nat.pow_mul]
    exact Nat.pow_le_pow_right (by decide) (by omega)
  have hread : ofBigEndian (bigEndian ((n.natAbs.size + 7) / 8) n.natAbs) = n.natAbs := by
    rw [ofBigEndian_bigEndian,mod_eq_of_lt hlt]
  by_cases hn : n < 0
  · rw [gobInt,if_pos hn,readGobInt,hread]
    exact congrArg Except.ok (by omega)
  · rw [gobInt,if_neg hn,readGobInt,hread]
    exact congrArg Except.ok (by omega)

/-- The exponent as a 32-bit number in two's complement, then the coefficient. -/
def marshalDecimal (d : Decimal) : Except String Bytes :=
  if -2 ^ 31 ≤ d.exponent ∧ d.exponent < 2 ^ 31 then
    .ok (bigEndian 4 (d.exponent % 2 ^ 32).toNat ++ gobInt d.coefficient)
  else .error "exponent out of range"

def readDecimal (b : Bytes) : Except String Decimal :=
  if b.length < 4 then .error "malformed input"
  else do
    let exponent : ℤ := ofBigEndian (b.take 4)
    let coefficient ← readGobInt (b.drop 4)
    .ok ⟨coefficient,if exponent < 2 ^ 31 then exponent else exponent - 2 ^ 32⟩

lemma readDecimal_marshalDecimal (h : marshalDecimal d = .ok b) : readDecimal b = .ok d := by
  unfold marshalDecimal at h
  split_ifs at h with hrange
  cases h
  have hexp : ((ofBigEndian (bigEndian 4 (d.exponent % 2 ^ 32).toNat) : ℕ) : ℤ) = d.exponent % 2 ^ 32 := by
    rw [ofBigEndian_bigEndian]
    omega
  have htake := @List.take_left' _ _ (gobInt d.coefficient) _ (length_bigEndian 4 (d.exponent % 2 ^ 32).toNat)
  have hdrop := @List.drop_left' _ _ (gobInt d.coefficient) _ (length_bigEndian 4 (d.exponent % 2 ^ 32).toNat)
  rw [readDecimal,if_neg (by simp),htake,hdrop,hexp,readGobInt_gobInt]
  simp only [ok_bind]
  refine congrArg Except.ok ?_
  have : (if d.exponent % 2 ^ 32 < 2 ^ 31 then d.exponent % 2 ^ 32 else d.exponent % 2 ^ 32 - 2 ^ 32) = d.exponent := by
    split_ifs <;> omega
  rw [this]

def readQuote (b : Bytes) : Except String (Bytes × Bytes × Bytes) :=
  match WireField.readAll b with
  | none => .error "malformed input"
  | some fields => .ok ((WireField.bytesAt 1 fields).flatten,(WireField.bytesAt 2 fields).flatten,
      (WireField.bytesAt 3 fields).flatten)

def StreamValueType.ofCode : ℕ → StreamValueType
  | 0 => .decimal
  | 1 => .quote
  | 2 => .timestamped
  | code => .other code

def readStreamValue (b : Bytes) : Option StreamValueProto :=
  (WireField.readAll b).map (fun fields =>
    ⟨.ofCode (WireField.numberAt 1 fields),(WireField.bytesAt 2 fields).flatten⟩)

def readTimestamped (b : Bytes) : Except String (ℕ × Option StreamValueProto) :=
  match WireField.readAll b with
  | none => .error "malformed input"
  | some fields => .ok (WireField.numberAt 1 fields % 2 ^ 64,(WireField.bytesAt 2 fields).head?.bind readStreamValue)

lemma ofCode_type (v : StreamValue) : StreamValueType.ofCode v.type.code = v.type := by
  cases v <;> rfl

lemma readQuote_marshalQuote {bid benchmark ask : Bytes} (h : (marshalQuote bid benchmark ask).length < 2 ^ 64) :
    readQuote (marshalQuote bid benchmark ask) = .ok (bid,benchmark,ask) := by
  have hlen : bid.length < 2 ^ 64 ∧ benchmark.length < 2 ^ 64 ∧ ask.length < 2 ^ 64 := by
    have h₁ := length_le_protoOptionalBytes 1 bid
    have h₂ := length_le_protoOptionalBytes 2 benchmark
    have h₃ := length_le_protoOptionalBytes 3 ask
    simp only [marshalQuote,length_append] at h
    omega
  have hfields : marshalQuote bid benchmark ask = (WireField.optBytes 1 bid ++ WireField.optBytes 2 benchmark ++
      WireField.optBytes 3 ask).flatMap WireField.encode := by
    simp [marshalQuote]
  have hrange : ∀ a ∈ WireField.optBytes 1 bid ++ WireField.optBytes 2 benchmark ++ WireField.optBytes 3 ask,
      a.InRange := by
    intro a ha
    rcases mem_append.1 ha with ha | ha
    · rcases mem_append.1 ha with ha | ha
      · exact inRange_of_mem_optBytes (by decide) hlen.1 ha
      · exact inRange_of_mem_optBytes (by decide) hlen.2.1 ha
    · exact inRange_of_mem_optBytes (by decide) hlen.2.2 ha
  rw [readQuote,hfields,readAll_flatMap hrange]
  simp

lemma readStreamValue_marshalStreamValue (h : (marshalStreamValue ⟨v.type,b⟩).length < 2 ^ 64) :
    readStreamValue (marshalStreamValue ⟨v.type,b⟩) = some ⟨v.type,b⟩ := by
  have hlen := length_le_protoOptionalBytes 2 b
  have hcode : v.type.code < 2 ^ 64 := by cases v <;> simp [StreamValue.type,StreamValueType.code]
  have hfields : marshalStreamValue ⟨v.type,b⟩ =
      (WireField.optVarint 1 v.type.code ++ WireField.optBytes 2 b).flatMap WireField.encode := by
    simp [marshalStreamValue]
  have hrange : ∀ a ∈ WireField.optVarint 1 v.type.code ++ WireField.optBytes 2 b, a.InRange := by
    simp only [marshalStreamValue,length_append] at h
    intro a ha
    rcases mem_append.1 ha with ha | ha
    · exact inRange_of_mem_optVarint (by decide) hcode ha
    · exact inRange_of_mem_optBytes (by decide) (by omega) ha
  rw [readStreamValue,hfields,readAll_flatMap hrange]
  simp [ofCode_type]

lemma readAll_marshalTimestamped {t : ℕ} (ht : t < 2 ^ 64) (h : (marshalTimestamped t ⟨v.type,b⟩).length < 2 ^ 64) :
    ∃ fields, WireField.readAll (marshalTimestamped t ⟨v.type,b⟩) = some fields ∧ WireField.numberAt 1 fields = t ∧
      (WireField.bytesAt 2 fields).head?.bind readStreamValue = some ⟨v.type,b⟩ := by
  have hbody : (marshalStreamValue ⟨v.type,b⟩).length < 2 ^ 64 := by
    simp only [marshalTimestamped,protoBytes,length_append] at h
    omega
  have hfields : marshalTimestamped t ⟨v.type,b⟩ = (WireField.optVarint 1 t ++
      [WireField.bytes 2 (marshalStreamValue ⟨v.type,b⟩)]).flatMap WireField.encode := by
    simp [marshalTimestamped,protoBytes,WireField.encode]
  have hrange : ∀ a ∈ WireField.optVarint 1 t ++ [WireField.bytes 2 (marshalStreamValue ⟨v.type,b⟩)], a.InRange := by
    intro a ha
    rcases mem_append.1 ha with ha | ha
    · exact inRange_of_mem_optVarint (by decide) ht ha
    · rw [mem_singleton.1 ha]
      exact ⟨by decide,hbody⟩
  refine ⟨_,hfields ▸ readAll_flatMap hrange,?_,?_⟩
  · rw [numberAt_append,numberAt_optVarint]
    rfl
  · rw [bytesAt_append,bytesAt_optVarint,nil_append]
    exact readStreamValue_marshalStreamValue hbody

lemma readTimestamped_marshalTimestamped {t : ℕ} (ht : t < 2 ^ 64)
    (h : (marshalTimestamped t ⟨v.type,b⟩).length < 2 ^ 64) :
    readTimestamped (marshalTimestamped t ⟨v.type,b⟩) = .ok (t,some ⟨v.type,b⟩) := by
  obtain ⟨fields,hread,hnumber,hvalue⟩ := readAll_marshalTimestamped ht h
  simp only [readTimestamped,hread,hnumber,hvalue,mod_eq_of_lt ht]

/-- Libraries with these readers read back what was written. -/
lemma readsValues_of_readers {W : WireLibs} (hd : W.unmarshalDecimal = readDecimal) (hq : W.unmarshalQuote = readQuote)
    (ht : W.unmarshalTimestamped = readTimestamped) : W.ReadsValues marshalDecimal where
  decimal h := by rw [hd,readDecimal_marshalDecimal h]
  quote h := by rw [hq,readQuote_marshalQuote h]
  timestamped h hlen := by rw [ht,readTimestamped_marshalTimestamped h hlen]
  timestamp_lt {b t v} h := by
    rw [ht,readTimestamped] at h
    split at h
    · contradiction
    · cases h
      exact mod_lt _ (by decide)

end DataStreams
