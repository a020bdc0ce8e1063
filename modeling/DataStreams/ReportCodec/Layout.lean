import DataStreams.Protocol.DecimalOps
import DataStreams.ReportCodec.Encodes

/-! The range check before a report and the encoders after it accept the same values. -/
namespace DataStreams
open Go Int

namespace ABIElement
/-- The value times the multiplier, exactly. An absent multiplier is one. -/
def scaled (e : ABIElement) (d : Decimal) : ℚ := d.toRat * (e.multiplier.getD 1 : ℤ)

lemma scale_eq_truncate (e : ABIElement) (d : Decimal) : e.scale d = truncate (e.scaled d) := by
  unfold scale scaled
  cases e.multiplier with
  | none =>
    rw [Decimal.bigInt_eq_truncate]
    simp
  | some m =>
    dsimp only
    rw [Decimal.bigInt_eq_truncate,Decimal.toRat_mul,Decimal.toRat_ofInt]
    rfl

end ABIElement

namespace SolidityInt
variable {s : SolidityInt} {v : ℤ}
def InRange (s : SolidityInt) (v : ℤ) : Prop := s.min ≤ v ∧ v ≤ s.max

lemma check_eq_ok : s.check v = .ok () ↔ s.InRange v := by
  unfold check InRange
  split_ifs with hnegative hout
  · have hmin : s.min = 0 := by simp [SolidityInt.min,hnegative.1]
    constructor
    · intro h
      cases h
    · intro h
      omega
  · constructor
    · intro h
      cases h
    · intro h
      omega
  · constructor
    · intro _
      omega
    · intro _
      rfl

lemma InRange.bounds (h : s.InRange v) : -2 ^ s.bits ≤ v ∧ v < 2 ^ s.bits := by
  obtain ⟨hlo,hhi⟩ := h
  have hpos : (0 : ℤ) < 2 ^ s.bits := Int.pow_pos (by decide)
  have hhalf : (2 : ℤ) ^ (s.bits - 1) ≤ 2 ^ s.bits := pow_le_pow_right₀ (by decide) (Nat.sub_le _ _)
  unfold SolidityInt.min at hlo
  unfold SolidityInt.max at hhi
  split_ifs at hlo hhi
  · omega
  · omega

end SolidityInt

variable {t : Text} {s : SolidityInt}
lemma pow_bits_of_parse (h : parseSolidityInt t = .ok s) :
    (256 : ℤ) ^ (s.bits / 8) = 2 ^ s.bits ∧ s.bits / 8 ≤ 32 := by
  have hmem := mem_solidityWidths_of_parse h
  simp only [solidityWidths,List.mem_map,List.mem_range] at hmem
  obtain ⟨i,hi,hbits⟩ := hmem
  rw [← hbits,Nat.mul_div_cancel_left _ (by decide),Int.pow_mul]
  exact ⟨rfl,hi⟩

variable {v : ℤ} {b : Bytes}
lemma encodePackedBigInt_iff : encodePackedBigInt v t = .ok b ↔
    ∃ s, parseSolidityInt t = .ok s ∧ s.InRange v ∧ b = twosComplement (s.bits / 8) v := by
  rw [encodePackedBigInt,bind_ok_iff]
  refine exists_congr fun s => and_congr_right fun hs => ?_
  rw [check_bind_ok_iff,SolidityInt.check_eq_ok,Except.ok.injEq]
  refine and_congr_right fun hrange => ?_
  have hbits := (pow_bits_of_parse hs).1
  have hbytes : (if s.signed then (v % 2 ^ s.bits).toNat else v.toNat) = (v % 256 ^ (s.bits / 8)).toNat := by
    rw [hbits]
    split_ifs with hsigned
    · rfl
    · have hlo : 0 ≤ v := by
        have hmin := hrange.1
        simpa [SolidityInt.min,hsigned] using hmin
      rw [emod_eq_of_lt hlo hrange.bounds.2]
  rw [hbytes,twosComplement]
  exact eq_comm

lemma signExtend_eq_word (hs : parseSolidityInt t = .ok s) (h : s.InRange v) :
    List.replicate (32 - s.bits / 8) (if v < 0 then 255 else 0) ++ twosComplement (s.bits / 8) v =
      twosComplement 32 v := by
  obtain ⟨hbits,hle⟩ := pow_bits_of_parse hs
  obtain ⟨hlo,hhi⟩ := h.bounds
  rw [← hbits] at hlo hhi
  rw [twosComplement_extend _ _ hlo hhi,Nat.sub_add_cancel hle]

lemma encodePaddedBigInt_iff : encodePaddedBigInt v t = .ok b ↔
    ∃ s, parseSolidityInt t = .ok s ∧ s.InRange v ∧
      b = List.replicate (32 - s.bits / 8) (if v < 0 then 255 else 0) ++ twosComplement (s.bits / 8) v := by
  simp only [encodePaddedBigInt,bind_ok_iff,encodePackedBigInt_iff]
  have hlength : ∀ k, (twosComplement k v).length = k := fun k => length_bigEndian k _
  constructor
  · rintro ⟨_,⟨s,hs,hrange,rfl⟩,h⟩
    rw [hlength,if_neg (not_lt.2 (pow_bits_of_parse hs).2)] at h
    exact ⟨s,hs,hrange,(Except.ok.inj h).symm⟩
  · rintro ⟨s,hs,hrange,hb⟩
    refine ⟨twosComplement (s.bits / 8) v,⟨s,hs,hrange,rfl⟩,?_⟩
    rw [hlength,if_neg (not_lt.2 (pow_bits_of_parse hs).2),hb]

/-- The bytes of one element. Packed, the type without bytes has none. Else the value is in the
range of the element's integer type, and they are its two's complement in the type's bytes;
padded, that is extended with the sign to the two's complement in 32 bytes. -/
def ABIElement.LaidOut (e : ABIElement) (packed : Bool) (d : Decimal) (b : Bytes) : Prop :=
  if packed ∧ e.type = abiZeroBytes then b = []
  else ∃ s, parseSolidityInt e.type = .ok s ∧ s.InRange (truncate (e.scaled d)) ∧
    if packed then b = twosComplement (s.bits / 8) (truncate (e.scaled d))
    else b = List.replicate (32 - s.bits / 8) (if truncate (e.scaled d) < 0 then 255 else 0) ++
        twosComplement (s.bits / 8) (truncate (e.scaled d)) ∧ b = twosComplement 32 (truncate (e.scaled d))

def ABISpec.LaidOut (s : ABISpec) (packed : Bool) (v : StreamValue) (b : Bytes) : Prop :=
  match v, s with
  | .decimal d, [e] => e.LaidOut packed d b
  | .timestamped at_ (.decimal d), [e₀,e₁] =>
    ∃ b₀ b₁, e₀.LaidOut packed (.ofInt at_) b₀ ∧ e₁.LaidOut packed d b₁ ∧ b₀ ++ b₁ = b
  | _, _ => False

def StreamValue.isReportValue : StreamValue → Bool
  | .decimal _ | .quote _ | .timestamped _ (.decimal _) => true
  | _ => false

namespace ABIElement
variable {e : ABIElement} {d : Decimal}
lemma encodePacked_iff_laidOut : e.encodePacked d = .ok b ↔ e.LaidOut true d b := by
  unfold encodePacked LaidOut
  by_cases hzero : e.type = abiZeroBytes
  · simp only [hzero,if_true,and_self,Except.ok.injEq]
    exact eq_comm
  · rw [if_neg hzero,if_neg (fun h => hzero h.2),encodePackedBigInt_iff,scale_eq_truncate]
    simp only [if_true]

lemma encodePadded_iff_laidOut : e.encodePadded d = .ok b ↔ e.LaidOut false d b := by
  unfold encodePadded LaidOut
  rw [if_neg (fun h => Bool.false_ne_true h.1),encodePaddedBigInt_iff,scale_eq_truncate]
  simp only [Bool.false_eq_true,if_false]
  refine exists_congr fun s => and_congr_right fun hs => and_congr_right fun hrange => ?_
  rw [signExtend_eq_word hs hrange,and_self]

end ABIElement

namespace ABISpec
variable {s : ABISpec} {v : StreamValue}
def encode (s : ABISpec) (packed : Bool) (v : StreamValue) : Except String Bytes :=
  if packed then s.encodePacked (some v) else s.encodePadded (some v)

lemma encodePacked_iff_laidOut (hv : v.isReportValue = true) :
    s.encodePacked (some v) = .ok b ↔ s.LaidOut true v b := by
  rcases v with d | q | ⟨at_,d | q | ⟨t,v⟩⟩
  · rcases s with _ | ⟨e₀,_ | ⟨e₁,s⟩⟩ <;>
      simp [encodePacked,LaidOut,ABIElement.encodePacked_iff_laidOut]
  · simp [encodePacked,LaidOut]
  · rcases s with _ | ⟨e₀,_ | ⟨e₁,_ | ⟨e₂,s⟩⟩⟩ <;>
      simp [encodePacked,LaidOut,bind_ok_iff,ABIElement.encodePackedValue_decimal,
        ABIElement.encodePacked_iff_laidOut]
  · cases hv
  · cases hv

lemma encodePadded_iff_laidOut (hv : v.isReportValue = true) :
    s.encodePadded (some v) = .ok b ↔ s.LaidOut false v b := by
  rcases v with d | q | ⟨at_,d | q | ⟨t,v⟩⟩
  · rcases s with _ | ⟨e₀,_ | ⟨e₁,s⟩⟩ <;>
      simp [encodePadded,LaidOut,ABIElement.encodePadded_iff_laidOut]
  · simp [encodePadded,LaidOut]
  · rcases s with _ | ⟨e₀,_ | ⟨e₁,_ | ⟨e₂,s⟩⟩⟩ <;>
      simp [encodePadded,LaidOut,bind_ok_iff,ABIElement.encodePadded_iff_laidOut]
  · cases hv
  · cases hv

/-- Packed, a value that is encoded passed the check. Others than report values are excluded,
since the type without bytes takes any nested value. -/
lemma checkValue_of_encodePacked (hv : v.isReportValue = true) (h : s.encodePacked (some v) = .ok b) :
    s.checkValue (some v) true = .ok () := by
  rcases v with d | q | ⟨at_,d | q | ⟨t,v⟩⟩
  · rcases s with _ | ⟨e₀,_ | ⟨e₁,s⟩⟩
    · cases h
    · exact ABIElement.encodePacked_eq_ok.1 ⟨b,h⟩
    · cases h
  · cases h
  · rcases s with _ | ⟨e₀,_ | ⟨e₁,_ | ⟨e₂,s⟩⟩⟩
    · cases h
    · cases h
    · obtain ⟨b₀,h₀,h⟩ := bind_ok_iff.1 h
      obtain ⟨b₁,h₁,_⟩ := bind_ok_iff.1 h
      rw [ABIElement.encodePackedValue_decimal] at h₁
      exact check_bind_ok_iff.2 ⟨ABIElement.encodePacked_eq_ok.1 ⟨b₀,h₀⟩,ABIElement.encodePacked_eq_ok.1 ⟨b₁,h₁⟩⟩
    · cases h
  · cases hv
  · cases hv

/-- The range check accepts exactly the values the encoder of the mode encodes, and what it
writes is the layout of the elements. -/
theorem checkValue_iff_encodes (s : ABISpec) (packed : Bool) {v : StreamValue} (hv : v.isReportValue = true) :
    (s.checkValue (some v) packed = .ok () ↔ ∃ b, s.encode packed v = .ok b) ∧
      ∀ b, s.encode packed v = .ok b ↔ s.LaidOut packed v b := by
  cases packed with
  | false => exact ⟨encodePadded_eq_ok.symm,fun b => encodePadded_iff_laidOut hv⟩
  | true =>
    refine ⟨⟨encodePacked_of_checkValue,?_⟩,fun b => encodePacked_iff_laidOut hv⟩
    rintro ⟨b,hb⟩
    exact checkValue_of_encodePacked hv hb

/-- A timestamp without bytes and a price of -1.5 in tenths, as a 16-bit integer. -/
theorem checkValue_iff_encodes_negative :
    StreamValue.isReportValue (.timestamped 7 (.decimal ⟨-15,-1⟩)) = true ∧
      ABISpec.LaidOut [⟨abiZeroBytes,none⟩,⟨['i','n','t','1','6'],some 10⟩] true
        (.timestamped 7 (.decimal ⟨-15,-1⟩)) [255,241] :=
  ⟨rfl,((checkValue_iff_encodes [⟨abiZeroBytes,none⟩,⟨['i','n','t','1','6'],some 10⟩] true rfl).2 [255,241]).1
    (by decide +kernel)⟩

end ABISpec
end DataStreams
