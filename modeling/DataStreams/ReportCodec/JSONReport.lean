import DataStreams.Protocol.DecimalOps
import DataStreams.Protocol.ModeAgreement
import DataStreams.Protocol.StreamValueText

/-! The chain-agnostic codec writes a report as one JSON object and reads it back up to the
scale of its numbers. -/
namespace DataStreams
open List Nat

def hexDigit (n : ℕ) : Char := Nat.digitChar n

def hexEncode (b : Bytes) : Text := b.flatMap (fun x => [hexDigit (x.toNat / 16),hexDigit (x.toNat % 16)])

/-- Digits are read in either case. -/
def hexValue (c : Char) : Option ℕ :=
  if '0' ≤ c ∧ c ≤ '9' then some (c.toNat - '0'.toNat)
  else if 'a' ≤ c ∧ c ≤ 'f' then some (c.toNat - 'a'.toNat + 10)
  else if 'A' ≤ c ∧ c ≤ 'F' then some (c.toNat - 'A'.toNat + 10)
  else none

def hexDecode : Text → Except String Bytes
  | [] => .ok []
  | [_] => .error "encoding/hex: odd length hex string"
  | a :: b :: rest =>
    match hexValue a, hexValue b with
    | some x, some y => do
      let bytes ← hexDecode rest
      .ok (UInt8.ofNat (16 * x + y) :: bytes)
    | _, _ => .error "encoding/hex: invalid byte"

variable {n : ℕ}
lemma hexValue_hexDigit (h : n < 16) : hexValue (hexDigit n) = some n := by
  have hall : ∀ i : Fin 16, hexValue (hexDigit i) = some i.val := by decide
  exact hall ⟨n,h⟩

lemma hexDecode_hexEncode (b : Bytes) : hexDecode (hexEncode b) = .ok b := by
  induction b with
  | nil => rfl
  | cons x b ih =>
    have hlt := x.toNat_lt
    have hhigh := hexValue_hexDigit (show x.toNat / 16 < 16 by omega)
    have hlow := hexValue_hexDigit (show x.toNat % 16 < 16 by omega)
    have hbyte : UInt8.ofNat (16 * (x.toNat / 16) + x.toNat % 16) = x := by
      rw [div_add_mod]
      exact UInt8.ofNat_toNat
    have hcons : hexEncode (x :: b) = hexDigit (x.toNat / 16) :: hexDigit (x.toNat % 16) :: hexEncode b := rfl
    rw [hcons,hexDecode]
    simp only [hhigh,hlow,ih,Go.ok_bind,hbyte]

/-- A report as the plugin hands it to the codec. -/
structure ProtocolReport where
  configDigest : ConfigDigest
  seqNr : ℕ
  channelID : ChannelID
  validAfterNanoseconds : ℕ
  observationTimestampNanoseconds : ℕ
  values : List (Option StreamValue)
  specimen : Bool

/-- The object of a report. Its digest is written by its own method and read as text. -/
structure JSONReport (Digest : Type) where
  configDigest : Digest
  seqNr : ℕ
  channelID : ChannelID
  validAfterNanoseconds : ℕ
  observationTimestampNanoseconds : ℕ
  values : List TypedTextStreamValue
  specimen : Bool
  deriving DecidableEq

structure JSONReportLibs extends TextLibs where
  marshalReport : JSONReport ConfigDigest → Except String Bytes
  unmarshalReport : Bytes → Except String (JSONReport Text)

def JSONReport.hexDigest (e : JSONReport ConfigDigest) : JSONReport Text :=
  ⟨hexEncode (bigEndian 32 e.configDigest),e.seqNr,e.channelID,e.validAfterNanoseconds,
    e.observationTimestampNanoseconds,e.values,e.specimen⟩

/-- The library reads back this object, with the hexadecimal form of its digest. -/
def JSONReportLibs.ReadsReport (T : JSONReportLibs) (e : JSONReport ConfigDigest) : Prop :=
  ∃ b, T.marshalReport e = .ok b ∧ T.unmarshalReport b = .ok e.hexDigest

def ProtocolReport.toJSON (T : JSONReportLibs) (r : ProtocolReport) : Except String (JSONReport ConfigDigest) := do
  let values ← r.values.mapM (newTypedTextStreamValue T.toTextLibs)
  .ok ⟨r.configDigest,r.seqNr,r.channelID,r.validAfterNanoseconds,r.observationTimestampNanoseconds,values,r.specimen⟩

def encodeJSONReport (T : JSONReportLibs) (r : ProtocolReport) : Except String Bytes := do
  let e ← r.toJSON T
  T.marshalReport e

/-- A report without a sequence number was never written by a plugin. -/
def decodeJSONReport (T : JSONReportLibs) (b : Bytes) : Except String ProtocolReport := do
  let d ← T.unmarshalReport b
  if d.seqNr = 0 then .error "missing SeqNr"
  else do
    let digest ← hexDecode d.configDigest
    if digest.length ≠ 32 then .error "invalid ConfigDigest"
    else do
      let values ← d.values.mapM (fun v => unmarshalTypedTextStreamValue T.toTextLibs (some v))
      .ok ⟨ofBigEndian digest,d.seqNr,d.channelID,d.validAfterNanoseconds,d.observationTimestampNanoseconds,
        values.map some,d.specimen⟩

/-- The same numbers under the same observation times. -/
def StreamValue.SameReading (v w : StreamValue) : Prop := v.SameNumber w ∧ v.timestamps = w.timestamps

variable {T : TextLibs} {R : JSONReportLibs}
lemma typedText_roundTrip (hT : T.ReadsText) {v : StreamValue} (hv : v.Decodable) :
    ∃ t, newTypedTextStreamValue T (some v) = .ok t ∧
      ∃ w, unmarshalTypedTextStreamValue T (some t) = .ok w ∧ v.SameReading w := by
  obtain ⟨b,hb,-,w,hw,hsame,htimes⟩ := StreamValue.unmarshalTextNested_marshalText hT hv.inRange hv.nesting_le
  refine ⟨⟨v.type,b⟩,?_,w,hw,hsame,htimes⟩
  simp only [newTypedTextStreamValue,hb,Go.ok_bind]

variable {values : List StreamValue}
lemma typedTexts_roundTrip (hT : T.ReadsText) (hvalues : ∀ v ∈ values, v.Decodable) :
    ∃ ts, (values.map some).mapM (newTypedTextStreamValue T) = .ok ts ∧
      ∃ ws, ts.mapM (fun t => unmarshalTypedTextStreamValue T (some t)) = .ok ws ∧
        List.Forall₂ StreamValue.SameReading values ws := by
  induction values with
  | nil => exact ⟨[],rfl,[],rfl,.nil⟩
  | cons v values ih =>
    obtain ⟨ts,hts,ws,hws,hall⟩ := ih (fun u hu => hvalues u (mem_cons_of_mem v hu))
    obtain ⟨t,ht,w,hw,hsame⟩ := typedText_roundTrip hT (hvalues v mem_cons_self)
    refine ⟨t :: ts,?_,w :: ws,?_,.cons hsame hall⟩
    · rw [map_cons,mapM_cons,ht,hts]
      rfl
    · rw [mapM_cons,hw,hws]
      rfl

/-- A report reads back with values that are read alike. -/
lemma jsonReport_roundTrip (hT : R.ReadsText) {r : ProtocolReport}
    (hseqNr : 1 ≤ r.seqNr) (hdigest : r.configDigest < 2 ^ 256) (hsome : r.values = values.map some)
    (hvalues : ∀ v ∈ values, v.Decodable) :
    ∃ e, r.toJSON R = .ok e ∧ (R.ReadsReport e →
      ∃ b, encodeJSONReport R r = .ok b ∧ ∃ ws, List.Forall₂ StreamValue.SameReading values ws ∧
        decodeJSONReport R b = .ok { r with values := ws.map some }) := by
  obtain ⟨ts,hts,ws,hws,hall⟩ := typedTexts_roundTrip hT hvalues
  have htoJSON : r.toJSON R = .ok ⟨r.configDigest,r.seqNr,r.channelID,r.validAfterNanoseconds,
      r.observationTimestampNanoseconds,ts,r.specimen⟩ := by
    rw [ProtocolReport.toJSON,hsome,hts]
    rfl
  refine ⟨_,htoJSON,?_⟩
  rintro ⟨b,hmarshal,hunmarshal⟩
  have hvalue : ofBigEndian (bigEndian 32 r.configDigest) = r.configDigest := by
    rw [ofBigEndian_bigEndian]
    exact mod_eq_of_lt (hdigest.trans_eq (by norm_num))
  refine ⟨b,?_,ws,hall,?_⟩
  · rw [encodeJSONReport,htoJSON]
    exact hmarshal
  · rw [decodeJSONReport,hunmarshal,Go.ok_bind,JSONReport.hexDigest,if_neg (one_le_iff_ne_zero.1 hseqNr)]
    simp only [hexDecode_hexEncode,Go.ok_bind,length_bigEndian,ne_eq,not_true_eq_false,if_false,hws,hvalue]

variable {W : WireLibs} {decimal : DecimalEncoder} {R : JSONReportLibs}
/-- Decimals of an allowed exponent have a binary form. -/
def WritesInRange (decimal : DecimalEncoder) : Prop :=
  ∀ d : Decimal, d.ExponentInRange → ∃ b, decimal d = .ok b

variable {v : StreamValue}
lemma marshalBinary_of_inRange (hD : WritesInRange decimal) (h : v.InRange) :
    ∃ b, v.marshalBinary decimal = .ok b := by
  induction v with
  | decimal d => exact hD d h
  | quote q =>
    obtain ⟨bid,hbid⟩ := hD _ h.1
    obtain ⟨benchmark,hbenchmark⟩ := hD _ h.2.1
    obtain ⟨ask,hask⟩ := hD _ h.2.2
    exact ⟨_,by rw [StreamValue.marshalBinary,hbid,hbenchmark,hask]; rfl⟩
  | timestamped t v ih =>
    obtain ⟨b,hb⟩ := ih h.2
    exact ⟨_,by rw [StreamValue.marshalBinary,hb]; rfl⟩

lemma proto_roundTrip (hW : W.ReadsValues decimal) (hD : WritesInRange decimal) (hv : v.Decodable) :
    ∃ pb, streamValueToProto decimal v = .ok pb ∧
      (pb.value.length < 2 ^ 64 → unmarshalProtoStreamValue W (some pb) = .ok v) := by
  obtain ⟨b,hb⟩ := marshalBinary_of_inRange hD hv.inRange
  have hproto : streamValueToProto decimal v = .ok ⟨v.type,b⟩ := by
    rw [streamValueToProto,hb]
    rfl
  exact ⟨_,hproto,unmarshalProtoStreamValue_toProto hW hv hproto⟩

/-- Values that decode at all survive the protobuf form unchanged and the text form and whole
JSON reports as the same readings; and no decoder opens more than one layer beyond the
nesting limit, where it fails. -/
theorem streamValue_codecs (hW : W.ReadsValues decimal) (hD : WritesInRange decimal) (hR : R.ReadsText) :
    (∀ v : StreamValue, v.Decodable → ∃ pb, streamValueToProto decimal v = .ok pb ∧
      (pb.value.length < 2 ^ 64 → unmarshalProtoStreamValue W (some pb) = .ok v)) ∧
    (∀ v : StreamValue, v.Decodable → ∃ t, newTypedTextStreamValue R.toTextLibs (some v) = .ok t ∧
      ∃ w, unmarshalTypedTextStreamValue R.toTextLibs (some t) = .ok w ∧ v.SameReading w) ∧
    (∀ (r : ProtocolReport) (values : List StreamValue), 1 ≤ r.seqNr → r.configDigest < 2 ^ 256 →
      r.values = values.map some → (∀ v ∈ values, v.Decodable) → ∃ e, r.toJSON R = .ok e ∧ (R.ReadsReport e →
        ∃ b, encodeJSONReport R r = .ok b ∧ ∃ ws, List.Forall₂ StreamValue.SameReading values ws ∧
          decodeJSONReport R b = .ok { r with values := ws.map some })) ∧
    (∀ pb, unmarshalProtoStreamValue W (some pb) =
        (Layer.run (protoLayer W) StreamValue.timestamped nestingTooDeep maxStreamValueNesting pb).1 ∧
      (Layer.run (protoLayer W) StreamValue.timestamped nestingTooDeep maxStreamValueNesting pb).2 ≤
        maxStreamValueNesting + 1 ∧
      (Layer.Nests (protoLayer W) (maxStreamValueNesting + 1) pb →
        unmarshalProtoStreamValue W (some pb) = .error nestingTooDeep)) ∧
    (∀ t, unmarshalTypedTextStreamValue R.toTextLibs (some t) =
        (Layer.run (textLayer R.toTextLibs) StreamValue.timestamped nestingTooDeep maxStreamValueNesting t).1 ∧
      (Layer.run (textLayer R.toTextLibs) StreamValue.timestamped nestingTooDeep maxStreamValueNesting t).2 ≤
        maxStreamValueNesting + 1 ∧
      (Layer.Nests (textLayer R.toTextLibs) (maxStreamValueNesting + 1) t →
        unmarshalTypedTextStreamValue R.toTextLibs (some t) = .error nestingTooDeep)) := by
  refine ⟨fun v hv => proto_roundTrip hW hD hv,fun v hv => typedText_roundTrip hR hv,
    fun r values hseqNr hdigest hsome hvalues => jsonReport_roundTrip hR hseqNr hdigest hsome hvalues,?_,?_⟩
  · intro pb
    refine ⟨unmarshalNested_eq_run _ pb,Layer.run_opened_le _ pb,?_⟩
    intro hdeep
    rw [unmarshalProtoStreamValue,unmarshalNested_eq_run,Layer.run_of_nests hdeep]
  · intro t
    refine ⟨unmarshalTextNested_eq_run _ t,Layer.run_opened_le _ t,?_⟩
    intro hdeep
    rw [unmarshalTypedTextStreamValue,unmarshalTextNested_eq_run,Layer.run_of_nests hdeep]

/-- The decimal package on numbers as it prints them. -/
def readNumber (sign : ℤ) (t : Text) : Except String Decimal :=
  let (whole,rest) := t.span Char.isDigit
  .ok ⟨sign * Nat.ofDigitChars 10 (whole ++ rest.tail) 0,-rest.tail.length⟩

def newFromString : Text → Except String Decimal
  | '-' :: t => readNumber (-1) t
  | t => readNumber 1 t

lemma ofDigitChars_zeros {zeros : Text} (h : ∀ c ∈ zeros, c = '0') (n : ℕ) :
    Nat.ofDigitChars 10 zeros n = n * 10 ^ zeros.length := by
  induction zeros generalizing n with
  | nil => exact (mul_one n).symm
  | cons c zeros ih =>
    obtain ⟨rfl,hzeros⟩ := forall_mem_cons.1 h
    rw [ofDigitChars_cons,ih hzeros,length_cons,Nat.sub_self,add_zero,pow_succ]
    ring

/-- Digits before and after the point that print a decimal without its sign. -/
structure PrintedDigits (d : Decimal) (digits : Text × Text) : Prop where
  isDigit : ∀ c ∈ digits.1 ++ digits.2, c.isDigit = true
  whole_ne_nil : digits.1 ≠ []
  length_le : (digits.2.length : ℤ) ≤ max 0 (-d.exponent)
  value : (d.coefficient.natAbs : ℚ) * 10 ^ d.exponent =
    Nat.ofDigitChars 10 (digits.1 ++ digits.2) 0 * 10 ^ (-digits.2.length : ℤ)

lemma isDigit_of_mem_decimalDigits {c : Char} (h : c ∈ decimalDigits n) : c.isDigit = true :=
  isDigit_of_mem_toDigits (by decide) (by decide) h

lemma ofDigitChars_decimalDigits (n : ℕ) : Nat.ofDigitChars 10 (decimalDigits n) 0 = n :=
  ofDigitChars_toDigits (by decide) (by decide)

lemma printedDigits_of_nonneg {d : Decimal} (h : 0 ≤ d.exponent) : PrintedDigits d (decimalDigits d.bigInt.natAbs,[]) where
  isDigit c hc := isDigit_of_mem_decimalDigits (by simpa using hc)
  whole_ne_nil := Nat.toDigits_ne_nil
  length_le := le_max_left _ _
  value := by
    obtain ⟨e,he⟩ := Int.eq_ofNat_of_zero_le h
    rw [append_nil,ofDigitChars_decimalDigits,Decimal.bigInt,if_pos h,he,Int.natAbs_mul,Int.natAbs_pow]
    simp

/-- The digits are cut where the places start, and the zeros at the end are dropped. -/
lemma printedDigits_of_neg {d : Decimal} {places : ℕ} {digits : Text} (hexp : d.exponent = -places)
    (hlength : places < digits.length) (hdigits : ∀ c ∈ digits, c.isDigit = true)
    (hvalue : Nat.ofDigitChars 10 digits 0 = d.coefficient.natAbs) :
    PrintedDigits d (digits.take (digits.length - places),(digits.drop (digits.length - places)).rdropWhile (· = '0')) := by
  generalize hwhole : digits.take (digits.length - places) = whole
  generalize hfraction : (digits.drop (digits.length - places)).rdropWhile (· = '0') = fraction
  generalize hzeros : (digits.drop (digits.length - places)).rtakeWhile (· = '0') = zeros
  have hsplit : fraction ++ zeros = digits.drop (digits.length - places) := by
    rw [← hfraction,← hzeros,rdropWhile_append_rtakeWhile]
  have hall : whole ++ fraction ++ zeros = digits := by
    rw [append_assoc,hsplit,← hwhole,take_append_drop]
  have hplaces : fraction.length + zeros.length = places := by
    rw [← length_append,hsplit,length_drop]
    omega
  refine ⟨fun c hc => hdigits c (hall ▸ mem_append_left _ hc),?_,?_,?_⟩
  · rw [← hwhole,Ne,take_eq_nil_iff]
    rintro (h | h)
    · omega
    · rw [h] at hlength
      exact absurd hlength (Nat.not_lt_zero _)
  · rw [hexp,neg_neg]
    exact le_max_of_le_right (by exact_mod_cast hplaces ▸ Nat.le_add_right _ _)
  · have hzero : ∀ c ∈ zeros, c = '0' := by
      intro c hc
      rw [← hzeros] at hc
      simpa using mem_rtakeWhile_imp hc
    rw [← hvalue,← hall,ofDigitChars_append,ofDigitChars_zeros hzero,hexp,← hplaces]
    push_cast
    rw [neg_add,zpow_add₀ (by norm_num),zpow_neg _ (zeros.length : ℤ),zpow_natCast]
    field_simp

lemma printedDigits_textDigits (d : Decimal) : PrintedDigits d d.textDigits := by
  unfold Decimal.textDigits
  split_ifs with hexp
  · exact printedDigits_of_nonneg hexp
  · refine printedDigits_of_neg (by omega) ?_ ?_ ?_
    · rw [length_leftpad]
      omega
    · intro c hc
      rcases mem_append.1 hc with hc | hc
      · rw [eq_of_mem_replicate hc]
        decide
      · exact isDigit_of_mem_decimalDigits hc
    · rw [leftpad,ofDigitChars_append,ofDigitChars_zeros fun c hc => eq_of_mem_replicate hc,zero_mul]
      exact ofDigitChars_decimalDigits _

lemma readNumber_withPoint {d : Decimal} {digits : Text × Text} (h : PrintedDigits d digits) (sign : ℤ) :
    readNumber sign (Decimal.withPoint digits) =
      .ok ⟨sign * Nat.ofDigitChars 10 (digits.1 ++ digits.2) 0,-digits.2.length⟩ := by
  have hwhole : ∀ c ∈ digits.1, c.isDigit = true := fun c hc => h.isDigit c (mem_append_left _ hc)
  unfold Decimal.withPoint
  split_ifs with hnil
  · have hspan : digits.1.span Char.isDigit = (digits.1,[]) := by
      rw [span_eq_takeWhile_dropWhile,takeWhile_eq_self_iff.2 hwhole,dropWhile_eq_nil_iff.2 hwhole]
    simp only [readNumber,hspan,hnil,tail_nil]
  · simp only [readNumber,span_append hwhole (by decide : '.'.isDigit = false),tail_cons]

lemma withPoint_eq_cons {d : Decimal} {digits : Text × Text} (h : PrintedDigits d digits) :
    ∃ c rest, Decimal.withPoint digits = c :: rest ∧ c.isDigit = true ∧ ∀ x ∈ rest, (x.isDigit || x = '.') = true := by
  obtain ⟨c,rest,hwhole⟩ := exists_cons_of_ne_nil h.whole_ne_nil
  have hdigits : ∀ x ∈ rest ++ digits.2, x.isDigit = true := fun x hx =>
    h.isDigit x (by rw [hwhole,cons_append]; exact mem_cons_of_mem _ hx)
  have hc : c.isDigit = true := h.isDigit c (by rw [hwhole]; exact mem_cons_self)
  unfold Decimal.withPoint
  split_ifs with hnil
  · refine ⟨c,rest,hwhole,hc,fun x hx => ?_⟩
    rw [hdigits x (mem_append_left _ hx),Bool.true_or]
  · refine ⟨c,rest ++ '.' :: digits.2,by rw [hwhole,cons_append],hc,fun x hx => ?_⟩
    rcases mem_append.1 hx with hx | hx
    · rw [hdigits x (mem_append_left _ hx),Bool.true_or]
    · rcases mem_cons.1 hx with rfl | hx
      · decide
      · rw [hdigits x (mem_append_right _ hx),Bool.true_or]

lemma toRat_of_printed {d : Decimal} {digits : Text × Text} (h : PrintedDigits d digits) {sign : ℤ}
    (hsign : d.coefficient = sign * d.coefficient.natAbs) :
    (⟨sign * Nat.ofDigitChars 10 (digits.1 ++ digits.2) 0,-digits.2.length⟩ : Decimal).toRat = d.toRat := by
  have hcoeff : (d.coefficient : ℚ) = sign * (d.coefficient.natAbs : ℚ) := by
    conv_lhs => rw [hsign]
    rw [Int.cast_mul,Int.cast_natCast]
  rw [Decimal.toRat,Decimal.toRat,hcoeff,mul_assoc,h.value,Int.cast_mul,Int.cast_natCast,mul_assoc]

lemma newFromString_textChars (d : Decimal) :
    ∃ e, newFromString d.textChars = .ok e ∧ e.toRat = d.toRat ∧ (d.ExponentInRange → e.ExponentInRange) := by
  have h := printedDigits_textDigits d
  have hrange : d.ExponentInRange → (⟨0,-d.textDigits.2.length⟩ : Decimal).ExponentInRange := by
    intro hd
    have hlow : -1000 ≤ d.exponent := hd.1
    have hlength := h.length_le
    exact ⟨show (-1000 : ℤ) ≤ _ by dsimp only; omega,show _ ≤ (1000 : ℤ) by dsimp only; omega⟩
  unfold Decimal.textChars
  split_ifs with hneg
  · exact ⟨_,readNumber_withPoint h (-1),toRat_of_printed h (by omega),hrange⟩
  · obtain ⟨c,rest,hcons,hc,-⟩ := withPoint_eq_cons h
    have hread : newFromString (Decimal.withPoint d.textDigits) = readNumber 1 (Decimal.withPoint d.textDigits) := by
      rw [hcons,newFromString]
      rintro t ⟨⟩
      exact absurd hc (by decide)
    exact ⟨_,hread.trans (readNumber_withPoint h 1),toRat_of_printed h (by omega),hrange⟩

lemma isQuoteNumber_textChars (d : Decimal) : isQuoteNumber d.textChars = true := by
  obtain ⟨c,rest,hcons,hc,hrest⟩ := withPoint_eq_cons (printedDigits_textDigits d)
  have hall : (c :: rest).all (fun x => x.isDigit || x = '.') = true := by
    rw [all_cons,hc,Bool.true_or,Bool.true_and,all_eq_true]
    exact hrest
  unfold Decimal.textChars
  split_ifs with hneg
  · rw [hcons,isQuoteNumber,hall]
    rfl
  · rw [hcons]
    unfold isQuoteNumber
    split
    · next heq =>
      rw [(List.cons.inj heq).1] at hc
      exact absurd hc (by decide)
    · rw [hall]
      rfl

def escapeChar (c : Char) : Text :=
  if c = '"' then ['\\','"'] else if c = '\\' then ['\\','\\'] else if c = '\n' then ['\\','n'] else [c]

/-- A JSON string up to its end, with the text behind it. -/
def unescape : Text → Option (Text × Text)
  | '"' :: t => some ([],t)
  | '\\' :: c :: t => (unescape t).map fun (s,rest) => ((if c = 'n' then '\n' else c) :: s,rest)
  | c :: t => (unescape t).map fun (s,rest) => (c :: s,rest)
  | [] => none

lemma unescape_flatMap (s rest : Text) : unescape (s.flatMap escapeChar ++ '"' :: rest) = some (s,rest) := by
  induction s with
  | nil => simp [unescape]
  | cons c s ih =>
    rw [flatMap_cons,append_assoc,escapeChar]
    split_ifs with hquote hslash hline
    · simp [unescape,ih,hquote]
    · simp [unescape,ih,hslash]
    · simp [unescape,ih,hline]
    · simp [unescape,ih,hslash]

/-- `{"t":n,"v":"s"}`, with the type as a digit. -/
def marshalTypedText (t : TypedTextStreamValue) : Except String Text :=
  .ok ('\x7b' :: '"' :: 't' :: '"' :: ':' :: Nat.digitChar t.type.code :: ',' :: '"' :: 'v' :: '"' :: ':' :: '"' ::
    (t.serializedStreamValue.flatMap escapeChar ++ ['"','\x7d']))

def unmarshalTypedText : Text → Except String TypedTextStreamValue
  | '\x7b' :: '"' :: 't' :: '"' :: ':' :: digit :: ',' :: '"' :: 'v' :: '"' :: ':' :: '"' :: t =>
    match unescape t with
    | some (s,['\x7d']) => .ok ⟨.ofCode (digit.toNat - '0'.toNat),s⟩
    | _ => .error "malformed input"
  | _ => .error "malformed input"

lemma unmarshalTypedText_marshal (v : StreamValue) (s : Text) :
    ∃ t, marshalTypedText ⟨v.type,s⟩ = .ok t ∧ unmarshalTypedText t = .ok ⟨v.type,s⟩ := by
  refine ⟨_,rfl,?_⟩
  rw [unmarshalTypedText,unescape_flatMap]
  cases v <;> rfl

/-- What the decimal and JSON packages write and read of stream values. -/
def printedText : TextLibs where
  json := .rejecting
  decimalFromString := newFromString
  sha256 := digest
  decimalString := Decimal.textChars
  marshalTyped := marshalTypedText
  unmarshalTyped := unmarshalTypedText

lemma readsText_printedText : printedText.ReadsText where
  plain := isQuoteNumber_textChars
  decimal d h := by
    obtain ⟨e,hread,hvalue,hrange⟩ := newFromString_textChars d
    exact ⟨e,hread,hvalue,hrange h⟩
  typed v s hs := by
    obtain ⟨t,ht,hread⟩ := unmarshalTypedText_marshal v s
    cases ht
    refine ⟨_,rfl,cons_ne_nil _ _,?_,hread⟩
    have hescaped : '\n' ∉ s.flatMap escapeChar := by
      intro hmem
      obtain ⟨c,hc,hline⟩ := mem_flatMap.1 hmem
      unfold escapeChar at hline
      split_ifs at hline with hquote hslash hbreak
      · exact absurd hline (by decide)
      · exact absurd hline (by decide)
      · exact absurd hline (by decide)
      · exact hbreak (mem_singleton.1 hline).symm
    cases v <;> simp [hescaped,StreamValue.type,StreamValueType.code,Nat.digitChar]

def reportText (e : JSONReport ConfigDigest) : JSONText :=
  .object [("ConfigDigest",.string (chars (hexEncode (bigEndian 32 e.configDigest)))),("SeqNr",.number e.seqNr),
    ("ChannelID",.number e.channelID),("ValidAfterNanoseconds",.number e.validAfterNanoseconds),
    ("ObservationTimestampNanoseconds",.number e.observationTimestampNanoseconds),
    ("Values",.array (e.values.map fun v => ⟨chars ((marshalTypedText v).toOption.getD []),[]⟩)),
    ("Specimen",⟨ascii (toString e.specimen),[]⟩)]

def printedReports (reports : List (JSONReport ConfigDigest)) : JSONReportLibs :=
  { printedText with
    marshalReport := fun e => .ok (reportText e).bytes
    unmarshalReport := fromTable (reports.map fun e => ((reportText e).bytes,e.hexDigest)) }

lemma writesInRange_marshalDecimal : WritesInRange marshalDecimal := by
  intro d hd
  have hrange : -2 ^ 31 ≤ d.exponent ∧ d.exponent < 2 ^ 31 := by
    have hlow : -1000 ≤ d.exponent := hd.1
    have hhigh : d.exponent ≤ 1000 := hd.2
    omega
  exact ⟨_,if_pos hrange⟩

def stampedTwice : StreamValue := .timestamped 7 (.timestamped 5 (.quote ⟨⟨-10,-1⟩,⟨0,0⟩,⟨25,3⟩⟩))

lemma decodable_stampedTwice : stampedTwice.Decodable :=
  ⟨⟨by decide,by decide,by decide,by decide,by decide⟩,by decide⟩

def stampedReport : ProtocolReport := ⟨12,3,4,5,6,[some stampedTwice],false⟩

def stampedJSON : JSONReport ConfigDigest :=
  ⟨12,3,4,5,6,[⟨.timestamped,(stampedTwice.marshalText printedText).toOption.getD []⟩],false⟩

theorem streamValue_codecs_stampedTwice :
    ∃ b, encodeJSONReport (printedReports [stampedJSON]) stampedReport = .ok b ∧
      ∃ ws, List.Forall₂ StreamValue.SameReading [stampedTwice] ws ∧
        decodeJSONReport (printedReports [stampedJSON]) b = .ok { stampedReport with values := ws.map some } := by
  obtain ⟨-,-,hreport,-⟩ := streamValue_codecs readsValues_valueLibs writesInRange_marshalDecimal
    (R := printedReports [stampedJSON]) readsText_printedText
  obtain ⟨e,he,hread⟩ := hreport stampedReport [stampedTwice] (by decide) (by decide) rfl
    (fun v hv => mem_singleton.1 hv ▸ decodable_stampedTwice)
  have hjson : stampedReport.toJSON (printedReports [stampedJSON]) = .ok stampedJSON := by decide +kernel
  cases Except.ok.inj (hjson.symm.trans he)
  exact hread ⟨_,rfl,by decide +kernel⟩

end DataStreams
