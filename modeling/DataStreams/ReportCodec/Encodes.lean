import DataStreams.ReportCodec.Encode

/-! The exact conditions under which the encoders succeed. -/
namespace DataStreams
open List Go
variable {J : JSON} {defs : ChannelDefinitions} {cd : ChannelDefinition} {r : ReportFields}

/-- What the JSON library guarantees about the opts it decodes: whichever type they are
decoded into, a field two types share is read alike, and a window of seconds is a 32-bit
number. -/
structure JSON.Lawful (J : JSON) : Prop where
  timeResolution : ∀ raw opts res, J.unmarshalEVMABIEncode raw = .ok opts →
    J.unmarshalTimeResolution raw = .ok res → opts.timeResolution = res
  abi : ∀ raw opts abi, J.unmarshalEVMABIEncode raw = .ok opts →
    J.unmarshalABIPayload raw = .ok abi → opts.abi = abi
  streamlinedABI : ∀ raw opts abi, J.unmarshalEVMStreamlined raw = .ok opts →
    J.unmarshalABIPayload raw = .ok abi → opts.abi = abi
  multiplier : ∀ raw opts multiplier, J.unmarshalEVMPremiumLegacy raw = .ok opts →
    J.unmarshalPremiumLegacy raw = .ok multiplier → opts.multiplier = multiplier
  expirationWindow : ∀ raw opts, J.unmarshalEVMABIEncode raw = .ok opts → opts.expirationWindow < 2 ^ 32

def AcceptedByCodec (L : Libs) (E : ExprLib) (cd : ChannelDefinition) : Prop :=
  ∃ codec, buildCodec L E cd.reportFormat = some codec ∧ codec.verify cd = .ok () ∧
    ∀ verifyForAdmission, codec.verifyForAdmission = some verifyForAdmission → verifyForAdmission cd = .ok ()

instance (L : Libs) (E : ExprLib) (cd : ChannelDefinition) : Decidable (AcceptedByCodec L E cd) :=
  decidable_of_iff ((buildCodec L E cd.reportFormat).any fun codec => codec.verify cd = .ok () ∧
      codec.verifyForAdmission.all (fun verifyForAdmission => verifyForAdmission cd = .ok ()) = true)
    (by simp [AcceptedByCodec,Option.any_eq_true,Option.all_eq_true])

lemma JSON.lawful_ofPremium (table : List (JSONText × EVMPremiumLegacyOpts)) : (JSON.ofPremium table).Lawful where
  timeResolution _ _ _ h := nomatch h
  abi _ _ _ h := nomatch h
  streamlinedABI _ _ _ h := nomatch h
  multiplier _ opts _ h₁ h₂ := by
    dsimp only [JSON.ofPremium] at h₁ h₂
    rw [h₁] at h₂
    exact Except.ok.inj h₂
  expirationWindow _ _ h := nomatch h

lemma mem_solidityWidths_of_parse {t : Text} {s : SolidityInt} (h : parseSolidityInt t = .ok s) :
    s.bits ∈ solidityWidths := by
  unfold parseSolidityInt at h
  split at h
  · next b hb =>
    cases h
    exact mem_of_find?_eq_some hb
  · split at h
    · next b hb =>
      cases h
      exact mem_of_find?_eq_some hb
    · cases h

lemma parseSolidityInt_bits {t : Text} {s : SolidityInt} (h : parseSolidityInt t = .ok s) : s.bits ≤ 256 := by
  have hmem := mem_solidityWidths_of_parse h
  simp only [solidityWidths,mem_map,mem_range] at hmem
  omega

lemma checkSolidityInt_eq_ok {t : Text} {v : ℤ} :
    checkSolidityInt v t = .ok () ↔ ∃ s, parseSolidityInt t = .ok s ∧ s.check v = .ok () :=
  bind_ok_iff

lemma checkSolidityInt_zero {t : Text} {v : ℤ} (h : checkSolidityInt v t = .ok ()) :
    checkSolidityInt 0 t = .ok () := by
  obtain ⟨s,hs,_⟩ := checkSolidityInt_eq_ok.1 h
  refine checkSolidityInt_eq_ok.2 ⟨s,hs,?_⟩
  have hmin : s.min ≤ 0 := by
    unfold SolidityInt.min
    split_ifs
    · have := Int.pow_pos (show (0 : ℤ) < 2 by decide) (m := s.bits - 1)
      omega
    · exact le_rfl
  have hmax : 0 ≤ s.max := by
    unfold SolidityInt.max
    split_ifs
    · have := Int.pow_pos (show (0 : ℤ) < 2 by decide) (m := s.bits - 1)
      omega
    · have := Int.pow_pos (show (0 : ℤ) < 2 by decide) (m := s.bits)
      omega
  unfold SolidityInt.check
  rw [if_neg (by omega),if_neg (by omega)]

/-- An integer is encoded exactly when it passes the range check. -/
lemma encodePackedBigInt_eq_ok {t : Text} {v : ℤ} :
    (∃ b, encodePackedBigInt v t = .ok b) ↔ checkSolidityInt v t = .ok () := by
  simp only [encodePackedBigInt,checkSolidityInt_eq_ok,bind_ok_iff]
  constructor
  · rintro ⟨b,s,hs,_,hc,_⟩
    exact ⟨s,hs,hc⟩
  · rintro ⟨s,hs,hc⟩
    exact ⟨_,s,hs,(),hc,rfl⟩

lemma encodePaddedBigInt_eq_ok {t : Text} {v : ℤ} :
    (∃ b, encodePaddedBigInt v t = .ok b) ↔ checkSolidityInt v t = .ok () := by
  rw [← encodePackedBigInt_eq_ok]
  simp only [encodePaddedBigInt,bind_ok_iff]
  constructor
  · rintro ⟨_,b,hb,_⟩
    exact ⟨b,hb⟩
  · rintro ⟨b,hb⟩
    have hlen : b.length ≤ 32 := by
      simp only [encodePackedBigInt,bind_ok_iff] at hb
      obtain ⟨s,hs,_,_,hb⟩ := hb
      have := parseSolidityInt_bits hs
      cases hb
      rw [length_bigEndian]
      omega
    exact ⟨_,b,hb,if_neg (by omega)⟩

lemma ABIElement.encodePadded_eq_ok {e : ABIElement} {d : Decimal} :
    (∃ b, e.encodePadded d = .ok b) ↔ e.check d false = .ok () := by
  simp [ABIElement.encodePadded,ABIElement.check,encodePaddedBigInt_eq_ok]

lemma ABIElement.encodePacked_eq_ok {e : ABIElement} {d : Decimal} :
    (∃ b, e.encodePacked d = .ok b) ↔ e.check d true = .ok () := by
  unfold ABIElement.encodePacked ABIElement.check
  by_cases h : e.type = abiZeroBytes
  · simp [h]
  · simp [h,encodePackedBigInt_eq_ok]

lemma ABIElement.encodePackedValue_decimal (e : ABIElement) (d : Decimal) :
    e.encodePackedValue (.decimal d) = e.encodePacked d := by
  unfold ABIElement.encodePackedValue ABIElement.encodePacked
  split_ifs <;> rfl

namespace ABISpec
lemma checkValue_eq_ok {s : ABISpec} {v : Option StreamValue} {packed : Bool} :
    s.checkValue v packed = .ok () ↔
      (∃ e d, s = [e] ∧ v = some (.decimal d) ∧ e.check d packed = .ok ()) ∨
      ∃ e₀ e₁ at_ d, s = [e₀,e₁] ∧ v = some (.timestamped at_ (.decimal d)) ∧
        e₀.check (.ofInt at_) packed = .ok () ∧ e₁.check d packed = .ok () := by
  rcases v with _ | d | q | ⟨at_,d | q | ⟨_,_⟩⟩ <;>
    rcases s with _ | ⟨e₀,_ | ⟨e₁,_ | ⟨e₂,s⟩⟩⟩ <;> simp [checkValue,check_bind_ok_iff]

lemma encodePadded_eq_ok {s : ABISpec} {v : Option StreamValue} :
    (∃ b, s.encodePadded v = .ok b) ↔ s.checkValue v false = .ok () := by
  rw [checkValue_eq_ok]
  rcases v with _ | d | q | ⟨at_,d | q | ⟨_,_⟩⟩ <;>
    rcases s with _ | ⟨e₀,_ | ⟨e₁,_ | ⟨e₂,s⟩⟩⟩ <;>
    simp [encodePadded,bind_ok_iff,← ABIElement.encodePadded_eq_ok]

lemma encodePacked_of_checkValue {s : ABISpec} {v : Option StreamValue} (h : s.checkValue v true = .ok ()) :
    ∃ b, s.encodePacked v = .ok b := by
  rcases checkValue_eq_ok.1 h with ⟨e,d,rfl,rfl,he⟩ | ⟨e₀,e₁,at_,d,rfl,rfl,h₀,h₁⟩
  · exact ABIElement.encodePacked_eq_ok.2 he
  · obtain ⟨b₀,hb₀⟩ := ABIElement.encodePacked_eq_ok.2 h₀
    obtain ⟨b₁,hb₁⟩ := ABIElement.encodePacked_eq_ok.2 h₁
    exact ⟨b₀ ++ b₁,by simp [encodePacked,hb₀,hb₁,ABIElement.encodePackedValue_decimal]⟩

end ABISpec

lemma buildPayload_of_checkValue {values : List (Option StreamValue)} {encoders : List ABISpec}
    (hlen : encoders.length = values.length) (hne : encoders ≠ [])
    (h : ∀ e ∈ encoders.zip values, e.1.checkValue e.2 false = .ok ()) :
    ∃ b, buildPayload encoders values = .ok b := by
  have hpos := length_pos_iff.2 hne
  have hjoin : errorsJoin ((encoders.zipWith ABISpec.encodePadded values).map
      (fun b => b.map (fun _ => ()))) = .ok () := by
    rw [errorsJoin_eq_ok]
    intro c hc
    rw [← map_uncurry_zip_eq_zipWith,map_map,mem_map] at hc
    obtain ⟨⟨spec,value⟩,he,rfl⟩ := hc
    obtain ⟨b,hb⟩ := ABISpec.encodePadded_eq_ok.2 (h (spec,value) he)
    simp [hb,Except.map]
  refine ⟨(encoders.zipWith ABISpec.encodePadded values).flatMap (fun b => b.toOption.getD []),?_⟩
  rw [buildPayload,if_neg (by omega)]
  exact check_bind_ok_iff.2 ⟨hjoin,rfl⟩

lemma SolidityInt.check_unsigned {v : ℤ} {bits : ℕ} :
    (⟨false,bits⟩ : SolidityInt).check v = .ok () ↔ 0 ≤ v ∧ v < 2 ^ bits := by
  unfold SolidityInt.check SolidityInt.min SolidityInt.max
  by_cases hneg : v < 0
  · rw [if_pos ⟨Bool.false_ne_true,hneg⟩]
    exact iff_of_false nofun fun h => absurd h.1 (not_le.2 hneg)
  · rw [if_neg fun h => hneg h.2]
    by_cases hbig : v < 2 ^ bits
    · rw [if_neg (by simp only [Bool.false_eq_true,if_false]; omega)]
      exact iff_of_true rfl ⟨not_lt.1 hneg,hbig⟩
    · rw [if_pos (by simp only [Bool.false_eq_true,if_false]; omega)]
      exact iff_of_false nofun fun h => hbig h.2

def FeeFits (fee : ℤ) : Prop := 0 ≤ fee ∧ fee < 2 ^ 192

lemma checkSolidityInt_uint192 {v : ℤ} : checkSolidityInt v uint192 = .ok () ↔ FeeFits v := by
  have hparse : parseSolidityInt uint192 = .ok ⟨false,192⟩ := by decide
  rw [checkSolidityInt,hparse,ok_bind,SolidityInt.check_unsigned,FeeFits]

lemma checkFee_eq_ok {name : String} {fee : ℤ} : checkFee name fee = .ok () ↔ FeeFits fee := by
  unfold checkFee
  rw [← checkSolidityInt_uint192]
  split_ifs with hneg
  · simp only [false_iff,checkSolidityInt_uint192,FeeFits]
    omega
  · cases checkSolidityInt fee uint192 <;> simp [Except.mapError]

lemma checkUint32_eq_ok {name : String} {n : ℕ} : checkUint32 name n = .ok () ↔ n < 2 ^ 32 := by
  unfold checkUint32
  split_ifs with h
  · simp only [false_iff]
    omega
  · simp only [true_iff]
    omega

lemma checkTimestamps_eq_ok {rf : BaseReportFields} {res : TimeResolution} :
    checkTimestamps rf res = .ok () ↔ (res = .seconds →
      rf.validFromTimestamp < 2 ^ 32 ∧ rf.timestamp < 2 ^ 32 ∧ rf.expiresAt < 2 ^ 32) := by
  unfold checkTimestamps
  split_ifs with hres
  · simp only [check_bind_ok_iff,checkUint32_eq_ok,hres,forall_const]
  · simp only [hres,false_imp_iff]

lemma buildHeader_eq_ok {rf : BaseReportFields} {res : TimeResolution} {header : Bytes} :
    buildHeader rf res = .ok header ↔ (FeeFits rf.linkFee ∧ FeeFits rf.nativeFee) ∧
      (res = .seconds → rf.validFromTimestamp < 2 ^ 32 ∧ rf.timestamp < 2 ^ 32 ∧ rf.expiresAt < 2 ^ 32) ∧
      packWords [rf.feedID,rf.validFromTimestamp,rf.timestamp,abiWord rf.nativeFee,abiWord rf.linkFee,
        rf.expiresAt] = header := by
  have hfees : errorsJoin [checkFee "linkFee" rf.linkFee,checkFee "nativeFee" rf.nativeFee] = .ok () ↔
      FeeFits rf.linkFee ∧ FeeFits rf.nativeFee := by
    rw [errorsJoin_eq_ok]
    simp [checkFee_eq_ok]
  rw [buildHeader,check_bind_ok_iff,check_bind_ok_iff,hfees,checkTimestamps_eq_ok,Except.ok.injEq]

structure HeaderOpts where
  baseUSDFee : Decimal
  expirationWindow : ℕ
  maxReportRange : ℤ
  timeResolution : TimeResolution
  deriving DecidableEq

def EVMABIEncodeOpts.header (opts : EVMABIEncodeOpts) : HeaderOpts :=
  ⟨opts.baseUSDFee,opts.expirationWindow,opts.maxReportRange,opts.timeResolution⟩

def EVMPremiumLegacyOpts.header (opts : EVMPremiumLegacyOpts) : HeaderOpts :=
  ⟨opts.baseUSDFee,opts.expirationWindow,opts.maxReportRange,.seconds⟩

/-- The formats whose reports start with a validity window and fees. -/
def ReportFormat.hasHeader : ReportFormat → Bool
  | .evmPremiumLegacy | .evmABIEncodeUnpacked | .evmABIEncodeUnpackedExpr => true
  | _ => false

def ReportFormat.isEVM (format : ReportFormat) : Bool := format.hasHeader || format = .evmStreamlined

def headerOpts (J : JSON) (cd : ChannelDefinition) : Except String HeaderOpts :=
  match cd.reportFormat with
  | .evmPremiumLegacy => do
    let opts ← decodeOpts .zero J.unmarshalEVMPremiumLegacy cd.opts
    .ok opts.header
  | _ => do
    let opts ← decodeOpts .zero J.unmarshalEVMABIEncode cd.opts
    .ok opts.header

def PriceFits (baseUSDFee : Decimal) (v : Option StreamValue) : Prop :=
  ∃ price fee, extractPrice v = .ok price ∧ calculateFee price baseUSDFee = .ok fee ∧ FeeFits fee

/-- Timestamps in seconds fit 32 bits. -/
def WindowFits (h : HeaderOpts) (validAfter observationTimestamp : ℕ) : Prop :=
  h.timeResolution = .seconds →
    clampReportRange validAfter observationTimestamp h.maxReportRange / 10 ^ 9 + 1 < 2 ^ 32 ∧
      observationTimestamp / 10 ^ 9 + h.expirationWindow < 2 ^ 32

/-- Everything a header is computed from fits: the report has both prices, their fees fit
and so do its timestamps. -/
def HeaderFits (h : HeaderOpts) (r : ReportFields) : Prop :=
  (∃ native link rest, r.values = native :: link :: rest ∧ PriceFits h.baseUSDFee native ∧
    PriceFits h.baseUSDFee link) ∧ WindowFits h r.validAfterNanoseconds r.observationTimestampNanoseconds

/-- What each stage of the encoder must have returned. -/
lemma encodeUnpacked_eq_ok {format : ReportFormat}
    {checkOpts : EVMABIEncodeOpts → List (Option StreamValue) → Except String Unit} {cache : OptsCache}
    {encoded : Bytes} :
    encodeUnpacked J format checkOpts r cache = .ok encoded ↔ r.specimen = false ∧
      ∃ native link rest, r.values = native :: link :: rest ∧
      ∃ nativePrice, extractPrice native = .ok nativePrice ∧
      ∃ linkPrice, extractPrice link = .ok linkPrice ∧
      ∃ opts, cache.getOpts .zero J.unmarshalEVMABIEncode r.channelID = .ok opts ∧
      checkOpts opts r.values = .ok () ∧
      ∃ rf, baseReportFields opts r nativePrice linkPrice = .ok rf ∧
      ∃ header, buildHeader rf opts.timeResolution = .ok header ∧
      ∃ values, abiPayload format opts.abi.length r.values = .ok values ∧
      ∃ payload, buildPayload opts.abi values = .ok payload ∧ header ++ payload = encoded := by
  unfold encodeUnpacked
  cases hspec : r.specimen with
  | true => simp
  | false =>
    rcases hv : r.values with _ | ⟨native,_ | ⟨link,rest⟩⟩
    · simp
    · simp
    · simp only [Bool.false_eq_true,if_false,bind_ok_iff,ofExcept_eq_ok,true_and,List.cons.injEq,Except.ok.injEq]
      constructor
      · rintro ⟨np,hnp,lp,hlp,opts,hopts,_,hcheck,tail⟩
        exact ⟨native,link,rest,⟨rfl,rfl,rfl⟩,np,hnp,lp,hlp,opts,hopts,hcheck,tail⟩
      · rintro ⟨_,_,_,⟨rfl,rfl,rfl⟩,np,hnp,lp,hlp,opts,hopts,hcheck,tail⟩
        exact ⟨np,hnp,lp,hlp,opts,hopts,(),hcheck,tail⟩

lemma baseReportFields_eq_ok {rf : BaseReportFields} {opts : EVMABIEncodeOpts} {nativePrice linkPrice : Decimal} :
    baseReportFields opts r nativePrice linkPrice = .ok rf ↔
      ∃ nativeFee, calculateFee nativePrice opts.baseUSDFee = .ok nativeFee ∧
      ∃ linkFee, calculateFee linkPrice opts.baseUSDFee = .ok linkFee ∧
      ⟨opts.feedID,
        u64Add (convertTimestamp (clampReportRange r.validAfterNanoseconds r.observationTimestampNanoseconds
          opts.maxReportRange) opts.timeResolution) 1,
        convertTimestamp r.observationTimestampNanoseconds opts.timeResolution,nativeFee,linkFee,
        u64Add (convertTimestamp r.observationTimestampNanoseconds opts.timeResolution)
          (scaleSeconds opts.expirationWindow opts.timeResolution)⟩ = rf := by
  simp only [baseReportFields,bind_ok_iff,Except.ok.injEq]

lemma u64Add_of_lt {b a : ℕ} (h : a + b < 2 ^ 64) : u64Add a b = a + b := Nat.mod_eq_of_lt h

lemma windowFits_iff {opts : EVMABIEncodeOpts} {va obs : ℕ} (hobs : obs < 2 ^ 64) (hva : va < obs)
    (hwindow : opts.expirationWindow < 2 ^ 32) :
    (opts.timeResolution = .seconds →
      u64Add (convertTimestamp (clampReportRange va obs opts.maxReportRange) opts.timeResolution) 1 < 2 ^ 32 ∧
      convertTimestamp obs opts.timeResolution < 2 ^ 32 ∧ u64Add (convertTimestamp obs opts.timeResolution)
        (scaleSeconds opts.expirationWindow opts.timeResolution) < 2 ^ 32) ↔ WindowFits opts.header va obs := by
  refine forall_congr' fun hres => ?_
  have hclamp := clampReportRange_lt opts.maxReportRange hva
  simp only [hres,convertTimestamp,resolutionNanos,scaleSeconds,EVMABIEncodeOpts.header]
  rw [u64Add_of_lt (by omega),u64Add_of_lt (by omega)]
  omega

lemma header_unpacked {opts : EVMABIEncodeOpts} {native link : Option StreamValue}
    (hobs : r.observationTimestampNanoseconds < 2 ^ 64)
    (hva : r.validAfterNanoseconds < r.observationTimestampNanoseconds) (hwindow : opts.expirationWindow < 2 ^ 32) :
    (∃ nativePrice, extractPrice native = .ok nativePrice ∧ ∃ linkPrice, extractPrice link = .ok linkPrice ∧
      ∃ rf, baseReportFields opts r nativePrice linkPrice = .ok rf ∧
      ∃ header, buildHeader rf opts.timeResolution = .ok header) ↔
    (PriceFits opts.baseUSDFee native ∧ PriceFits opts.baseUSDFee link) ∧
      WindowFits opts.header r.validAfterNanoseconds r.observationTimestampNanoseconds := by
  rw [← windowFits_iff hobs hva hwindow]
  simp only [baseReportFields_eq_ok,buildHeader_eq_ok]
  constructor
  · rintro ⟨np,hnp,lp,hlp,_,⟨nf,hnf,lf,hlf,rfl⟩,_,⟨hfl,hfn⟩,htime,_⟩
    exact ⟨⟨⟨np,nf,hnp,hnf,hfn⟩,lp,lf,hlp,hlf,hfl⟩,htime⟩
  · rintro ⟨⟨⟨np,nf,hnp,hnf,hfn⟩,lp,lf,hlp,hlf,hfl⟩,htime⟩
    exact ⟨np,hnp,lp,hlp,_,⟨nf,hnf,lf,hlf,rfl⟩,_,⟨hfl,hfn⟩,htime,rfl⟩

lemma abiPayload_length {values : List (Option StreamValue)} {n : ℕ} {format : ReportFormat}
    {payload : List (Option StreamValue)}
    (hformat : format = .evmABIEncodeUnpacked ∨ format = .evmABIEncodeUnpackedExpr ∨ format = .evmStreamlined)
    (h : abiPayload format n values = .ok payload) : payload.length = n := by
  rcases hformat with rfl | rfl | rfl <;>
  · simp only [abiPayload] at h
    split_ifs at h
    cases h
    first | (rw [length_drop]; omega) | omega

lemma checkEncodableValues_abi
    (hformat : cd.reportFormat = .evmABIEncodeUnpacked ∨ cd.reportFormat = .evmABIEncodeUnpackedExpr ∨
      cd.reportFormat = .evmStreamlined) (hdef : defs.get? r.channelID = some cd)
    {values : List (Option StreamValue)} :
    checkEncodableValues J (some (.ofDefinitions defs)) cd r.channelID values = .ok () ↔
    ∃ abi, decodeOpts [] J.unmarshalABIPayload cd.opts = .ok abi ∧
      ∃ payload, abiPayload cd.reportFormat abi.length values = .ok payload ∧
        ∀ e ∈ abi.zip payload, e.1.checkValue e.2 (cd.reportFormat = .evmStreamlined) = .ok () := by
  rcases hformat with hf | hf | hf <;>
  · simp only [checkEncodableValues,hf,getOptsOrDecode_ofDefinitions hdef,bind_ok_iff,forM_ok_iff]

/-- A production report against the definition of its channel, with values that passed the check. -/
structure ReportFields.Checked (r : ReportFields) (J : JSON) (defs : ChannelDefinitions) (cd : ChannelDefinition) :
    Prop where
  definition : defs.get? r.channelID = some cd
  production : r.specimen = false
  values : checkEncodableValues J (some (.ofDefinitions defs)) cd r.channelID r.values = .ok ()

lemma abiPayload_of_checkEncodableValues (hJ : J.Lawful) {opts : EVMABIEncodeOpts}
    (hformat : cd.reportFormat = .evmABIEncodeUnpacked ∨ cd.reportFormat = .evmABIEncodeUnpackedExpr)
    (hr : r.Checked J defs cd) (hopts : decodeOpts .zero J.unmarshalEVMABIEncode cd.opts = .ok opts) :
    ∃ values, abiPayload cd.reportFormat opts.abi.length r.values = .ok values ∧
      opts.abi.length = values.length ∧ ∀ e ∈ opts.abi.zip values, e.1.checkValue e.2 false = .ok () := by
  have hformat' := hformat.imp_right (Or.inl (b := cd.reportFormat = .evmStreamlined))
  obtain ⟨abi,habi,values,hvalues,hall⟩ := (checkEncodableValues_abi hformat' hr.definition).1 hr.values
  have heq : opts.abi = abi := decodeOpts_alike (f := EVMABIEncodeOpts.abi) (g := id) rfl hJ.abi hopts habi
  subst heq
  have hpadded : decide (cd.reportFormat = .evmStreamlined) = false := by
    rcases hformat with hf | hf <;> simp [hf]
  rw [hpadded] at hall
  exact ⟨values,hvalues,(abiPayload_length hformat' hvalues).symm,hall⟩

/-- With checked values, encoding fails only for the opts or the header. -/
lemma returns_encodeUnpacked (hJ : J.Lawful)
    {checkOpts : EVMABIEncodeOpts → List (Option StreamValue) → Except String Unit}
    (hformat : cd.reportFormat = .evmABIEncodeUnpacked ∨ cd.reportFormat = .evmABIEncodeUnpackedExpr)
    (hr : r.Checked J defs cd) (hobs : r.observationTimestampNanoseconds < 2 ^ 64)
    (hva : r.validAfterNanoseconds < r.observationTimestampNanoseconds)
    (hopts : ∀ opts, decodeOpts .zero J.unmarshalEVMABIEncode cd.opts = .ok opts →
      checkOpts opts r.values = .ok () ∧ opts.abi ≠ []) :
    Go.Returns (encodeUnpacked J cd.reportFormat checkOpts r (.ofDefinitions defs)) ↔
      ∃ h, headerOpts J cd = .ok h ∧ HeaderFits h r := by
  have hheader : headerOpts J cd =
      (decodeOpts .zero J.unmarshalEVMABIEncode cd.opts >>= fun opts => .ok opts.header) := by
    rcases hformat with hf | hf <;> simp [headerOpts,hf]
  have hwindow : ∀ opts, decodeOpts .zero J.unmarshalEVMABIEncode cd.opts = .ok opts →
      opts.expirationWindow < 2 ^ 32 := by
    intro opts ho
    unfold decodeOpts at ho
    split_ifs at ho
    · cases ho
      decide
    · exact hJ.expirationWindow _ _ ho
  simp only [Go.Returns,encodeUnpacked_eq_ok,OptsCache.getOpts_ofDefinitions hr.definition,hheader,bind_ok_iff,
    Except.ok.injEq]
  constructor
  · rintro ⟨_,_,native,link,rest,hv,np,hnp,lp,hlp,opts,ho,_,rf,hrf,header,hh,_⟩
    obtain ⟨hprices,htime⟩ := (header_unpacked hobs hva (hwindow opts ho)).1
      ⟨np,hnp,lp,hlp,rf,hrf,header,hh⟩
    exact ⟨_,⟨opts,ho,rfl⟩,⟨native,link,rest,hv,hprices⟩,htime⟩
  · rintro ⟨_,⟨opts,ho,rfl⟩,⟨native,link,rest,hv,hprices⟩,htime⟩
    obtain ⟨np,hnp,lp,hlp,rf,hrf,header,hh⟩ := (header_unpacked hobs hva (hwindow opts ho)).2 ⟨hprices,htime⟩
    obtain ⟨hc,hne⟩ := hopts opts ho
    obtain ⟨values,hvalues,hlen,hall⟩ := abiPayload_of_checkEncodableValues hJ hformat hr ho
    obtain ⟨payload,hpayload⟩ := buildPayload_of_checkValue hlen hne hall
    exact ⟨_,hr.production,native,link,rest,hv,np,hnp,lp,hlp,opts,ho,hc,rf,hrf,header,hh,values,hvalues,payload,
      hpayload,rfl⟩

lemma encodeEVMPremiumLegacy_eq_ok {encoded : Bytes} {cache : OptsCache} :
    encodeEVMPremiumLegacy J r cache = .ok encoded ↔ r.specimen = false ∧
      ∃ np lp q, extractReportValues r.values = .ok (np,lp,q) ∧
      ∃ opts, cache.getOpts .zero J.unmarshalEVMPremiumLegacy r.channelID = .ok opts ∧
      ∃ m, premiumMultiplier opts.multiplier = .ok m ∧
      ∃ vas ots, extractTimestamps (clampReportRange r.validAfterNanoseconds
        r.observationTimestampNanoseconds opts.maxReportRange) r.observationTimestampNanoseconds = .ok (vas,ots) ∧
      (vas + 1 < 2 ^ 32 ∧ ots + opts.expirationWindow < 2 ^ 32) ∧
      ∃ nf, calculateFee np opts.baseUSDFee = .ok nf ∧ ∃ lf, calculateFee lp opts.baseUSDFee = .ok lf ∧
      buildReport opts.feedID ⟨vas + 1,ots,nf,lf,ots + opts.expirationWindow,(q.benchmark.mul m).bigInt,
        (q.bid.mul m).bigInt,(q.ask.mul m).bigInt⟩ = .ok encoded := by
  unfold encodeEVMPremiumLegacy
  cases hspec : r.specimen with
  | true => simp
  | false =>
    simp only [Bool.false_eq_true,if_false,bind_ok_iff,ofExcept_eq_ok,true_and,Prod.exists]
    constructor
    · rintro ⟨np,lp,q,hv,opts,ho,m,hm,vas,ots,ht,_,h₁,_,h₂,tail⟩
      exact ⟨np,lp,q,hv,opts,ho,m,hm,vas,ots,ht,⟨checkUint32_eq_ok.1 h₁,checkUint32_eq_ok.1 h₂⟩,tail⟩
    · rintro ⟨np,lp,q,hv,opts,ho,m,hm,vas,ots,ht,⟨h₁,h₂⟩,tail⟩
      exact ⟨np,lp,q,hv,opts,ho,m,hm,vas,ots,ht,(),checkUint32_eq_ok.2 h₁,(),checkUint32_eq_ok.2 h₂,tail⟩

lemma extractTimestamps_eq_ok {va obs vas ots : ℕ} :
    extractTimestamps va obs = .ok (vas,ots) ↔
      (va / 10 ^ 9 < 2 ^ 32 ∧ obs / 10 ^ 9 < 2 ^ 32) ∧ va / 10 ^ 9 = vas ∧ obs / 10 ^ 9 = ots := by
  unfold extractTimestamps
  dsimp only
  split_ifs with h₁ h₂
  · simp only [false_iff]
    omega
  · simp only [false_iff]
    omega
  · simp only [Except.ok.injEq,Prod.mk.injEq]
    omega

/-- A report is built exactly when its fees and prices fit. -/
lemma buildReport_eq_ok {encoded : Bytes} {feedID : ℕ} {rf : PremiumLegacyFields} :
    buildReport feedID rf = .ok encoded ↔ (FeeFits rf.nativeFee ∧ FeeFits rf.linkFee) ∧
      (checkSolidityInt rf.benchmarkPrice int192 = .ok () ∧ checkSolidityInt rf.bid int192 = .ok () ∧
        checkSolidityInt rf.ask int192 = .ok ()) ∧
      packWords [feedID,rf.validFromTimestamp,rf.timestamp,abiWord rf.nativeFee,abiWord rf.linkFee,
        rf.expiresAt,abiWord rf.benchmarkPrice,abiWord rf.bid,abiWord rf.ask] = encoded := by
  have hfield : ∀ name v t, checkField name v t = .ok () ↔ checkSolidityInt v t = .ok () := by
    intro name v t
    unfold checkField
    cases checkSolidityInt v t <;> simp [Except.mapError]
  have hsign : ∀ name v, FeeFits v → checkNotNegative name v = .ok () := by
    intro name v hv
    exact if_neg (not_lt.2 hv.1)
  rw [buildReport,check_bind_ok_iff,check_bind_ok_iff,errorsJoin_eq_ok,errorsJoin_eq_ok,Except.ok.injEq]
  simp only [mem_cons,not_mem_nil,or_false,forall_eq_or_imp,forall_eq,hfield,checkSolidityInt_uint192]
  constructor
  · rintro ⟨_,⟨hn,hl,hb⟩,he⟩
    exact ⟨⟨hn,hl⟩,hb,he⟩
  · rintro ⟨⟨hn,hl⟩,hb,he⟩
    exact ⟨⟨hsign _ _ hl,hsign _ _ hn⟩,⟨hn,hl,hb⟩,he⟩

lemma scale_of_premiumMultiplier {multiplier : Option ℤ} {m : Decimal} (h : premiumMultiplier multiplier = .ok m)
    (t : Text) (d : Decimal) : (ABIElement.mk t multiplier).scale d = (d.mul m).bigInt := by
  unfold premiumMultiplier at h
  split at h
  · cases h
    simp [ABIElement.scale,Decimal.mul,Decimal.ofInt]
  · contradiction
  · cases h
    rfl

lemma checkEncodableValues_premium (hformat : cd.reportFormat = .evmPremiumLegacy)
    (hdef : defs.get? r.channelID = some cd) {values : List (Option StreamValue)} :
    checkEncodableValues J (some (.ofDefinitions defs)) cd r.channelID values = .ok () ↔
    ∃ native link q, values = [native,link,some (.quote q)] ∧
      ∃ multiplier, decodeOpts none J.unmarshalPremiumLegacy cd.opts = .ok multiplier ∧
      ∃ m, premiumMultiplier multiplier = .ok m ∧
        checkSolidityInt (q.benchmark.mul m).bigInt int192 = .ok () ∧
        checkSolidityInt (q.bid.mul m).bigInt int192 = .ok () ∧
        checkSolidityInt (q.ask.mul m).bigInt int192 = .ok () := by
  have hmult : ∀ multiplier : Option ℤ, multiplier ≠ some 0 ↔ ∃ m, premiumMultiplier multiplier = .ok m := by
    intro multiplier
    unfold premiumMultiplier
    split <;> simp_all
  rw [checkEncodableValues]
  simp only [hformat]
  unfold checkPremiumLegacyValues
  split
  · next native link q =>
    simp only [getOptsOrDecode_ofDefinitions hdef,bind_ok_iff]
    constructor
    · rintro ⟨multiplier,hdec,h⟩
      split_ifs at h with hzero
      obtain ⟨m,hm⟩ := (hmult multiplier).1 hzero
      simp only [check_bind_ok_iff,ABIElement.check,Bool.false_eq_true,false_and,if_false,
        scale_of_premiumMultiplier hm] at h
      exact ⟨native,link,q,rfl,multiplier,hdec,m,hm,h⟩
    · rintro ⟨_,_,_,heq,multiplier,hdec,m,hm,h⟩
      simp only [List.cons.injEq,Option.some.injEq,StreamValue.quote.injEq,and_true] at heq
      obtain ⟨_,_,rfl⟩ := heq
      refine ⟨multiplier,hdec,?_⟩
      rw [if_neg ((hmult multiplier).2 ⟨m,hm⟩)]
      simp only [check_bind_ok_iff,ABIElement.check,Bool.false_eq_true,false_and,if_false,
        scale_of_premiumMultiplier hm]
      exact h
  · next hne =>
    refine iff_of_false nofun ?_
    rintro ⟨native,link,q,hv,_⟩
    simp only [List.cons.injEq,and_true] at hv
    exact hne q hv.2.2
  · next hne =>
    refine iff_of_false nofun ?_
    rintro ⟨native,link,q,hv,_⟩
    exact hne _ _ _ hv

lemma returns_encodeEVMPremiumLegacy (hJ : J.Lawful) (hformat : cd.reportFormat = .evmPremiumLegacy)
    (hr : r.Checked J defs cd) (hva : r.validAfterNanoseconds < r.observationTimestampNanoseconds) :
    Go.Returns (encodeEVMPremiumLegacy J r (.ofDefinitions defs)) ↔
      ∃ h, headerOpts J cd = .ok h ∧ HeaderFits h r := by
  obtain ⟨native,link,q,hv,multiplier,hmult,m,hm,hquote⟩ := (checkEncodableValues_premium hformat hr.definition).1 hr.values
  have hheader : headerOpts J cd =
      (decodeOpts .zero J.unmarshalEVMPremiumLegacy cd.opts >>= fun opts => .ok opts.header) := by
    simp [headerOpts,hformat]
  have hmopts : ∀ opts, decodeOpts .zero J.unmarshalEVMPremiumLegacy cd.opts = .ok opts →
      opts.multiplier = multiplier := fun opts ho =>
    decodeOpts_alike (f := EVMPremiumLegacyOpts.multiplier) (g := id) rfl hJ.multiplier ho hmult
  have hvalues : ∀ np lp q', extractReportValues r.values = .ok (np,lp,q') ↔
      extractPrice native = .ok np ∧ extractPrice link = .ok lp ∧ q = q' := by
    intro np lp q'
    simp only [hv,extractReportValues,bind_ok_iff,Except.ok.injEq,Prod.mk.injEq]
    constructor
    · rintro ⟨_,hn,_,hl,rfl,rfl,rfl⟩
      exact ⟨hn,hl,rfl⟩
    · rintro ⟨hn,hl,rfl⟩
      exact ⟨np,hn,lp,hl,rfl,rfl,rfl⟩
  simp only [Go.Returns,encodeEVMPremiumLegacy_eq_ok,OptsCache.getOpts_ofDefinitions hr.definition,hheader,bind_ok_iff,
    Except.ok.injEq,hvalues,extractTimestamps_eq_ok,buildReport_eq_ok]
  constructor
  · rintro ⟨_,_,np,lp,_,⟨hnp,hlp,_⟩,opts,ho,_,_,_,_,⟨_,rfl,rfl⟩,htime,nf,hnf,lf,hlf,⟨hfn,hfl⟩,_⟩
    exact ⟨_,⟨opts,ho,rfl⟩,⟨native,link,_,hv,⟨np,nf,hnp,hnf,hfn⟩,lp,lf,hlp,hlf,hfl⟩,fun _ => htime⟩
  · rintro ⟨_,⟨opts,ho,rfl⟩,⟨native',link',rest,hv',⟨np,nf,hnp,hnf,hfn⟩,lp,lf,hlp,hlf,hfl⟩,htime⟩
    obtain ⟨rfl,rfl,_⟩ : native = native' ∧ link = link' ∧ _ := by
      rw [hv] at hv'
      simpa using hv'
    have hclamp := clampReportRange_lt opts.maxReportRange hva
    obtain ⟨hfrom,huntil⟩ := htime rfl
    refine ⟨_,hr.production,np,lp,q,⟨hnp,hlp,rfl⟩,opts,ho,m,?_,_,_,⟨?_,rfl,rfl⟩,⟨hfrom,huntil⟩,nf,hnf,lf,hlf,⟨hfn,hfl⟩,
      hquote,rfl⟩
    · rw [hmopts opts ho]
      exact hm
    · simp only [EVMPremiumLegacyOpts.header] at hfrom huntil
      omega

lemma returns_encodeEVMStreamlined (hJ : J.Lawful) (hformat : cd.reportFormat = .evmStreamlined)
    (hr : r.Checked J defs cd) :
    Go.Returns (encodeEVMStreamlined J r cd (.ofDefinitions defs)) ↔
      ∃ opts, decodeOpts .zero J.unmarshalEVMStreamlined cd.opts = .ok opts := by
  obtain ⟨abi,habi,values,hvalues,hall⟩ := (checkEncodableValues_abi (.inr (.inr hformat)) hr.definition).1 hr.values
  have hpacked : decide (cd.reportFormat = .evmStreamlined) = true := by simp [hformat]
  rw [hpacked] at hall
  rw [hformat] at hvalues
  unfold encodeEVMStreamlined
  simp only [hr.production,Bool.false_eq_true,if_false,Go.Returns,bind_ok_iff,ofExcept_eq_ok,
    OptsCache.getOpts_ofDefinitions hr.definition]
  constructor
  · rintro ⟨_,opts,ho,_⟩
    exact ⟨opts,ho⟩
  · rintro ⟨opts,ho⟩
    have heq : opts.abi = abi := decodeOpts_alike (f := EVMStreamlinedOpts.abi) (g := id) rfl hJ.streamlinedABI ho habi
    subst heq
    obtain ⟨entries,hentries⟩ : ∃ entries, (opts.abi.zip values).mapM (fun e => e.1.encodePacked e.2) = .ok entries :=
      mapM_returns fun e he => ABISpec.encodePacked_of_checkValue (hall e he)
    exact ⟨_,opts,ho,values,hvalues,entries,hentries,rfl⟩

/-- A report with a header whose values passed the check is encoded exactly when its opts
decode and its header fits. -/
lemma returns_encodeEVM (hJ : J.Lawful) (hformat : cd.reportFormat.hasHeader = true) (hr : r.Checked J defs cd)
    (hobs : r.observationTimestampNanoseconds < 2 ^ 64)
    (hva : r.validAfterNanoseconds < r.observationTimestampNanoseconds)
    (hlen : cd.reportFormat = .evmABIEncodeUnpacked → 3 ≤ r.values.length) :
    Go.Returns (encodeEVM J r cd (.ofDefinitions defs)) ↔ ∃ h, headerOpts J cd = .ok h ∧ HeaderFits h r := by
  unfold encodeEVM
  cases hf : cd.reportFormat with
  | evmPremiumLegacy => exact returns_encodeEVMPremiumLegacy hJ hf hr hva
  | evmABIEncodeUnpacked =>
    simp only [encodeEVMABIEncodeUnpacked]
    rw [← hf]
    refine returns_encodeUnpacked hJ (.inl hf) hr hobs hva fun opts ho => ⟨rfl,?_⟩
    obtain ⟨values,hvalues,_⟩ := abiPayload_of_checkEncodableValues hJ (.inl hf) hr ho
    have hthree := hlen hf
    rw [hf,abiPayload] at hvalues
    split_ifs at hvalues with hshort
    exact length_pos_iff.1 (by omega)
  | evmABIEncodeUnpackedExpr =>
    simp only [encodeEVMABIEncodeUnpackedExpr]
    rw [← hf]
    refine returns_encodeUnpacked hJ (.inr hf) hr hobs hva fun opts ho => ?_
    obtain ⟨values,hvalues,_⟩ := abiPayload_of_checkEncodableValues hJ (.inr hf) hr ho
    rw [hf,abiPayload] at hvalues
    split_ifs at hvalues with hshort
    rw [not_or,not_lt] at hshort
    rw [if_neg (by omega),if_neg (by omega)]
    exact ⟨rfl,length_pos_iff.1 (by omega)⟩
  | _ => simp [hf,ReportFormat.hasHeader] at hformat

end DataStreams
