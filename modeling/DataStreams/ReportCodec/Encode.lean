import DataStreams.Foundation.BigEndian
import DataStreams.ReportCodec.EVM

/-! The `Encode` functions of the four EVM codecs. -/
namespace DataStreams
structure ReportFields where
  channelID : ChannelID
  validAfterNanoseconds : ℕ
  observationTimestampNanoseconds : ℕ
  values : List (Option StreamValue)
  specimen : Bool

def errorsJoin (checks : List (Except String Unit)) : Except String Unit :=
  match checks.filterMap (fun c => match c with | .error e => some e | .ok _ => none) with
  | [] => .ok ()
  | errs => .error ("\n".intercalate errs)

lemma errorsJoin_eq_ok {checks : List (Except String Unit)} :
    errorsJoin checks = .ok () ↔ ∀ c ∈ checks, c = .ok () := by
  unfold errorsJoin
  induction checks with
  | nil => simp
  | cons c checks ih =>
    rcases c with e | ⟨⟩
    · simp
    · simpa using ih

/-- Five minutes in nanoseconds. -/
def defaultMaxReportRange : ℤ := 5 * 60 * 10 ^ 9

def effectiveReportRange (maxReportRange : ℤ) : ℕ :=
  (min (if maxReportRange ≤ 0 then defaultMaxReportRange else maxReportRange) maxReportRangeCeiling).toNat

/-- The start of the range, moved forward if the range is too long. -/
def clampReportRange (validAfter observationTimestamp : ℕ) (maxReportRange : ℤ) : ℕ :=
  let maxRange := effectiveReportRange maxReportRange
  if validAfter > observationTimestamp then observationTimestamp
  else if observationTimestamp - validAfter > maxRange then
    if observationTimestamp < maxRange then 0 else observationTimestamp - maxRange
  else validAfter

lemma effectiveReportRange_pos (maxReportRange : ℤ) : 0 < effectiveReportRange maxReportRange := by
  unfold effectiveReportRange defaultMaxReportRange maxReportRangeCeiling
  split_ifs <;> omega

lemma clampReportRange_lt {validAfter obs : ℕ} (maxReportRange : ℤ) (h : validAfter < obs) :
    clampReportRange validAfter obs maxReportRange < obs := by
  have hpos := effectiveReportRange_pos maxReportRange
  unfold clampReportRange
  dsimp only
  split_ifs <;> omega

def scaleSeconds (seconds : ℕ) : TimeResolution → ℕ
  | .seconds => seconds
  | .milliseconds => seconds * 10 ^ 3
  | .microseconds => seconds * 10 ^ 6
  | .nanoseconds => seconds * 10 ^ 9

def checkUint32 (name : String) (n : ℕ) : Except String Unit :=
  if n > 2 ^ 32 - 1 then .error s!"{name} {n} exceeds uint32 range" else .ok ()

/-- Whole seconds, which must fit 32 bits. -/
def extractTimestamps (validAfter observationTimestamp : ℕ) : Except String (ℕ × ℕ) :=
  let vas := validAfter / 10 ^ 9
  let ots := observationTimestamp / 10 ^ 9
  if vas > 2 ^ 32 - 1 then .error s!"validAfterSeconds too large: {vas}"
  else if ots > 2 ^ 32 - 1 then .error s!"observationTimestampSeconds too large: {ots}"
  else .ok (vas,ots)

def extractPrice : Option StreamValue → Except String Decimal
  | some (.decimal d) => .ok d
  | some (.quote q) => .ok q.benchmark
  | none => .ok ⟨0,0⟩
  | some (.timestamped _ _) => .error "expected *Decimal or *Quote"

def feeScalingFactor : Decimal := .ofInt (10 ^ 18)

/-- Decimal places of an inexact division. -/
def feePrecision : ℕ := 18

/-- The fee in the token's smallest unit; there is none without a positive price. -/
def calculateFee (tokenPriceInUSD baseUSDFee : Decimal) : Go ℤ :=
  if baseUSDFee.isZero || baseUSDFee.isNegative || tokenPriceInUSD.isZero || tokenPriceInUSD.isNegative then .ok 0
  else do
    let fee ← baseUSDFee.divRound tokenPriceInUSD feePrecision
    .ok (fee.mul feeScalingFactor).bigInt

def uint192 : Text := ['u','i','n','t','1','9','2']

def checkFee (name : String) (fee : ℤ) : Except String Unit :=
  if fee < 0 then .error s!"{name} may not be negative (got: {fee})"
  else (checkSolidityInt fee uint192).mapError (fun e => s!"{name}: {e}")

/-- The bytes of an integer of a Solidity type, in two's complement if it is signed. -/
def encodePackedBigInt (v : ℤ) (t : Text) : Except String Bytes := do
  let s ← parseSolidityInt t
  s.check v
  .ok (bigEndian (s.bits / 8) (if s.signed then (v % 2 ^ s.bits).toNat else v.toNat))

/-- The same integer as one word, sign-extended. -/
def encodePaddedBigInt (v : ℤ) (t : Text) : Except String Bytes := do
  let b ← encodePackedBigInt v t
  if b.length > 32 then .error "encoded stream value is too large"
  else .ok (List.replicate (32 - b.length) (if v < 0 then 255 else 0) ++ b)

namespace ABIElement
def encodePadded (e : ABIElement) (d : Decimal) : Except String Bytes :=
  encodePaddedBigInt (e.scale d) e.type

def encodePacked (e : ABIElement) (d : Decimal) : Except String Bytes :=
  if e.type = abiZeroBytes then .ok [] else encodePackedBigInt (e.scale d) e.type

def encodePackedValue (e : ABIElement) (v : StreamValue) : Except String Bytes :=
  if e.type = abiZeroBytes then .ok []
  else
    match v with
    | .decimal d => e.encodePacked d
    | _ => .error "EncodePacked only currently supports StreamValue type of *protocol.Decimal"

end ABIElement

namespace ABISpec
def encodePadded (s : ABISpec) (v : Option StreamValue) : Except String Bytes :=
  match v, s with
  | some (.decimal d), [e] => e.encodePadded d
  | some (.decimal _), _ => .error "expected exactly one encoder"
  | some (.timestamped at_ value), [e₀,e₁] => do
    let encodedTimestamp ← e₀.encodePadded (.ofInt at_)
    match value with
    | .decimal d => do
      let encodedDecimal ← e₁.encodePadded d
      .ok (encodedTimestamp ++ encodedDecimal)
    | _ => .error "unhandled type; supported nested types for *protocol.TimestampedStreamValue are: *protocol.Decimal"
  | some (.timestamped _ _), _ => .error "expected exactly two encoders for *protocol.TimestampedStreamValue"
  | _, _ => .error "unhandled type; supported types are: *protocol.Decimal, *protocol.TimestampedStreamValue, or *protocol.Quote"

def encodePacked (s : ABISpec) (v : Option StreamValue) : Except String Bytes :=
  match v, s with
  | some (.decimal d), [e] => e.encodePacked d
  | some (.decimal _), _ => .error "expected exactly one encoder"
  | some (.timestamped at_ value), [e₀,e₁] => do
    let encodedTimestamp ← e₀.encodePacked (.ofInt at_)
    let encodedDecimal ← e₁.encodePackedValue value
    .ok (encodedTimestamp ++ encodedDecimal)
  | some (.timestamped _ _), _ => .error "expected exactly two encoders for *protocol.TimestampedStreamValue"
  | _, _ => .error "unhandled type; supported types are: *protocol.Decimal or *protocol.TimestampedStreamValue"

end ABISpec

def buildPayload (encoders : List ABISpec) (values : List (Option StreamValue)) : Except String Bytes :=
  if encoders.length ≠ values.length ∨ encoders.length = 0 then .error "ABI and values length mismatch"
  else do
    let entries := encoders.zipWith ABISpec.encodePadded values
    errorsJoin (entries.map (fun b => b.map (fun _ => ())))
    .ok (entries.flatMap (fun b => b.toOption.getD []))

structure BaseReportFields where
  feedID : ℕ
  validFromTimestamp : ℕ
  timestamp : ℕ
  nativeFee : ℤ
  linkFee : ℤ
  expiresAt : ℕ

/-- An integer as the word the ABI encodes it in. -/
def abiWord (v : ℤ) : ℕ := (v % 2 ^ 256).toNat

/-- Seconds are encoded in 32 bits, every finer resolution in 64. -/
def checkTimestamps (rf : BaseReportFields) (resolution : TimeResolution) : Except String Unit :=
  if resolution = .seconds then do
    checkUint32 "validFromTimestamp" rf.validFromTimestamp
    checkUint32 "timestamp" rf.timestamp
    checkUint32 "expiresAt" rf.expiresAt
  else .ok ()

def buildHeader (rf : BaseReportFields) (resolution : TimeResolution) : Except String Bytes := do
  errorsJoin [checkFee "linkFee" rf.linkFee,checkFee "nativeFee" rf.nativeFee]
  checkTimestamps rf resolution
  .ok (packWords [rf.feedID,rf.validFromTimestamp,rf.timestamp,abiWord rf.nativeFee,abiWord rf.linkFee,rf.expiresAt])

/-- The opts of a definition without any. -/
def EVMABIEncodeOpts.zero : EVMABIEncodeOpts := ⟨⟨0,0⟩,0,0,[],.seconds,0⟩

def baseReportFields (opts : EVMABIEncodeOpts) (r : ReportFields) (nativePrice linkPrice : Decimal) :
    Go BaseReportFields := do
  let validAfter := convertTimestamp
    (clampReportRange r.validAfterNanoseconds r.observationTimestampNanoseconds opts.maxReportRange) opts.timeResolution
  let observationTimestamp := convertTimestamp r.observationTimestampNanoseconds opts.timeResolution
  let expiresAt := u64Add observationTimestamp (scaleSeconds opts.expirationWindow opts.timeResolution)
  let nativeFee ← calculateFee nativePrice opts.baseUSDFee
  let linkFee ← calculateFee linkPrice opts.baseUSDFee
  .ok ⟨opts.feedID,u64Add validAfter 1,observationTimestamp,nativeFee,linkFee,expiresAt⟩

/-- The encoder of both unpacked formats: they differ in the check on the opts before the
header is built and in the values that make up the payload. -/
def encodeUnpacked (J : JSON) (format : ReportFormat)
    (checkOpts : EVMABIEncodeOpts → List (Option StreamValue) → Except String Unit)
    (r : ReportFields) (cache : OptsCache) : Go Bytes :=
  if r.specimen then Go.err "codec does not support encoding specimen reports"
  else
    match r.values with
    | native :: link :: _ => do
      let nativePrice ← Go.ofExcept (extractPrice native)
      let linkPrice ← Go.ofExcept (extractPrice link)
      let opts ← Go.ofExcept (cache.getOpts .zero J.unmarshalEVMABIEncode r.channelID)
      Go.ofExcept (checkOpts opts r.values)
      let rf ← baseReportFields opts r nativePrice linkPrice
      let header ← Go.ofExcept (buildHeader rf opts.timeResolution)
      let values ← Go.ofExcept (abiPayload format opts.abi.length r.values)
      let payload ← Go.ofExcept (buildPayload opts.abi values)
      .ok (header ++ payload)
    | _ => Go.err "codec requires at least 2 values (NativePrice, LinkPrice, ...)"

def encodeEVMABIEncodeUnpacked (J : JSON) (r : ReportFields) (cache : OptsCache) : Go Bytes :=
  encodeUnpacked J .evmABIEncodeUnpacked (fun _ _ => .ok ()) r cache

/-- The expression format needs one value for each declared expression. -/
def encodeEVMABIEncodeUnpackedExpr (J : JSON) (r : ReportFields) (cache : OptsCache) : Go Bytes :=
  encodeUnpacked J .evmABIEncodeUnpackedExpr (fun opts values =>
    if opts.abi.length < 1 then .error "no expressions found in channel definition"
    else if values.length < opts.abi.length then .error "not enough values for calculated streams"
    else .ok ()) r cache

def extractReportValues : List (Option StreamValue) → Except String (Decimal × Decimal × Quote)
  | [native,link,third] => do
    let nativePrice ← extractPrice native
    let linkPrice ← extractPrice link
    match third with
    | some (.quote q) => .ok (nativePrice,linkPrice,q)
    | _ => .error "ReportCodecPremiumLegacy expects third stream value to be of type *Quote"
  | _ => .error "ReportCodecPremiumLegacy requires exactly 3 values (NativePrice, LinkPrice, Quote)"

structure PremiumLegacyFields where
  validFromTimestamp : ℕ
  timestamp : ℕ
  nativeFee : ℤ
  linkFee : ℤ
  expiresAt : ℕ
  benchmarkPrice : ℤ
  bid : ℤ
  ask : ℤ

def checkNotNegative (name : String) (v : ℤ) : Except String Unit :=
  if v < 0 then .error s!"{name} may not be negative (got: {v})" else .ok ()

def checkField (name : String) (v : ℤ) (t : Text) : Except String Unit :=
  (checkSolidityInt v t).mapError (fun e => s!"{name}: {e}")

def buildReport (feedID : ℕ) (rf : PremiumLegacyFields) : Except String Bytes := do
  errorsJoin [checkNotNegative "linkFee" rf.linkFee,checkNotNegative "nativeFee" rf.nativeFee]
  errorsJoin [checkField "nativeFee" rf.nativeFee uint192,checkField "linkFee" rf.linkFee uint192,
    checkField "benchmarkPrice" rf.benchmarkPrice int192,checkField "bid" rf.bid int192,
    checkField "ask" rf.ask int192]
  .ok (packWords [feedID,rf.validFromTimestamp,rf.timestamp,abiWord rf.nativeFee,abiWord rf.linkFee,
    rf.expiresAt,abiWord rf.benchmarkPrice,abiWord rf.bid,abiWord rf.ask])

def EVMPremiumLegacyOpts.zero : EVMPremiumLegacyOpts := ⟨⟨0,0⟩,0,0,none,0⟩

def premiumMultiplier : Option ℤ → Except String Decimal
  | none => .ok (.ofInt 1)
  | some 0 => .error "multiplier, if specified in channel opts, must be non-zero"
  | some m => .ok (.ofInt m)

/-- Reports of this format are in seconds. -/
def encodeEVMPremiumLegacy (J : JSON) (r : ReportFields) (cache : OptsCache) : Go Bytes :=
  if r.specimen then Go.err "ReportCodecPremiumLegacy does not support encoding specimen reports"
  else do
    let (nativePrice,linkPrice,quote) ← Go.ofExcept (extractReportValues r.values)
    let opts ← Go.ofExcept (cache.getOpts .zero J.unmarshalEVMPremiumLegacy r.channelID)
    let validAfter := clampReportRange r.validAfterNanoseconds r.observationTimestampNanoseconds opts.maxReportRange
    let multiplier ← Go.ofExcept (premiumMultiplier opts.multiplier)
    let (validAfterSeconds,observationTimestampSeconds) ←
      Go.ofExcept (extractTimestamps validAfter r.observationTimestampNanoseconds)
    let validFromTimestamp := validAfterSeconds + 1
    Go.ofExcept (checkUint32 "validFromTimestamp" validFromTimestamp)
    let expiresAt := observationTimestampSeconds + opts.expirationWindow
    Go.ofExcept (checkUint32 "expiresAt" expiresAt)
    let nativeFee ← calculateFee nativePrice opts.baseUSDFee
    let linkFee ← calculateFee linkPrice opts.baseUSDFee
    Go.ofExcept (buildReport opts.feedID
      ⟨validFromTimestamp,observationTimestampSeconds,nativeFee,linkFee,expiresAt,
        (quote.benchmark.mul multiplier).bigInt,(quote.bid.mul multiplier).bigInt,
        (quote.ask.mul multiplier).bigInt⟩)

def EVMStreamlinedOpts.zero : EVMStreamlinedOpts := ⟨none,[],0⟩

def streamlinedPreamble (opts : EVMStreamlinedOpts) (format : ReportFormat) (id : ChannelID) : Bytes :=
  match opts.feedID with
  | none => bigEndian 4 format.code ++ bigEndian 4 id
  | some feedID => bigEndian 32 feedID

def encodeEVMStreamlined (J : JSON) (r : ReportFields) (cd : ChannelDefinition) (cache : OptsCache) :
    Go Bytes :=
  if r.specimen then Go.err "ReportCodecEVMStreamlined does not support encoding specimen reports"
  else do
    let opts ← Go.ofExcept (cache.getOpts .zero J.unmarshalEVMStreamlined r.channelID)
    let validAfter := clampReportRange r.validAfterNanoseconds r.observationTimestampNanoseconds opts.maxReportRange
    let values ← Go.ofExcept (abiPayload .evmStreamlined opts.abi.length r.values)
    let entries ← Go.ofExcept ((opts.abi.zip values).mapM (fun e => ABISpec.encodePacked e.1 e.2))
    .ok (streamlinedPreamble opts cd.reportFormat r.channelID ++ bigEndian 8 validAfter ++ entries.flatten)

def encodeEVM (J : JSON) (r : ReportFields) (cd : ChannelDefinition) (cache : OptsCache) : Go Bytes :=
  match cd.reportFormat with
  | .evmPremiumLegacy => encodeEVMPremiumLegacy J r cache
  | .evmABIEncodeUnpacked => encodeEVMABIEncodeUnpacked J r cache
  | .evmABIEncodeUnpackedExpr => encodeEVMABIEncodeUnpackedExpr J r cache
  | .evmStreamlined => encodeEVMStreamlined J r cd cache
  | _ => Go.err "not an EVM report format"

end DataStreams
