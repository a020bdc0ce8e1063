import DataStreams.Calculated.HistoryAst

/-! What a codec says about a channel definition. -/
namespace DataStreams
/-- A report codec, without its encoder. The optional interfaces of the code are the
optional fields. -/
structure ReportCodec where
  verify : ChannelDefinition → Except String Unit
  verifyForAdmission : Option (ChannelDefinition → Go Unit)
  feedID : Option (ChannelDefinition → Except String (Option ℕ))
  twapCalls : Option (ChannelDefinition → Go ℕ)

abbrev ReportCodecs := ReportFormat → Option ReportCodec

/-- The channel's expressions in declaration order; an empty one is an error. -/
def expressions (J : JSON) (cache : Option OptsCache) (cd : ChannelDefinition) (id : ChannelID) :
    Except String (List Text) := do
  let abi ← decodeCalculatedStreamOpts J cache cd id
  if abi.length > maxExpressionsPerChannel then
    .error s!"channel {id} declares {abi.length} expressions, exceeding the maximum of {maxExpressionsPerChannel}"
  else if abi.any (fun a => a.expression = []) then .error "expression is empty"
  else .ok (abi.map CalculatedStreamABI.expression)

def aggregatorByStream (streams : List Stream) : Except String (List (StreamID × Aggregator)) :=
  streams.foldlM (fun acc s =>
    if s.aggregator = .calculated then .ok acc
    else if acc.any (fun e => e.1 = s.streamID && e.2 ≠ s.aggregator) then
      .error s!"stream {s.streamID} appears with two aggregators"
    else .ok ((s.streamID,s.aggregator) :: acc)) []

def aggregatorCarriesField (agg : Aggregator) (field : Text) : Bool :=
  match agg with
  | .median => field = [] || field = "timestamp".toList
  | .quote => field = "bid".toList || field = "ask".toList || field = "benchmark".toList
  | _ => true

def Field.suffix : Field → Text
  | .value => []
  | .bid => "bid".toList
  | .ask => "ask".toList
  | .benchmark => "benchmark".toList

def channelBindsName (name : Text) (aggByStream : List (StreamID × Aggregator)) : Bool :=
  if name ∈ defaultEnv then true
  else
    match streamIdentifier name with
    | none => false
    | some (digits,field) =>
      match parseUint 32 digits with
      | none => false
      | some id =>
        match aggByStream.find? (fun e => e.1 = id) with
        | none => false
        | some (_,agg) => aggregatorCarriesField agg field

def expressionErrors (aggByStream : List (StreamID × Aggregator)) (entry : AnalysisEntry) :
    List String :=
  match entry.err with
  | some e => [e]
  | none =>
    (entry.names.filter (fun n => ¬ channelBindsName n aggByStream)).map
      (fun _ => "identifier is neither a function nor a field of a stream the channel observes") ++
    entry.refs.filterMap (fun ref =>
      match aggByStream.find? (fun e => e.1 = ref.streamID) with
      | none => some s!"History references stream {ref.streamID}, which the channel does not observe"
      | some (_,agg) =>
        if aggregatorCarriesField agg ref.field.suffix then none
        else some s!"History reads a field of stream {ref.streamID} that its aggregator does not produce")

/-- Every expression a channel declares is statically valid and reads only what the
channel observes. -/
def validateChannelExpressions (L : Libs) (E : ExprLib) (cd : ChannelDefinition) : Go Unit := do
  let exprs ← Go.ofExcept (expressions L.json none cd 0)
  let aggByStream ← Go.ofExcept (aggregatorByStream cd.streams)
  let entries ← exprs.mapM (analyzeHistoryExpression L E)
  if entries.flatMap (expressionErrors aggByStream) = [] then .ok ()
  else Go.err "invalid expressions"

def channelTWAPCalls (L : Libs) (E : ExprLib) (cd : ChannelDefinition) : Go ℕ :=
  match decodeCalculatedStreamOpts L.json none cd 0 with
  | .error _ => .ok 0
  | .ok abi => do
    let entries ← ((abi.map CalculatedStreamABI.expression).filter (fun e => e ≠ [])).mapM
      (analyzeHistoryExpression L E)
    .ok ((entries.filter (fun e => e.err.isNone)).map AnalysisEntry.twapCalls).sum

/-- Seven days in nanoseconds. -/
def maxReportRangeCeiling : ℤ := 7 * 24 * 60 * 60 * 10 ^ 9

/-- One year in seconds. -/
def maxExpirationWindow : ℕ := 365 * 24 * 60 * 60

def verifyMaxReportRange (maxReportRange : ℤ) : Except String Unit :=
  if maxReportRange < 0 then .error "maxReportRange must be non-negative"
  else if maxReportRange > maxReportRangeCeiling then .error "maxReportRange must not exceed 168h0m0s"
  else .ok ()

def verifyExpirationWindow (window : ℕ) : Except String Unit :=
  if window > maxExpirationWindow then
    .error s!"expirationWindow must not exceed {maxExpirationWindow} seconds; got: {window}"
  else .ok ()

/-- Every element has a type the encoders know; packed encoding also knows `bytes0`. -/
def verifyABITypes (abi : List ABISpec) (packed : Bool) : Except String Unit :=
  abi.forM (fun enc => enc.forM (fun e =>
    if packed ∧ e.type = abiZeroBytes then .ok ()
    else (parseSolidityInt e.type).map (fun _ => ())))

/-- The checks on the fee and the feed ID that the three fee-charging codecs share. -/
def verifyFeeAndFeed (baseUSDFee : Decimal) (feedID : ℕ) : Except String Unit :=
  if baseUSDFee.isNegative then .error "baseUSDFee must be non-negative"
  else if feedID = 0 then .error "feedID must not be zero"
  else .ok ()

/-- Absent opts are the zero options, as for no other EVM format. -/
def decodeEVMPremiumLegacyOpts (J : JSON) (opts : Bytes) : Except String EVMPremiumLegacyOpts :=
  if opts = [] then .ok ⟨⟨0,0⟩,0,0,none,0⟩ else J.decodeEVMPremiumLegacy opts

def reportCodecPremiumLegacy (J : JSON) : ReportCodec where
  verify cd := do
    let opts ← decodeEVMPremiumLegacyOpts J cd.opts
    verifyFeeAndFeed opts.baseUSDFee opts.feedID
    if cd.streams.length ≠ 3 then
      .error "ReportFormatEVMPremiumLegacy requires exactly 3 streams (NativePrice, LinkPrice, Quote)"
    else verifyMaxReportRange opts.maxReportRange
  verifyForAdmission := some fun cd => Go.ofExcept do
    let opts ← decodeEVMPremiumLegacyOpts J cd.opts
    if opts.multiplier = some 0 then
      .error "multiplier, if specified in channel opts, must be non-zero"
    else verifyExpirationWindow opts.expirationWindow
  feedID := some fun cd => do
    let opts ← decodeEVMPremiumLegacyOpts J cd.opts
    .ok (some opts.feedID)
  twapCalls := none

def reportCodecEVMABIEncodeUnpacked (J : JSON) : ReportCodec where
  verify cd := do
    let opts ← J.decodeEVMABIEncode cd.opts
    verifyFeeAndFeed opts.baseUSDFee opts.feedID
    if cd.streams.length < 3 then .error s!"expected at least 3 streams; got: {cd.streams.length}"
    else if opts.abi.length ≠ cd.streams.length - 2 then .error "ABI length mismatch"
    else verifyMaxReportRange opts.maxReportRange
  verifyForAdmission := some fun cd => Go.ofExcept do
    let opts ← J.decodeEVMABIEncode cd.opts
    verifyABITypes opts.abi false
    verifyExpirationWindow opts.expirationWindow
  feedID := some fun cd => do
    let opts ← J.decodeEVMABIEncode cd.opts
    .ok (some opts.feedID)
  twapCalls := none

/-- The only codec that scans the opts keys, analyses expressions and counts `TWAP`
calls. -/
def reportCodecEVMABIEncodeUnpackedExpr (L : Libs) (E : ExprLib) : ReportCodec where
  verify cd := do
    let opts ← L.json.decodeEVMABIEncode cd.opts
    verifyFeeAndFeed opts.baseUSDFee opts.feedID
    if cd.streams.length < 3 then .error s!"expected at least 3 streams; got: {cd.streams.length}"
    else verifyMaxReportRange opts.maxReportRange
  verifyForAdmission := some fun cd => do
    verifyOptsKeys L.json cd.opts
    validateChannelExpressions L E cd
    Go.ofExcept do
      let opts ← L.json.decodeEVMABIEncode cd.opts
      verifyABITypes opts.abi false
      verifyExpirationWindow opts.expirationWindow
  feedID := some fun cd => do
    let opts ← L.json.decodeEVMABIEncode cd.opts
    .ok (some opts.feedID)
  twapCalls := some (channelTWAPCalls L E)

/-- The bytes of the largest report: the header and every element at its width. -/
def streamlinedReportSize (opts : EVMStreamlinedOpts) : Except String ℕ := do
  let widths ← opts.abi.flatten.mapM (fun e =>
    if e.type = abiZeroBytes then .ok 0 else (parseSolidityInt e.type).map (fun s => s.bits / 8))
  .ok ((if opts.feedID.isSome then 32 + 8 else 4 + 4 + 8) + widths.sum)

def reportCodecEVMStreamlined (J : JSON) : ReportCodec where
  verify cd := do
    let opts ← J.decodeEVMStreamlined cd.opts
    if opts.abi.length ≠ cd.streams.length then .error "ABI length mismatch"
    else verifyMaxReportRange opts.maxReportRange
  verifyForAdmission := some fun cd => Go.ofExcept do
    let opts ← J.decodeEVMStreamlined cd.opts
    verifyABITypes opts.abi true
    let size ← streamlinedReportSize opts
    if size > 2 ^ 16 - 1 then .error s!"largest report is {size} bytes, exceeds maximum size 65535"
    else .ok ()
  feedID := some fun cd => do
    let opts ← J.decodeEVMStreamlined cd.opts
    .ok opts.feedID
  twapCalls := none

def jsonReportCodec : ReportCodec where
  verify cd := if cd.opts ≠ [] then .error "unexpected Opts in ChannelDefinition (JSONReportCodec expects no opts)" else .ok ()
  verifyForAdmission := none
  feedID := none
  twapCalls := none

/-- Validates definitions only; encoding is delegated to the target's codec. -/
def reportCodecHistoryBackfill (J : JSON) : ReportCodec where
  verify cd := do
    let _ ← parseHistoryBackfillOpts J cd.opts
    .ok ()
  verifyForAdmission := none
  feedID := none
  twapCalls := none

def buildCodec (L : Libs) (E : ExprLib) : ReportCodecs
  | .evmPremiumLegacy => some (reportCodecPremiumLegacy L.json)
  | .evmABIEncodeUnpacked => some (reportCodecEVMABIEncodeUnpacked L.json)
  | .evmABIEncodeUnpackedExpr => some (reportCodecEVMABIEncodeUnpackedExpr L E)
  | .evmStreamlined => some (reportCodecEVMStreamlined L.json)
  | .json => some jsonReportCodec
  | .historyBackfill => some (reportCodecHistoryBackfill L.json)
  | .retirement | .capabilityTrigger | .other _ => none

def codecsFor (L : Libs) (E : ExprLib) (installed : ReportFormat → Bool) : ReportCodecs :=
  fun format => if installed format then buildCodec L E format else none

end DataStreams
