import DataStreams.Protocol.Opts

/-! What the state transition reads of a report format without a codec: its time resolution,
streams and value ranges. -/
namespace DataStreams

def resolutionNanos : TimeResolution → ℕ
  | .seconds => 10 ^ 9
  | .milliseconds => 10 ^ 6
  | .microseconds => 10 ^ 3
  | .nanoseconds => 1

def convertTimestamp (timestampNanos : ℕ) (res : TimeResolution) : ℕ :=
  timestampNanos / resolutionNanos res

/-- Both timestamps fall into one tick, or the first into a later one. -/
def tickOverlap (validAfterNs obsTsNs : ℕ) (res : TimeResolution) : Bool :=
  convertTimestamp validAfterNs res ≥ convertTimestamp obsTsNs res

variable (J : JSON)
variable (cache : Option OptsCache)
/-- The resolution a format's codec truncates timestamps to. -/
def reportTimeResolution (cd : ChannelDefinition)
    (id : ChannelID) : Except String TimeResolution :=
  match cd.reportFormat with
  | .evmPremiumLegacy => .ok .seconds
  | .evmABIEncodeUnpacked | .evmABIEncodeUnpackedExpr =>
    getOptsOrDecode cache .seconds J.unmarshalTimeResolution cd id
  | .json | .evmStreamlined => .ok .nanoseconds
  | .historyBackfill => .error "report format is encoded with the target channel's codec"
  | .retirement | .capabilityTrigger => .error "report format has no report codec"
  | .other _ => .error "report format has no time resolution mapping"

def decodeCalculatedStreamOpts (cd : ChannelDefinition)
    (id : ChannelID) : Except String (List CalculatedStreamABI) := do
  let abi ← getOptsOrDecode cache [] J.unmarshalCalculatedStream cd id
  if abi = [] then .error "no expressions found in channel definition" else .ok abi

def calculatedStreamIDsOf : List CalculatedStreamABI → List StreamID × Bool
  | [] => ([],false)
  | abi :: rest =>
    if abi.expressionStreamID = 0 then ([],true)
    else
      let (ids,zero) := calculatedStreamIDsOf rest
      (abi.expressionStreamID :: ids,zero)

/-- The calculated stream IDs a channel declares, with the error the code returns beside
them. On a zero ID the ones declared before it are still returned. -/
def calculatedStreamIDs (cd : ChannelDefinition)
    (id : ChannelID) : List StreamID × Option String :=
  match decodeCalculatedStreamOpts J cache cd id with
  | .error e => ([],some e)
  | .ok abi =>
    match calculatedStreamIDsOf abi with
    | (ids,false) => (ids,none)
    | (ids,true) => (ids,some "expression stream ID is 0")

/-- The streams a channel reports: the observed ones, then one calculated stream for each
declared expression. -/
def effectiveStreams (cd : ChannelDefinition)
    (id : ChannelID) : Except String (List Stream) :=
  if ¬ cd.hasCalculatedStreams then .ok cd.streams
  else do
    let abi ← decodeCalculatedStreamOpts J cache cd id
    match calculatedStreamIDsOf abi with
    | (ids,false) =>
      .ok (cd.streams.filter (fun s => s.aggregator ≠ .calculated) ++ ids.map (fun sid => ⟨sid,.calculated⟩))
    | (_,true) => .error s!"cannot derive effective streams for channel {id}: expression stream ID is 0"

structure SolidityInt where
  signed : Bool
  bits : ℕ
  deriving DecidableEq, Repr

/-- The decimal digits of a number below a thousand, without leading zeros. -/
def decimalDigits (n : ℕ) : Text := (Nat.toDigits 10 n)

def solidityWidths : List ℕ := (List.range 32).map (fun i => 8 * (i + 1))

def parseSolidityInt (t : Text) : Except String SolidityInt :=
  match solidityWidths.find? (fun b => t = 'u' :: 'i' :: 'n' :: 't' :: decimalDigits b) with
  | some b => .ok ⟨false,b⟩
  | none =>
    match solidityWidths.find? (fun b => t = 'i' :: 'n' :: 't' :: decimalDigits b) with
    | some b => .ok ⟨true,b⟩
    | none => .error "invalid Solidity type"

variable (s : SolidityInt)
def SolidityInt.min : ℤ := if s.signed then -2 ^ (s.bits - 1) else 0

def SolidityInt.max : ℤ :=
  if s.signed then 2 ^ (s.bits - 1) - 1 else 2 ^ s.bits - 1

def SolidityInt.check (v : ℤ) : Except String Unit :=
  if ¬ s.signed ∧ v < 0 then .error "negative value provided for unsigned type"
  else if v < s.min ∨ s.max < v then .error "value out of range for type"
  else .ok ()

def checkSolidityInt (v : ℤ) (t : Text) : Except String Unit := do
  (← parseSolidityInt t).check v

/-- The ABI type that packed encoding emits as no bytes. -/
def abiZeroBytes : Text := ['b','y','t','e','s','0']

/-- The integer the codecs encode. -/
def ABIElement.scale (e : ABIElement) (d : Decimal) : ℤ :=
  match e.multiplier with
  | none => d.bigInt
  | some m => (d.mul (.ofInt m)).bigInt

def ABIElement.check (e : ABIElement) (d : Decimal) (packed : Bool) : Except String Unit :=
  if packed ∧ e.type = abiZeroBytes then .ok () else checkSolidityInt (e.scale d) e.type

/-- A decimal takes one element; a timestamped decimal takes two, the observation time
first. -/
def ABISpec.checkValue (s : ABISpec) (v : Option StreamValue) (packed : Bool) :
    Except String Unit :=
  match v, s with
  | some (.decimal d), [e] => e.check d packed
  | some (.decimal _), _ => .error "expected exactly one encoder"
  | some (.timestamped at_ (.decimal d)), [e₀,e₁] => do
    e₀.check (.ofInt at_) packed
    e₁.check d packed
  | some (.timestamped at_ _), [e₀,_] => do
    e₀.check (.ofInt at_) packed
    .error "nested value must be a non-nil *protocol.Decimal"
  | some (.timestamped _ _), _ => .error "expected exactly two encoders for *protocol.TimestampedStreamValue"
  | _, _ => .error "unhandled type; supported types are: *protocol.Decimal or *protocol.TimestampedStreamValue"

def abiPayload (format : ReportFormat) (abiLen : ℕ) (values : List (Option StreamValue)) :
    Except String (List (Option StreamValue)) :=
  match format with
  | .evmABIEncodeUnpacked =>
    if values.length < 2 ∨ values.length - 2 ≠ abiLen then .error "ABI and values length mismatch"
    else .ok (values.drop 2)
  | .evmABIEncodeUnpackedExpr =>
    if abiLen = 0 ∨ values.length < abiLen then .error "not enough values for calculated streams"
    else .ok (values.drop (values.length - abiLen))
  | .evmStreamlined =>
    if values.length ≠ abiLen then .error "ABI and values length mismatch" else .ok values
  | _ => .ok []

def int192 : Text := ['i','n','t','1','9','2']

/-- The quote of a premium legacy report must fit `int192` after the multiplier. -/
def checkPremiumLegacyValues (cd : ChannelDefinition)
    (id : ChannelID) (values : List (Option StreamValue)) : Except String Unit :=
  match values with
  | [_,_,some (.quote q)] => do
    let multiplier ← getOptsOrDecode cache none J.unmarshalPremiumLegacy cd id
    if multiplier = some 0 then .error "multiplier, if specified in channel opts, must be non-zero"
    else do
      let price : ABIElement := ⟨int192,multiplier⟩
      price.check q.benchmark false
      price.check q.bid false
      price.check q.ask false
  | [_,_,_] => .error "expected third value to be a non-nil *Quote"
  | _ => .error "expected exactly 3 values (NativePrice, LinkPrice, Quote)"

/-- Fails when a value of a report falls outside the integer range its format encodes. -/
def checkEncodableValues (cd : ChannelDefinition)
    (id : ChannelID) (values : List (Option StreamValue)) : Except String Unit :=
  match cd.reportFormat with
  | .evmABIEncodeUnpacked | .evmABIEncodeUnpackedExpr | .evmStreamlined => do
    let abi ← getOptsOrDecode cache [] J.unmarshalABIPayload cd id
    let payload ← abiPayload cd.reportFormat abi.length values
    (abi.zip payload).forM (fun e => ABISpec.checkValue e.1 e.2 (cd.reportFormat = .evmStreamlined))
  | .evmPremiumLegacy => checkPremiumLegacyValues J cache cd id values
  | _ => .ok ()

end DataStreams
