import DataStreams.Protocol.Encodable
import Mathlib.Data.List.Sort

/-! A backfill channel carries past observations of its target in its opts and emits them in
order. -/
namespace DataStreams
structure HistoryBackfillOpts where
  targetChannelID : ChannelID
  /-- Raw timestamp keys, in the target's time resolution, to the row's values. -/
  observations : SortedMap ℕ (SortedMap StreamID Text)
  deriving DecidableEq

/-- Decimal digits only, within the given number of bits. -/
def parseUint (bits : ℕ) (t : Text) : Option ℕ :=
  let n := t.foldl (fun acc c => 10 * acc + (c.toNat - '0'.toNat)) 0
  if t ≠ [] ∧ t.all Char.isDigit ∧ n < 2 ^ bits then some n else none

/-- Keys are numbers and no two of them are the same number. -/
def parseKeys {V W : Type} (bits : ℕ) (what : String) (value : V → Except String W) :
    List (Text × V) → SortedMap ℕ W → Except String (SortedMap ℕ W)
  | [], acc => .ok acc
  | (key,v) :: rest, acc =>
    match parseUint bits key with
    | none => .error s!"invalid {what} key"
    | some n =>
      if acc.contains n then .error s!"duplicate {what} key: decodes to {n}"
      else do parseKeys bits what value rest (acc.insert n (← value v))

def parseRow (streams : SortedMap Text Text) : Except String (SortedMap StreamID Text) :=
  if streams.size = 0 then .error "empty stream map for timestamp"
  else if streams.size > maxStreamsPerChannel then .error "backfill observation has too many streams"
  else parseKeys 32 "stream id" .ok streams.entries ∅

def HistoryBackfillOpts.ofWire (w : HistoryBackfillOptsWire) : Except String HistoryBackfillOpts :=
  if w.observations.size = 0 then .error "observations must be non-empty"
  else if w.observations.size > maxHistoryBackfillObservations then
    .error "backfill definition has too many observations"
  else do
    let observations ← parseKeys 64 "observation timestamp" parseRow w.observations.entries ∅
    .ok ⟨w.targetChannelID,observations⟩

def HistoryBackfillOpts.zero : HistoryBackfillOpts := ⟨0,∅⟩

def HistoryBackfillOpts.validate (o : HistoryBackfillOpts) : Except String Unit :=
  if o.targetChannelID = 0 then .error "targetChannelId must be non-zero"
  else if o.observations.size = 0 then .error "observations must be non-empty"
  else .ok ()

variable (J : JSON)
def unmarshalHistoryBackfillOpts (raw : Bytes) : Except String HistoryBackfillOpts := do
  HistoryBackfillOpts.ofWire (← J.unmarshalHistoryBackfill raw)

def parseHistoryBackfillOpts (raw : Bytes) : Except String HistoryBackfillOpts :=
  if raw = [] then .error "empty opts"
  else do
    let o ← unmarshalHistoryBackfillOpts J raw
    o.validate
    .ok o

/-- The opts through the decode cache, or parsed afresh when the cache cannot serve
them. -/
def getHistoryBackfillOpts (cache : Option OptsCache) (cd : ChannelDefinition)
    (id : ChannelID) : Except String HistoryBackfillOpts :=
  match cache with
  | none => parseHistoryBackfillOpts J cd.opts
  | some c =>
    match c.getOpts .zero (unmarshalHistoryBackfillOpts J) id with
    | .error _ => parseHistoryBackfillOpts J cd.opts
    | .ok o => do
      o.validate
      .ok o

variable (target : ChannelDefinition)
/-- The unit of a target's observation keys. -/
def targetChannelTimeResolution :
    Except String TimeResolution :=
  match target.reportFormat with
  | .evmPremiumLegacy | .evmABIEncodeUnpacked | .evmABIEncodeUnpackedExpr =>
    reportTimeResolution J none target 0
  | .json | .retirement | .capabilityTrigger | .evmStreamlined | .historyBackfill => .ok .seconds
  | .other _ => .error "unsupported history_backfill target report format"

def reportTimestampResolutionNanos : Except String ℕ := do
  .ok (resolutionNanos (← targetChannelTimeResolution J target))

/-- A key in nanoseconds, unless it cannot be expressed in 64 bits. -/
def observationTimestampKeyToNanoseconds (rawKey : ℕ) (res : TimeResolution) : Option ℕ :=
  if rawKey > (2 ^ 64 - 1) / resolutionNanos res then none
  else some (rawKey * resolutionNanos res)

/-- One row of the opts matches the target's streams and its key is a timestamp before
`nowNanos` (when that is positive). -/
def validateBackfillRow (res : TimeResolution) (nowNanos : ℕ)
    (rawTS : ℕ) (row : SortedMap StreamID Text) : Except String Unit :=
  match observationTimestampKeyToNanoseconds rawTS res with
  | none => .error s!"observation timestamp raw {rawTS} cannot be expressed in nanoseconds at the target channel's time resolution"
  | some tsNanos =>
    if nowNanos > 0 ∧ tsNanos ≥ nowNanos then
      .error s!"observation timestamp {tsNanos} (raw {rawTS}) is not strictly in the past relative to reference time"
    else if row.size ≠ target.streams.length then
      .error s!"timestamp {rawTS}: expected {target.streams.length} stream values, got {row.size}"
    else if target.streams.all (fun s => row.contains s.streamID) then .ok ()
    else .error s!"timestamp {rawTS}: missing stream"

def validateHistoryBackfillAgainstDefinitions (cd : ChannelDefinition)
    (defs : ChannelDefinitions) (nowNanos : ℕ) : Except String Unit := do
  let opts ← parseHistoryBackfillOpts J cd.opts
  match defs.get? opts.targetChannelID with
  | none => .error s!"target channel {opts.targetChannelID} not found"
  | some target =>
    if cd.streams ≠ target.streams then .error "backfill streams must match target"
    else if target.hasCalculatedStreams then
      .error "history backfill target channel must not use calculated streams (phase 1 limitation)"
    else do
      let res ← targetChannelTimeResolution J target
      opts.observations.entries.forM (fun e => validateBackfillRow target res nowNanos e.1 e.2)

def validateHistoryBackfillTarget (cd : ChannelDefinition) (defs : ChannelDefinitions) :
    Except String Unit := do
  let opts ← parseHistoryBackfillOpts J cd.opts
  match defs.get? opts.targetChannelID with
  | none => .ok ()
  | some target =>
    if target.isBackfill then
      .error s!"target channel {opts.targetChannelID} is itself a history_backfill channel, whose reports cannot be encoded"
    else .ok ()

structure BackfillRow where
  rawTS : ℕ
  tsNanos : ℕ
  values : SortedMap StreamID Text

/-- The rows strictly between the watermark and the observation timestamp. Raw keys are
scaled by one factor, so key order is timestamp order. -/
def backfillRows (o : HistoryBackfillOpts) (res : TimeResolution) (watermark obsTsNanos : ℕ) :
    List BackfillRow :=
  o.observations.entries.filterMap (fun e =>
    match observationTimestampKeyToNanoseconds e.1 res with
    | none => none
    | some ts => if obsTsNanos ≤ ts ∨ ts ≤ watermark then none else some ⟨e.1,ts,e.2⟩)

lemma mem_backfillRows {o : HistoryBackfillOpts} {res : TimeResolution} {watermark obsTsNanos : ℕ}
    {row : BackfillRow} (h : row ∈ backfillRows o res watermark obsTsNanos) :
    observationTimestampKeyToNanoseconds row.rawTS res = some row.tsNanos ∧
      watermark < row.tsNanos ∧ row.tsNanos < obsTsNanos := by
  simp only [backfillRows,List.mem_filterMap] at h
  obtain ⟨e,_,he⟩ := h
  cases hts : observationTimestampKeyToNanoseconds e.1 res with
  | none => simp [hts] at he
  | some ts =>
    simp only [hts] at he
    split_ifs at he with hout
    cases he
    rw [not_or,not_le,not_le] at hout
    exact ⟨hts,hout.2,hout.1⟩

lemma observationTimestampKeyToNanoseconds_lt {a b x y : ℕ} {res : TimeResolution} (hab : a < b)
    (hx : observationTimestampKeyToNanoseconds a res = some x)
    (hy : observationTimestampKeyToNanoseconds b res = some y) : x < y := by
  unfold observationTimestampKeyToNanoseconds at hx hy
  split_ifs at hx hy
  cases hx
  cases hy
  have hpos : 0 < resolutionNanos res := by cases res <;> simp [resolutionNanos]
  exact Nat.mul_lt_mul_of_pos_right hab hpos

def spanNumber (t : Text) : Text × Text :=
  t.span (fun c => c.isDigit || c = '.' || c = '-')

def stripPrefix (p t : Text) : Option Text :=
  if p <+: t then some (t.drop p.length) else none

/-- A number as the quote format writes it: an optional sign, then digits and points. -/
def isQuoteNumber : Text → Bool
  | '-' :: rest => rest ≠ [] && rest.all (fun c => c.isDigit || c = '.')
  | t => t ≠ [] && t.all (fun c => c.isDigit || c = '.')

/-- The three numbers of `Q{Bid: b, Benchmark: m, Ask: a}`. -/
def quoteFields (t : Text) : Option (Text × Text × Text) := do
  let t ← stripPrefix ['Q','\x7b','B','i','d',':',' '] t
  let (bid,t) := spanNumber t
  let t ← stripPrefix [',',' ','B','e','n','c','h','m','a','r','k',':',' '] t
  let (benchmark,t) := spanNumber t
  let t ← stripPrefix [',',' ','A','s','k',':',' '] t
  let (ask,t) := spanNumber t
  if t = ['\x7d'] ∧ isQuoteNumber bid ∧ isQuoteNumber benchmark ∧ isQuoteNumber ask then
    some (bid,benchmark,ask)
  else none

def checkDecimalExponent (d : Decimal) : Except String Unit :=
  if d.exponent > maxDecimalExponent ∨ d.exponent < -maxDecimalExponent then
    .error "decimal exponent out of range"
  else .ok ()

def checkDecimalCoefficient (d : Decimal) : Except String Unit :=
  if d.coefficientBits > maxDecimalCoefficientBits then .error "decimal coefficient out of range"
  else .ok ()

def unmarshalTextDecimal (L : Libs) (t : Text) : Except String Decimal := do
  let d ← L.decimalFromString t
  checkDecimalExponent d
  .ok d

def streamValueFromBackfillString (L : Libs) (agg : Aggregator) (t : Text) :
    Except String StreamValue :=
  match agg with
  | .quote =>
    match quoteFields t with
    | none => .error "unexpected input for quote"
    | some (bid,benchmark,ask) => do
      let bid ← unmarshalTextDecimal L bid
      let benchmark ← unmarshalTextDecimal L benchmark
      let ask ← unmarshalTextDecimal L ask
      .ok (.quote ⟨bid,benchmark,ask⟩)
  | _ => do
    let d ← unmarshalTextDecimal L t
    .ok (.decimal d)

def buildBackfillStreamValues (L : Libs) (target : ChannelDefinition)
    (row : SortedMap StreamID Text) : Except String (List StreamValue) :=
  target.streams.mapM (fun s =>
    match row.get? s.streamID with
    | none => .error s!"missing stream {s.streamID}"
    | some t => streamValueFromBackfillString L s.aggregator t)

/-- The bounds an observed value meets, at any nesting depth. -/
def checkObservedStreamValue : StreamValue → Except String Unit
  | .decimal d => checkDecimalCoefficient d
  | .quote q => do
    checkDecimalCoefficient q.bid
    checkDecimalCoefficient q.benchmark
    checkDecimalCoefficient q.ask
  | .timestamped _ v => checkObservedStreamValue v

/-- Admission only: every row parses and meets the bounds of an observed value. -/
def validateHistoryBackfillValues (L : Libs) (cd : ChannelDefinition) (defs : ChannelDefinitions) :
    Except String Unit := do
  let opts ← parseHistoryBackfillOpts L.json cd.opts
  match defs.get? opts.targetChannelID with
  | none => .ok ()
  | some target =>
    opts.observations.entries.forM (fun e => do
      let values ← buildBackfillStreamValues L target e.2
      values.forM (fun v => do
        checkObservedStreamValue v
        match v with
        | .quote q => if q.isValid then .ok () else .error "quote violates bid <= benchmark <= ask"
        | _ => .ok ()))

end DataStreams
