import DataStreams.Mercury.Aggregate
import DataStreams.Protocol.Types

/-! Version 3 agrees on a bid, a benchmark price and an ask, which an observation has in order
or not at all. -/
namespace DataStreams.Mercury.V3
structure Prices where
  bid : ℤ
  benchmarkPrice : ℤ
  ask : ℤ
  bid_le : bid ≤ benchmarkPrice
  le_ask : benchmarkPrice ≤ ask

structure MercuryObservationProto where
  timestamp : ℕ
  benchmarkPrice : Bytes
  bid : Bytes
  ask : Bytes
  pricesValid : Bool
  maxFinalizedTimestamp : ℤ
  maxFinalizedTimestampValid : Bool
  linkFee : Bytes
  linkFeeValid : Bool
  nativeFee : Bytes
  nativeFeeValid : Bool

structure AttributedObservation where
  observation : Bytes
  observer : OracleID

/-- A value that is not valid is absent. -/
structure ParsedAttributedObservation where
  timestamp : ℕ
  observer : OracleID
  prices : Option Prices
  maxFinalizedTimestamp : Option ℤ
  linkFee : Option ℤ
  nativeFee : Option ℤ

/-- Values below -1 are not valid. -/
def ParsedAttributedObservation.getMaxFinalizedTimestamp (pao : ParsedAttributedObservation) : Option ℤ :=
  pao.maxFinalizedTimestamp.filter (-1 ≤ ·)

/-- The libraries of the plugin and its report codec, which returns a timestamp with its error. -/
structure Libs where
  unmarshal : Bytes → Except String MercuryObservationProto
  deserializeSigned : ℕ → Bytes → Except String ℤ
  observationTimestampFromReport : Bytes → ℕ × Option String

def validatePrices (bid benchmarkPrice ask : ℤ) : Except String Prices :=
  if h : bid ≤ benchmarkPrice ∧ benchmarkPrice ≤ ask then .ok ⟨bid,benchmarkPrice,ask,h.1,h.2⟩
  else .error s!"invariant violated: expected bid<=mid<=ask, got bid: {bid}, mid: {benchmarkPrice}, ask: {ask}"

def parseValid {β : Type} (valid : Bool) (decode : Except String β) : Except String (Option β) :=
  if valid then decode.map some else .ok none

variable (L : Libs)
def byteWidthInt192 : ℕ := 24

def decodeValueInt192 (s : Bytes) : Except String ℤ := L.deserializeSigned byteWidthInt192 s

def decodeNamed (name : String) (bytes : Bytes) : Except String ℤ :=
  (decodeValueInt192 L bytes).mapError fun e => s!"{name} cannot be converted to big.Int: {e}"

def parsePrices (obs : MercuryObservationProto) : Except String Prices := do
  let benchmarkPrice ← decodeNamed L "benchmarkPrice" obs.benchmarkPrice
  let bid ← decodeNamed L "bid" obs.bid
  let ask ← decodeNamed L "ask" obs.ask
  (validatePrices bid benchmarkPrice ask).mapError fun e =>
    s!"observation claimed to be valid, but contains invalid prices: {e}"

def parseAttributedObservation (ao : AttributedObservation) : Except String ParsedAttributedObservation := do
  let obs ← (L.unmarshal ao.observation).mapError fun e => s!"attributed observation cannot be unmarshaled: {e}"
  let prices ← parseValid obs.pricesValid (parsePrices L obs)
  let maxFinalizedTimestamp ← parseValid obs.maxFinalizedTimestampValid (.ok obs.maxFinalizedTimestamp)
  let linkFee ← parseValid obs.linkFeeValid (decodeNamed L "link price" obs.linkFee)
  let nativeFee ← parseValid obs.nativeFeeValid (decodeNamed L "native price" obs.nativeFee)
  return ⟨obs.timestamp,ao.observer,prices,maxFinalizedTimestamp,linkFee,nativeFee⟩

def parseAttributedObservations (aos : List AttributedObservation) : List ParsedAttributedObservation :=
  aos.filterMap fun ao => (parseAttributedObservation L ao).toOption

/-- A price without consensus is nil. -/
structure ReportFields where
  timestamp : ℕ
  validFromTimestamp : ℕ
  benchmarkPrice : Option ℤ
  bid : Option ℤ
  ask : Option ℤ
  linkFee : ℤ
  nativeFee : ℤ
  expiresAt : ℕ

/-- The value that is agreed on, or the error to be joined to the others. -/
def orError (name : String) : Go ℤ → Go (Option ℤ × List String)
  | .ok v => .ok (some v,[])
  | .error (.error e) => .ok (none,[s!"{name} failed: {e}"])
  | .error (.panic m) => Go.panics m

def orFree : Go ℤ → Go ℤ
  | .error (.error _) => .ok 0
  | consensus => consensus

/-- The timestamp a report is valid from: one past that of the previous report or, without
one, past the highest finalized one. Sums are of 32 and of 64 bits. -/
def validFrom (f : ℤ) (previousReport : Option Bytes) (timestamp : ℕ) (paos : List ParsedAttributedObservation) :
    Go (ℕ × List String) :=
  match previousReport with
  | some report =>
    let (maxFinalizedTimestamp,err) := L.observationTimestampFromReport report
    .ok ((maxFinalizedTimestamp + 1) % 2 ^ 32,err.toList)
  | none =>
    match getConsensusMaxFinalizedTimestamp ParsedAttributedObservation.getMaxFinalizedTimestamp paos f with
    | .error (.error e) => .ok (0,[e])
    | .error (.panic m) => Go.panics m
    | .ok maxFinalizedTimestamp =>
      let next := (maxFinalizedTimestamp + 1).bmod (2 ^ 64)
      if maxFinalizedTimestamp < 0 then .ok (timestamp,[])
      else if 2 ^ 32 - 1 < next then .ok (0,[s!"maxFinalizedTimestamp is too large, got: {maxFinalizedTimestamp}"])
      else .ok ((next % 2 ^ 32).toNat,[])

def consensusBenchmarkPrice (paos : List ParsedAttributedObservation) (f : ℤ) : Go ℤ :=
  getConsensusBenchmarkPrice (fun p => p.prices.map Prices.benchmarkPrice) paos f

def consensusBid (paos : List ParsedAttributedObservation) (f : ℤ) : Go ℤ :=
  getConsensusBid (fun p => p.prices.map Prices.bid) paos f

def consensusAsk (paos : List ParsedAttributedObservation) (f : ℤ) : Go ℤ :=
  getConsensusAsk (fun p => p.prices.map Prices.ask) paos f

/-- The fields, and the errors that were joined. -/
def buildReportFields (f : ℤ) (expirationWindow : ℕ) (previousReport : Option Bytes) (paos : List ParsedAttributedObservation) :
    Go (ReportFields × List String) := do
  let timestamp ← getConsensusTimestamp ParsedAttributedObservation.timestamp paos
  let (validFromTimestamp,startErrs) ← validFrom L f previousReport timestamp paos
  let (benchmarkPrice,benchmarkErrs) ← orError "GetConsensusBenchmarkPrice" (consensusBenchmarkPrice paos f)
  let (bid,bidErrs) ← orError "GetConsensusBid" (consensusBid paos f)
  let (ask,askErrs) ← orError "GetConsensusAsk" (consensusAsk paos f)
  let linkFee ← orFree (getConsensusLinkFee ParsedAttributedObservation.linkFee paos f)
  let nativeFee ← orFree (getConsensusNativeFee ParsedAttributedObservation.nativeFee paos f)
  let (expiresAt,windowErrs) :=
    if 2 ^ 32 - 1 < timestamp + expirationWindow then
      (0,[s!"timestamp {timestamp} + expiration window {expirationWindow} overflows uint32"])
    else (timestamp + expirationWindow,[])
  return (⟨timestamp,validFromTimestamp,benchmarkPrice,bid,ask,linkFee,nativeFee,expiresAt⟩,
    startErrs ++ benchmarkErrs ++ bidErrs ++ askErrs ++ windowErrs)

variable {L} {f : ℤ} {expirationWindow : ℕ} {previousReport : Option Bytes} {paos paos' : List ParsedAttributedObservation}
lemma orError_eq_nil {name : String} {x : Go ℤ} {v : Option ℤ} (h : orError name x = .ok (v,[])) : ∃ m, v = some m ∧ x = .ok m := by
  match x with
  | .ok m =>
    cases h
    exact ⟨m,rfl,rfl⟩
  | .error (.error _) => cases h
  | .error (.panic _) => cases h

lemma prices_of_buildReportFields {rf : ReportFields} (h : buildReportFields L f expirationWindow previousReport paos = .ok (rf,[])) :
    ∃ bid benchmarkPrice ask, rf.bid = some bid ∧ rf.benchmarkPrice = some benchmarkPrice ∧ rf.ask = some ask ∧
      consensusBid paos f = .ok bid ∧ consensusBenchmarkPrice paos f = .ok benchmarkPrice ∧ consensusAsk paos f = .ok ask := by
  simp only [buildReportFields,Go.bind_ok_iff] at h
  obtain ⟨timestamp,-,⟨start,startErrs⟩,-,⟨benchmark,benchmarkErrs⟩,hbenchmark,⟨bid,bidErrs⟩,hbid,⟨ask,askErrs⟩,hask,linkFee,-,
    nativeFee,-,h⟩ := h
  obtain ⟨hrf,herrs⟩ := Prod.mk.inj (Except.ok.inj h)
  simp only [List.append_eq_nil_iff] at herrs
  obtain ⟨⟨⟨⟨-,rfl⟩,rfl⟩,rfl⟩,-⟩ := herrs
  obtain ⟨b,rfl,hb⟩ := orError_eq_nil hbid
  obtain ⟨m,rfl,hm⟩ := orError_eq_nil hbenchmark
  obtain ⟨a,rfl,ha⟩ := orError_eq_nil hask
  subst hrf
  exact ⟨b,m,a,rfl,rfl,rfl,hb,hm,ha⟩

lemma validFrom_perm (timestamp : ℕ) (h : paos.Perm paos') :
    validFrom L f previousReport timestamp paos = validFrom L f previousReport timestamp paos' := by
  simp only [validFrom,getConsensusMaxFinalizedTimestamp_perm _ _ h]

lemma buildReportFields_perm (h : paos.Perm paos') :
    buildReportFields L f expirationWindow previousReport paos = buildReportFields L f expirationWindow previousReport paos' := by
  simp only [buildReportFields,consensusBenchmarkPrice,consensusBid,consensusAsk,getConsensusBenchmarkPrice,getConsensusBid,
    getConsensusAsk,getConsensusLinkFee,getConsensusNativeFee,getConsensusTimestamp_perm _ h,validFrom_perm _ h,
    consensusMedian_perm _ _ _ h]

def priced (oracles : OracleID → Bool) (paos : List ParsedAttributedObservation) : ℕ :=
  paos.countP fun p => p.prices.isSome && oracles p.observer

def BetweenHonest (honest : OracleID → Bool) (paos : List ParsedAttributedObservation) (price : Prices → ℤ) (m : ℤ) : Prop :=
  (∃ p ∈ paos, honest p.observer = true ∧ ∃ a ∈ p.prices.map price, a ≤ m) ∧
    ∃ p ∈ paos, honest p.observer = true ∧ ∃ a ∈ p.prices.map price, m ≤ a

lemma length_prices (price : Prices → ℤ) (oracles : OracleID → Bool) :
    ((paos.filter fun p => oracles p.observer).filterMap fun p => p.prices.map price).length = priced oracles paos := by
  rw [List.length_filterMap_eq_countP,List.countP_filter,priced]
  simp only [Option.isSome_map]

lemma betweenHonest_of_consensus {what : String} {price : Prices → ℤ} {honest : OracleID → Bool} {m : ℤ}
    (hmajority : priced (fun o => !honest o) paos < priced honest paos)
    (h : consensusMedian what (fun p : ParsedAttributedObservation => p.prices.map price) paos f = .ok m) :
    BetweenHonest honest paos price m := by
  have hpriced : ((paos.filter fun p => !honest p.observer).filterMap fun p => p.prices.map price).length <
      ((paos.filter fun p => honest p.observer).filterMap fun p => p.prices.map price).length := by
    rw [length_prices price honest,length_prices price fun o => !honest o]
    exact hmajority
  exact consensusMedian_between h hpriced

/-- The prices of a report are in order, between those of honest oracles if these are the
majority, and the same for every order of the observations. -/
theorem prices_ordered_and_honest (L : Libs) (f : ℤ) (expirationWindow : ℕ) (previousReport : Option Bytes)
    (aos : List AttributedObservation) :
    let paos := parseAttributedObservations L aos
    (∀ rf, buildReportFields L f expirationWindow previousReport paos = .ok (rf,[]) → ∃ bid benchmarkPrice ask,
      rf.bid = some bid ∧ rf.benchmarkPrice = some benchmarkPrice ∧ rf.ask = some ask ∧
      bid ≤ benchmarkPrice ∧ benchmarkPrice ≤ ask ∧
      ∀ honest, priced (fun o => !honest o) paos < priced honest paos →
        BetweenHonest honest paos Prices.bid bid ∧ BetweenHonest honest paos Prices.benchmarkPrice benchmarkPrice ∧
        BetweenHonest honest paos Prices.ask ask) ∧
    ∀ aos', aos.Perm aos' → buildReportFields L f expirationWindow previousReport (parseAttributedObservations L aos') =
      buildReportFields L f expirationWindow previousReport paos := by
  refine ⟨fun rf h => ?_,fun aos' hperm => (buildReportFields_perm (hperm.filterMap _)).symm⟩
  obtain ⟨bid,benchmarkPrice,ask,hrfbid,hrfbenchmark,hrfask,hbid,hbenchmark,hask⟩ := prices_of_buildReportFields h
  refine ⟨bid,benchmarkPrice,ask,hrfbid,hrfbenchmark,hrfask,?_,?_,fun honest hmajority => ?_⟩
  · exact consensusMedian_le Prices.bid_le hbid hbenchmark
  · exact consensusMedian_le Prices.le_ask hbenchmark hask
  · exact ⟨betweenHonest_of_consensus hmajority hbid,betweenHonest_of_consensus hmajority hbenchmark,
      betweenHonest_of_consensus hmajority hask⟩

end DataStreams.Mercury.V3
