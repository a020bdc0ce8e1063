import DataStreams.Foundation.SortedMap
import Mathlib.Data.Char
import Mathlib.Data.Finset.Dedup
import Mathlib.Data.List.Lex
import Mathlib.Data.Nat.Size

/-! The data the plugin versions share. Identifiers, timestamps and counters are natural
numbers. -/
namespace DataStreams
abbrev ChannelID := ℕ
abbrev StreamID := ℕ
abbrev OracleID := ℕ
abbrev ConfigDigest := ℕ
abbrev Bytes := List UInt8
abbrev Text := List Char

instance : LawfulBEq Bytes := inferInstance
instance : LawfulBEq Text := inferInstance

def u64Add (a b : ℕ) : ℕ := (a + b) % 2 ^ 64

/-- Addition that stops at the largest `uint64`. -/
def saturatingAdd (a b : ℕ) : ℕ := min (a + b) (2 ^ 64 - 1)

inductive Aggregator
  | unset
  | median
  | mode
  | quote
  | calculated
  | other (code : ℕ)
  deriving DecidableEq, Repr

inductive ReportFormat
  | evmPremiumLegacy
  | json
  | retirement
  | evmABIEncodeUnpacked
  | capabilityTrigger
  | evmStreamlined
  | evmABIEncodeUnpackedExpr
  | historyBackfill
  | other (code : ℕ)
  deriving DecidableEq, Repr

def Aggregator.code : Aggregator → ℕ
  | .unset => 0
  | .median => 1
  | .mode => 2
  | .quote => 3
  | .calculated => 4
  | .other code => code

def ReportFormat.code : ReportFormat → ℕ
  | .evmPremiumLegacy => 1
  | .json => 2
  | .retirement => 3
  | .evmABIEncodeUnpacked => 4
  | .capabilityTrigger => 5
  | .evmStreamlined => 6
  | .evmABIEncodeUnpackedExpr => 7
  | .historyBackfill => 8
  | .other code => code

structure Stream where
  streamID : StreamID
  aggregator : Aggregator
  deriving DecidableEq, Repr

structure ChannelDefinition where
  reportFormat : ReportFormat
  streams : List Stream
  opts : Bytes
  tombstone : Bool
  source : ℕ
  disableNilStreamValues : Bool
  deriving DecidableEq, Repr

abbrev DefinitionEntry := ChannelID × ChannelDefinition
abbrev ChannelDefinitions := SortedMap ChannelID ChannelDefinition

abbrev ChannelVotes := List ChannelID × ChannelDefinitions

namespace ChannelDefinition
def isBackfill (cd : ChannelDefinition) : Bool := cd.reportFormat = .historyBackfill

def hasCalculatedStreams (cd : ChannelDefinition) : Bool :=
  cd.reportFormat = .evmABIEncodeUnpackedExpr

@[simp] lemma isBackfill_eq_true {cd : ChannelDefinition} :
    cd.isBackfill = true ↔ cd.reportFormat = .historyBackfill :=
  decide_eq_true_iff

end ChannelDefinition

inductive TimeResolution
  | seconds
  | milliseconds
  | microseconds
  | nanoseconds
  deriving DecidableEq, Repr

/-- `unset` is what an empty store reads as. -/
inductive LifeCycleStage
  | unset
  | staging
  | production
  | retired
  deriving DecidableEq, Repr

structure AttributedOnchainSignature where
  signature : Bytes
  signer : ℕ
  deriving DecidableEq, Repr

/-- A decimal number `coefficient * 10 ^ exponent`. -/
structure Decimal where
  coefficient : ℤ
  exponent : ℤ
  deriving DecidableEq, Repr

namespace Decimal
def ofInt (n : ℤ) : Decimal := ⟨n,0⟩

def isNegative (d : Decimal) : Bool := d.coefficient < 0

def mul (a b : Decimal) : Decimal :=
  ⟨a.coefficient * b.coefficient,a.exponent + b.exponent⟩

/-- Truncation toward zero. -/
def bigInt (d : Decimal) : ℤ :=
  if 0 ≤ d.exponent then d.coefficient * 10 ^ d.exponent.toNat
  else d.coefficient.tdiv (10 ^ (-d.exponent).toNat)

def coefficientBits (d : Decimal) : ℕ := d.coefficient.natAbs.size

/-- `a ≤ b`, compared at the smaller of the two exponents. -/
def le (a b : Decimal) : Bool :=
  let e := min a.exponent b.exponent
  a.coefficient * 10 ^ (a.exponent - e).toNat ≤ b.coefficient * 10 ^ (b.exponent - e).toNat

end Decimal

structure Quote where
  bid : Decimal
  benchmark : Decimal
  ask : Decimal
  deriving DecidableEq, Repr

/-- Bid, benchmark and ask are in order. -/
def Quote.isValid (q : Quote) : Bool := q.bid.le q.benchmark && q.benchmark.le q.ask

inductive StreamValue
  | decimal (d : Decimal)
  | quote (q : Quote)
  | timestamped (observedAtNanoseconds : ℕ) (value : StreamValue)
  deriving DecidableEq, Repr

/-- How the decimal package writes a decimal. -/
abbrev DecimalEncoder := Decimal → Except String Bytes

abbrev StreamValues := SortedMap StreamID (Option StreamValue)
abbrev StreamAggregates := StreamID → Aggregator → Option StreamValue

/-- What a retired instance hands to its successor. The map is absent when the encoded
report carries `null` in its place. -/
structure RetirementReport where
  protocolVersion : ℕ
  validAfterNanoseconds : Option (SortedMap ChannelID ℕ)
  deriving DecidableEq

def maxSupportedProtocolVersion : ℕ := 2

/-- A successor refuses reports and configurations of versions it does not know. -/
def RetirementReport.checkCompatible (r : RetirementReport) (successor : ℕ) : Except String Unit :=
  if r.protocolVersion > maxSupportedProtocolVersion then
    .error s!"predecessor retirement report has unsupported protocol version {r.protocolVersion} (max supported: {maxSupportedProtocolVersion})"
  else if successor > maxSupportedProtocolVersion then
    .error s!"this instance has unsupported protocol version {successor} (max supported: {maxSupportedProtocolVersion})"
  else .ok ()

def maxReportCount : ℕ := 2000
def maxOutcomeChannelDefinitionsLength : ℕ := maxReportCount
def maxObservationRemoveChannelIDsLength : ℕ := 5
def maxObservationUpdateChannelDefinitionsLength : ℕ := 5
def maxObservationStreamValuesLength : ℕ := 10000
def maxObservationSupportedReportFormatsLength : ℕ := 32
def maxObservationPredecessorSignersLength : ℕ := 31
def maxPredecessorSignerBytes : ℕ := 128
def maxAttestedRetirementReportBytes : ℕ := 192 * 1024
def maxStreamsPerChannel : ℕ := 10000
def maxDecimalExponent : ℤ := 1000
def maxDecimalCoefficientBits : ℕ := 192
def maxStreamValueNesting : ℕ := 4
def maxTotalStreamEntries : ℕ := 50000
def maxChannelOptsBytes : ℕ := 16 * 1024
def maxTotalOptsBytes : ℕ := 1024 * 1024
def maxPersistedAggregates : ℕ := 2 * maxObservationStreamValuesLength
def maxTotalCalculatedStreams : ℕ := maxPersistedAggregates
def maxExpressionsPerChannel : ℕ := 32
def maxTotalTWAPCalls : ℕ := 64
def maxTWAPCallsPerExpression : ℕ := 4
def maxHistoryBackfillObservations : ℕ := 64
def maxHistoryRecordsPerPair : ℤ := 1024
def maxHistoryRecordsPerExpression : ℕ := 4 * 1024
def maxHistoryPairs : ℕ := 128
def maxHistoryRecordBytes : ℕ := 128
def maxHistoryChunkRecords : ℕ := 64
def maxHistoryChunkSlots : ℕ := maxHistoryRecordsPerPair.toNat / maxHistoryChunkRecords + 2
def maxDecompressedObservationLength : ℕ := 16 * 1024 * 1024

end DataStreams
