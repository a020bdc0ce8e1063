import DataStreams.Protocol.Wire
import Mathlib.Algebra.Order.Field.Power
import Mathlib.Tactic.Linarith
import Mathlib.Tactic.Ring

/-! The functions that reduce the contributions to a stream to one value. -/
namespace DataStreams
open List Function

namespace Decimal
def toRat (d : Decimal) : ℚ := d.coefficient * 10 ^ d.exponent

lemma rescale_eq (d : Decimal) {e : ℤ} (h : e ≤ d.exponent) :
    ((d.coefficient * 10 ^ (d.exponent - e).toNat : ℤ) : ℚ) * 10 ^ e = d.toRat := by
  have hpow : (10 : ℚ) ^ (d.exponent - e).toNat * 10 ^ e = 10 ^ d.exponent := by
    rw [← zpow_natCast,← zpow_add₀ (by norm_num),Int.toNat_of_nonneg (by omega),sub_add_cancel]
  push_cast
  rw [mul_assoc,hpow,toRat]

/-- Decimals are compared as numbers, whatever their scale. -/
lemma le_iff_toRat_le {a b : Decimal} : a.le b = true ↔ a.toRat ≤ b.toRat := by
  have hpos : (0 : ℚ) < 10 ^ (min a.exponent b.exponent) := zpow_pos (by norm_num) _
  rw [Decimal.le,decide_eq_true_iff,← rescale_eq a (min_le_left _ b.exponent),
    ← rescale_eq b (min_le_right a.exponent _),mul_le_mul_iff_left₀ hpos,Int.cast_le]

def lt (a b : Decimal) : Bool := !b.le a

lemma lt_iff_toRat_lt {a b : Decimal} : a.lt b = true ↔ a.toRat < b.toRat := by
  rw [Decimal.lt,Bool.not_eq_true',← Bool.not_eq_true,le_iff_toRat_le,not_le]

/-- Divides by ten while that is exact and the exponent may grow. -/
def stripZeros : ℕ → ℤ → ℤ → Decimal
  | 0,coef,exp => ⟨coef,exp⟩
  | fuel + 1,coef,exp =>
    if exp < maxDecimalExponent ∧ coef.tmod 10 = 0 then stripZeros fuel (coef.tdiv 10) (exp + 1) else ⟨coef,exp⟩

/-- Without trailing zeros in the coefficient. A coefficient that is not zero has fewer of
them than bits. -/
def canonical (d : Decimal) : Decimal :=
  if d.coefficient = 0 then ⟨0,0⟩ else stripZeros d.coefficientBits d.coefficient d.exponent

end Decimal

/-- `sort.Slice`. In which order it leaves items that compare equal is not specified. -/
structure SliceSort where
  sort : {α : Type} → (α → α → Bool) → List α → List α
  perm : ∀ {α : Type} (less : α → α → Bool) (l : List α), (sort less l).Perm l
  sorted : ∀ {α : Type} (less : α → α → Bool) (l : List α),
    (∀ a b, less a b = true → less b a = false) →
    (∀ a b c, less b a = false → less c b = false → less c a = false) →
    (sort less l).Pairwise (fun a b => less b a = false)

variable (S : SliceSort)
lemma SliceSort.sorted_by {α β : Type} [LinearOrder β] {less : α → α → Bool} (key : α → β)
    (hless : ∀ a b, less a b = true ↔ key a < key b) (l : List α) :
    (S.sort less l).Pairwise (fun a b => key a ≤ key b) := by
  have hfalse : ∀ a b, less a b = false ↔ key b ≤ key a := by
    intro a b
    rw [← Bool.not_eq_true,hless,not_lt]
  apply (S.sorted less l ?_ ?_).imp
  · intro a b h
    exact (hfalse b a).1 h
  · intro a b h
    exact (hfalse b a).2 ((hless a b).1 h).le
  · intro a b c hab hbc
    exact (hfalse c a).2 (((hfalse b a).1 hab).trans ((hfalse c b).1 hbc))

def insertionSlice : SliceSort where
  sort less l := l.insertionSort (fun a b => less b a = false)
  perm less l := perm_insertionSort _ l
  sorted less l hasymm htrans := by
    have : Std.Total (fun a b => less b a = false) := ⟨fun a b => by
      cases h : less b a with
      | false => exact .inl rfl
      | true => exact .inr (hasymm b a h)⟩
    have : IsTrans _ (fun a b => less b a = false) := ⟨htrans⟩
    exact pairwise_insertionSort _ l

structure TypeBuckets where
  buckets : StreamValueType → List StreamValue
  mostCommon : StreamValueType
  largest : List StreamValue

def TypeBuckets.add (b : TypeBuckets) (value : Option StreamValue) : TypeBuckets :=
  match value with
  | none => b
  | some v =>
    let bucket := b.buckets v.type ++ [v]
    let buckets := update b.buckets v.type bucket
    if bucket.length > b.largest.length ∨
        (bucket.length = b.largest.length ∧ v.type.code < b.mostCommon.code) then ⟨buckets,v.type,bucket⟩
    else ⟨buckets,b.mostCommon,b.largest⟩

variable (values : List (Option StreamValue))
/-- Contributions that are nil do not count. The first type is the lowest one. -/
def mostCommonType : StreamValueType × List StreamValue :=
  let b := values.foldl TypeBuckets.add ⟨fun _ => [],.decimal,[]⟩
  (b.mostCommon,b.largest)

def StreamValue.number : StreamValue → Option Decimal
  | .decimal d => some d
  | .quote q => some q.benchmark
  | .timestamped _ _ => none

def StreamValue.timestampedDecimal : StreamValue → Option (ℕ × Decimal)
  | .timestamped t (.decimal d) => some (t,d)
  | _ => none

def medianOfNumbers (values : List (Option StreamValue)) (minContributions : ℕ) :
    Go (Option StreamValue) :=
  let observations := values.filterMap (fun v => v.bind StreamValue.number)
  if observations.length < minContributions then
    Go.err s!"not enough contributions to calculate median: got {observations.length}, need {minContributions}"
  else do
    let d ← Go.index (S.sort Decimal.lt observations) (observations.length / 2)
    .ok (some (.decimal d))

/-- The timestamps of a bucket of timestamped values. The v30 median counts a value it
skips with a zero timestamp. -/
def medianTimestamps (countSkippedTimestamps : Bool) (bucket : List StreamValue) : List ℕ :=
  bucket.filterMap (fun v =>
    match v.timestampedDecimal with
    | some (t,_) => some t
    | none => if countSkippedTimestamps then some 0 else none)

/-- The call on the inner decimals of timestamped values takes the branch of decimals. -/
def medianAggregator (countSkippedTimestamps : Bool) (values : List (Option StreamValue))
    (minContributions : ℕ) : Go (Option StreamValue) :=
  match mostCommonType values with
  | (.timestamped,bucket) => do
    let svalues := bucket.filterMap (fun v => v.timestampedDecimal.map (fun e => some (.decimal e.2)))
    let timestamps := medianTimestamps countSkippedTimestamps bucket
    match ← medianOfNumbers S svalues minContributions with
    | none => .ok none
    | some median => do
      let t ← Go.index (S.sort (fun a b => a < b) timestamps) (timestamps.length / 2)
      .ok (some (.timestamped t median))
  | (.decimal,_) => medianOfNumbers S values minContributions
  | (.quote,_) => medianOfNumbers S values minContributions
  | (.other code,_) => Go.err s!"cannot take median of unsupported StreamValue type {code}"

def medianAggregatorV30 := medianAggregator S true

def medianAggregatorV31 := medianAggregator S false

def canonicalStreamValue : StreamValue → StreamValue
  | .decimal d => .decimal d.canonical
  | .quote q => .quote ⟨q.bid.canonical,q.benchmark.canonical,q.ask.canonical⟩
  | .timestamped t v => .timestamped t v

def canonicalModeValue : StreamValue → StreamValue × ℕ
  | .timestamped t v => (.timestamped 0 (canonicalStreamValue v),t)
  | v => (canonicalStreamValue v,0)

/-- Encodings are compared byte by byte, as numbers. -/
abbrev ModeKey := List ℕ

abbrev ModeVotes := SortedMap ModeKey (Bytes × List ℕ)

def ModeVotes.cast (decimal : DecimalEncoder) (votes : ModeVotes) (value : StreamValue) :
    Except String ModeVotes := do
  let (v,observedAt) := canonicalModeValue value
  let b ← v.marshalBinary decimal
  let key := b.map UInt8.toNat
  .ok (votes.insert key (b,((votes.get? key).elim [] Prod.snd) ++ [observedAt]))

/-- The encoding most values agree on, the lowest one on a tie. -/
def ModeVotes.winner (votes : ModeVotes) : Bytes × List ℕ :=
  votes.entries.foldl (fun best e => if e.2.2.length > best.2.length then e.2 else best) ([],[])

def modeAggregator (W : WireLibs) (decimal : DecimalEncoder)
    (values : List (Option StreamValue)) (minContributions : ℕ) : Go (Option StreamValue) := do
  let (type,bucket) := mostCommonType values
  let votes ← Go.ofExcept (bucket.foldlM (ModeVotes.cast decimal) (∅ : ModeVotes))
  let (serialized,timestamps) := votes.winner
  if timestamps.length < minContributions then
    Go.err s!"not enough contributions in agreement to calculate mode: most common value had {timestamps.length}, need {minContributions}"
  else if serialized = [] then .ok none
  else
    match ← Go.ofExcept (unmarshalProtoStreamValue W (some ⟨type,serialized⟩)) with
    | .timestamped _ v => do
      let t ← Go.index (S.sort (fun a b => a < b) timestamps) (timestamps.length / 2)
      .ok (some (.timestamped t v))
    | v => .ok (some v)

def validQuote : Option StreamValue → Option Quote
  | some (.quote q) => if q.isValid then some q else none
  | _ => none

/-- Each sort starts from the order the one before it left. -/
def quoteAggregator (values : List (Option StreamValue)) (minContributions : ℕ) :
    Go (Option StreamValue) :=
  let observations := values.filterMap validQuote
  if observations.length < minContributions then
    Go.err s!"not enough valid contributions to aggregate quote: got {observations.length}, need {minContributions}"
  else do
    let byBenchmark := S.sort (fun p q => p.benchmark.lt q.benchmark) observations
    let benchmark ← Go.index byBenchmark (byBenchmark.length / 2)
    let byBid := S.sort (fun p q => p.bid.lt q.bid) byBenchmark
    let bid ← Go.index byBid (byBid.length / 2)
    let byAsk := S.sort (fun p q => p.ask.lt q.ask) byBid
    let ask ← Go.index byAsk (byAsk.length / 2)
    .ok (some (.quote ⟨bid.bid,benchmark.benchmark,ask.ask⟩))

abbrev AggregatorFunc := List (Option StreamValue) → ℕ → Go (Option StreamValue)

def getAggregatorFunc (W : WireLibs) (decimal : DecimalEncoder) :
    Aggregator → Option AggregatorFunc
  | .median => some (medianAggregatorV30 S)
  | .mode => some (modeAggregator S W decimal)
  | .quote => some (quoteAggregator S)
  | _ => none

/-- Differs in the median only. -/
def getAggregatorFuncV31 (W : WireLibs) (decimal : DecimalEncoder)
    (a : Aggregator) : Option AggregatorFunc :=
  if a = .median then some (medianAggregatorV31 S) else getAggregatorFunc S W decimal a

/-- After any number of values, every bucket holds the values of its type and the largest
one is the bucket of the most common type. -/
structure TypeBuckets.Holds (b : TypeBuckets) (values : List StreamValue) : Prop where
  buckets : ∀ ty, b.buckets ty = values.filter (fun v => v.type = ty)
  largest : b.largest = b.buckets b.mostCommon

lemma TypeBuckets.Holds.add {b : TypeBuckets} {values : List StreamValue} (h : b.Holds values)
    (value : Option StreamValue) : (b.add value).Holds (values ++ value.toList) := by
  cases value with
  | none => simpa [TypeBuckets.add] using h
  | some v =>
    have hbuckets : ∀ ty, update b.buckets v.type (b.buckets v.type ++ [v]) ty =
        (values ++ [v]).filter (fun w => w.type = ty) := by
      intro ty
      by_cases hty : v.type = ty
      · subst hty
        simp [h.buckets]
      · rw [update_of_ne (Ne.symm hty),h.buckets,filter_append]
        simp [hty]
    unfold TypeBuckets.add
    dsimp only
    split_ifs with hlarger
    · exact ⟨hbuckets,(update_self v.type (b.buckets v.type ++ [v]) b.buckets).symm⟩
    · refine ⟨hbuckets,?_⟩
      -- a bucket that grows past the largest one would have become it
      have hne : b.mostCommon ≠ v.type := by
        intro heq
        apply hlarger
        left
        rw [h.largest,heq,length_append,length_singleton]
        exact Nat.lt_succ_self _
      exact h.largest.trans (update_of_ne hne ..).symm

lemma holds_foldl_add {b : TypeBuckets} {seen : List StreamValue} (h : b.Holds seen)
    (values : List (Option StreamValue)) : (values.foldl TypeBuckets.add b).Holds (seen ++ values.filterMap id) := by
  induction values generalizing b seen with
  | nil => simpa using h
  | cons v values ih =>
    have hstep := ih (h.add v)
    cases v with
    | none => simpa using hstep
    | some v => simpa using hstep

/-- The largest bucket holds the contributions of the most common type. -/
lemma mostCommonType_snd :
    (mostCommonType values).2 = (values.filterMap id).filter (fun v => v.type = (mostCommonType values).1) := by
  have hstart : TypeBuckets.Holds ⟨fun _ => [],.decimal,[]⟩ [] := ⟨fun _ => rfl,rfl⟩
  have h := holds_foldl_add hstart values
  rw [nil_append] at h
  exact h.largest.trans (h.buckets _)

end DataStreams
