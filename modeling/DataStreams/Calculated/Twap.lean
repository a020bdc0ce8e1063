import DataStreams.Calculated.Scalars

/-! The time weighted average of a window of one-second buckets, whose gaps are filled by steps
of a constant ratio. -/
namespace DataStreams
structure TwapConfig where
  windowSeconds : ℤ
  minSamples : ℤ
  maxHeadGap : ℤ
  maxInteriorGap : ℤ
  maxTailGap : ℤ
  deriving DecidableEq, Repr

inductive TwapRejectionReason
  | insufficientSamples
  | headGapTooLong
  | interiorGapTooLong
  | tailGapTooLong
  deriving DecidableEq, Repr

/-- The samples of a window and its longest gaps. -/
structure TwapStats where
  m : ℤ
  gHead : ℤ
  gInt : ℤ
  gTail : ℤ
  deriving DecidableEq, Repr

structure TwapRejection where
  reasons : List TwapRejectionReason
  stats : TwapStats
  config : TwapConfig
  windowStartSeconds : ℤ
  windowEndSeconds : ℤ
  records : ℕ
  deriving DecidableEq, Repr

/-- The ways a window can fail: a price that has no logarithm, the acceptance rule, or the
arithmetic. -/
inductive TwapFailure
  | price (record : ℕ) (value : Decimal)
  | rejection (r : TwapRejection)
  | fault (f : Fault)
  deriving DecidableEq, Repr

/-- One observed second of the window. -/
structure TwapObservation where
  offset : ℕ
  price : Decimal
  deriving DecidableEq, Repr

def nanosecondsPerSecond : ℕ := 10 ^ 9

/-- A record in the window becomes an observation. Timestamps increase, so that records of one
second are adjacent and the later one replaces the earlier. -/
def twapObserve (windowStart anchorSeconds : ℤ) (observations : List TwapObservation) (record : (Decimal × ℕ) × ℕ) :
    Except TwapFailure (List TwapObservation) :=
  let seconds : ℤ := (record.1.2 / nanosecondsPerSecond : ℕ)
  if seconds < windowStart ∨ anchorSeconds ≤ seconds then .ok observations
  else if !record.1.1.isPositive then .error (.price record.2 record.1.1)
  else
    let offset := (seconds - windowStart).toNat
    match observations.getLast? with
    | none => .ok [⟨offset,record.1.1⟩]
    | some last =>
      if last.offset = offset then .ok (observations.dropLast ++ [⟨offset,record.1.1⟩])
      else .ok (observations ++ [⟨offset,record.1.1⟩])

def twapObservations (series : Series) (windowStart anchorSeconds : ℤ) : Except TwapFailure (List TwapObservation) :=
  ((series.values.zip series.timestamps).zipIdx).foldlM (twapObserve windowStart anchorSeconds) []

/-- The longest gap behind an observation. -/
def twapInteriorGap : TwapObservation → List TwapObservation → ℤ → ℤ
  | _,[],gInt => gInt
  | left,right :: rest,gInt => twapInteriorGap right rest (max gInt (right.offset - left.offset - 1))

variable (observations : List TwapObservation)
def twapGapStats (n : ℤ) : TwapStats :=
  match observations with
  | [] => ⟨0,0,0,0⟩
  | first :: rest =>
    { m := observations.length
      gHead := first.offset
      gInt := twapInteriorGap first rest 0
      gTail := n - 1 - (rest.getLastD first).offset }

def twapReasons (cfg : TwapConfig) (stats : TwapStats) : List TwapRejectionReason :=
  (if stats.m < max cfg.minSamples 1 then [.insufficientSamples] else []) ++
    (if cfg.maxHeadGap < stats.gHead then [.headGapTooLong] else []) ++
    (if cfg.maxInteriorGap < stats.gInt then [.interiorGapTooLong] else []) ++
    (if cfg.maxTailGap < stats.gTail then [.tailGapTooLong] else [])

/-- The ratio of one second of a gap, with guard digits up to the last rounding. -/
def twapStepRatio (left right : Decimal) (span : ℤ) : Go Decimal := do
  let growth ← divRound right left (doublePrecision + expGuardDigits)
  let logGrowth ← lnDecimal growth (doublePrecision + expGuardDigits : ℕ)
  let logRatio ← divRoundByInt logGrowth span (doublePrecision + expGuardDigits)
  expDecimal logRatio doublePrecision

def twapSteps (ratio : Decimal) : ℕ → Decimal → Decimal → Decimal
  | 0,_,sum => sum
  | k + 1,price,sum =>
    let price := (price.mul ratio).round doublePrecision
    twapSteps ratio k price (sum.add price)

def twapInterpolate (left right : TwapObservation) : Go Decimal :=
  match twapStepRatio left.price right.price (right.offset - left.offset) with
  | .error (.error e) => Go.err s!"TWAP: interpolating buckets {left.offset + 1}..{(right.offset : ℤ) - 1}: {e}"
  | .error (.panic m) => Go.panics m
  | .ok ratio => .ok (twapSteps ratio (right.offset - left.offset - 1) left.price .zero)

def twapFill : Option TwapObservation → List TwapObservation → Decimal → Go Decimal
  | _,[],sum => .ok sum
  | none,observation :: rest,sum => twapFill (some observation) rest (sum.add observation.price)
  | some left,observation :: rest,sum =>
    if (observation.offset : ℤ) - left.offset = 1 then twapFill (some observation) rest (sum.add observation.price)
    else do
      let filled ← twapInterpolate left observation
      twapFill (some observation) rest ((sum.add observation.price).add filled)

def twapFillThenAverage (n : ℤ) : Go Decimal := do
  let first ← Go.index observations 0
  let last ← Go.index observations (observations.length - 1)
  let sum := first.price.mul (.ofInt first.offset)
  let sum := sum.add (last.price.mul (.ofInt (n - 1 - last.offset)))
  let sum ← twapFill none observations sum
  divRoundByInt sum n calculatedPrecision

def twap (series : Series) (cfg : TwapConfig) (anchorSeconds : ℤ) : Except TwapFailure Decimal := do
  let windowStart := anchorSeconds - cfg.windowSeconds
  let observations ← twapObservations series windowStart anchorSeconds
  let stats := twapGapStats observations cfg.windowSeconds
  let reasons := twapReasons cfg stats
  if reasons ≠ [] then
    .error (.rejection ⟨reasons,stats,cfg,windowStart,anchorSeconds,series.values.length⟩)
  else
    match twapFillThenAverage observations cfg.windowSeconds with
    | .error f => .error (.fault f)
    | .ok d => .ok d

def errTwapConfig : String := "invalid TWAP configuration"

def Decimal.isInteger (d : Decimal) : Bool := 0 ≤ d.exponent ∨ d.coefficient.tmod (10 ^ (-d.exponent).toNat) = 0

def decimalToInt (name : String) (d : Decimal) (minimum maximum : ℤ) : Except String ℤ :=
  if !d.isInteger then .error s!"{name} must be a whole number, got {d.text}"
  else if d.lt (.ofInt minimum) then .error s!"{name} must be at least {minimum}, got {d.text}"
  else if (Decimal.ofInt maximum).lt d then .error s!"{name} must be at most {maximum}, got {d.text}"
  else .ok d.bigInt

lemma decimalToInt_bounds {name : String} {d : Decimal} {lo hi k : ℤ} (h : decimalToInt name d lo hi = .ok k) : lo ≤ k ∧ k ≤ hi := by
  unfold decimalToInt at h
  split_ifs at h with hwhole hlow hhigh
  cases h
  rw [Decimal.lt_iff_toRat_lt,Decimal.toRat_ofInt,not_lt] at hlow hhigh
  rw [Decimal.bigInt_eq_truncate,truncate]
  split_ifs with hnonneg
  · exact ⟨Int.le_floor.2 hlow,by exact_mod_cast (Int.floor_le d.toRat).trans hhigh⟩
  · exact ⟨by exact_mod_cast hlow.trans (Int.le_ceil d.toRat),Int.ceil_le.2 hhigh⟩

/-- An absent entry of a map reads as nil. -/
def Arg.nil : Arg := .other "<nil>"

def Arg.isNil (x : Arg) : Bool := x.typeName = "<nil>"

inductive ConfigArg
  | fields (entries : List (String × Arg))
  | value (x : Arg)

def configField (fields : List (String × Arg)) (key : String) : Arg :=
  match fields.find? (fun e => e.1 = key) with
  | some e => e.2
  | none => .nil

def twapWindowSeconds (L : Libs) (raw : Arg) : Go ℤ :=
  if raw.isNil then Go.err s!"{errTwapConfig}: window is required"
  else
    match toDecimal L raw with
    | .error e => Go.err s!"{errTwapConfig}: window: {e}"
    | .ok nanoseconds => do
      let perSecond := Decimal.ofInt nanosecondsPerSecond
      let (_,rest) ← nanoseconds.quoRem perSecond 0
      if !rest.isZero then Go.err s!"{errTwapConfig}: window must be a whole number of seconds"
      else
        let seconds ← nanoseconds.divRound perSecond 0
        if seconds.lt (.ofInt 1) then
          Go.err s!"{errTwapConfig}: window must be at least one second, got {seconds.text}"
        else if (Decimal.ofInt twapMaxWindowSeconds).lt seconds then
          Go.err s!"{errTwapConfig}: window of {seconds.text} seconds exceeds the maximum of {twapMaxWindowSeconds}"
        else
          match decimalToInt "window" seconds 1 twapMaxWindowSeconds with
          | .error e => Go.err s!"{errTwapConfig}: {e}"
          | .ok n => .ok n

def twapConfigInt (L : Libs) (fields : List (String × Arg)) (key : String) (minimum : ℤ) : Go ℤ :=
  let raw := configField fields key
  if raw.isNil then Go.err s!"{errTwapConfig}: {key} is required"
  else
    match toDecimal L raw with
    | .error e => Go.err s!"{errTwapConfig}: {key}: {e}"
    | .ok d =>
      match decimalToInt key d minimum twapMaxWindowSeconds with
      | .error e => Go.err s!"{errTwapConfig}: {e}"
      | .ok n => .ok n

def twapConfigKeys : List String := ["window","minSamples","maxHeadGap","maxInteriorGap","maxTailGap"]

def checkTwapTolerance (windowSeconds minSamples : ℤ) (key : String) (value : ℤ) : Go Unit :=
  if windowSeconds - minSamples < value then
    Go.err s!"{errTwapConfig}: {key} {value} exceeds the {windowSeconds - minSamples} buckets a gap can span in a window of {windowSeconds} with minSamples {minSamples}"
  else .ok ()

def parseTwapConfig (L : Libs) : ConfigArg → Go TwapConfig
  | .value x => Go.err s!"{errTwapConfig}: expected a configuration map, got {x.typeName}"
  | .fields fields => do
    let unknown := (fields.map Prod.fst).filter fun key => key ∉ twapConfigKeys
    if unknown ≠ [] then
      let keys := String.intercalate ", " (unknown.mergeSort (fun a b => decide (a ≤ b)))
      Go.err s!"{errTwapConfig}: unknown keys {keys}"
    else
      let windowSeconds ← twapWindowSeconds L (configField fields "window")
      let minSamples ← twapConfigInt L fields "minSamples" 1
      let maxHeadGap ← twapConfigInt L fields "maxHeadGap" 0
      let maxInteriorGap ← twapConfigInt L fields "maxInteriorGap" 0
      let maxTailGap ← twapConfigInt L fields "maxTailGap" 0
      if windowSeconds < minSamples then
        Go.err s!"{errTwapConfig}: minSamples {minSamples} exceeds the {windowSeconds} one-second buckets in the window"
      else
        checkTwapTolerance windowSeconds minSamples "maxHeadGap" maxHeadGap
        checkTwapTolerance windowSeconds minSamples "maxInteriorGap" maxInteriorGap
        checkTwapTolerance windowSeconds minSamples "maxTailGap" maxTailGap
        .ok ⟨windowSeconds,minSamples,maxHeadGap,maxInteriorGap,maxTailGap⟩

lemma twapWindowSeconds_ends (L : Libs) (raw : Arg) : (twapWindowSeconds L raw).Ends fun _ => True := by
  rw [twapWindowSeconds]
  split_ifs
  · trivial
  split
  · trivial
  next nanoseconds h =>
    have hexp := (toDecimal_isOperand h).2
    obtain ⟨hlow,hhigh⟩ := abs_le.1 hexp
    have hquotient := @Decimal.divRound_eq nanoseconds (.ofInt nanosecondsPerSecond) 0 (by decide)
      ⟨by simp [Decimal.ofInt]; omega,by simp [Decimal.ofInt]; omega⟩
    obtain ⟨parts,hparts,-⟩ := Go.bind_ok_iff.1 hquotient
    dsimp only
    rw [hparts,Go.ok_bind]
    split_ifs
    · trivial
    rw [hquotient,Go.ok_bind]
    split_ifs
    · trivial
    · trivial
    split <;> trivial

lemma twapConfigInt_ends (L : Libs) (fields : List (String × Arg)) (key : String) (minimum : ℤ) :
    (twapConfigInt L fields key minimum).Ends fun _ => True := by
  rw [twapConfigInt]
  split_ifs
  · trivial
  split
  · trivial
  split <;> trivial

lemma checkTwapTolerance_ends (windowSeconds minSamples : ℤ) (key : String) (value : ℤ) :
    (checkTwapTolerance windowSeconds minSamples key value).Ends fun _ => True := by
  rw [checkTwapTolerance]
  split_ifs <;> trivial

/-- Parsing a configuration never crashes: the one division is by a constant. -/
lemma parseTwapConfig_ends (L : Libs) (raw : ConfigArg) : (parseTwapConfig L raw).Ends fun _ => True := by
  cases raw with
  | value x => trivial
  | fields fields =>
    rw [parseTwapConfig]
    dsimp only
    split_ifs
    · trivial
    refine (twapWindowSeconds_ends L _).bind fun windowSeconds _ => ?_
    refine (twapConfigInt_ends L fields _ _).bind fun minSamples _ => ?_
    refine (twapConfigInt_ends L fields _ _).bind fun maxHeadGap _ => ?_
    refine (twapConfigInt_ends L fields _ _).bind fun maxInteriorGap _ => ?_
    refine (twapConfigInt_ends L fields _ _).bind fun maxTailGap _ => ?_
    split_ifs
    · trivial
    refine (checkTwapTolerance_ends _ _ _ _).bind fun _ _ => ?_
    refine (checkTwapTolerance_ends _ _ _ _).bind fun _ _ => ?_
    exact (checkTwapTolerance_ends _ _ _ _).bind fun _ _ => trivial

def historyWindow (name : String) : Arg → Except String Series
  | .series s => if s.values.length = 0 then .error s!"{name}: history window is empty" else .ok s
  | x => .error s!"{name} expects a history window, got {x.typeName}"

end DataStreams
