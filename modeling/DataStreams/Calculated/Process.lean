import DataStreams.Calculated.Program
import DataStreams.Calculated.Series
import DataStreams.Calculated.Storable
import DataStreams.Foundation.Workers
import DataStreams.ReportCodec.EVM

/-! The calculated streams of a round. Channels are prepared one by one, evaluated concurrently
and committed one by one. -/
namespace DataStreams

/-- What an expression can name: values and functions, and the windows bound for it. The
names of windows are reserved, so the two do not meet. -/
structure ChannelEnv where
  names : Environment
  windows : SortedMap Text Series

/-- The default bindings; the observation timestamp is bound per round. -/
def defaultFunctions : List Text := defaultEnv.filter (fun name => name ≠ observationsTimestampName)

def newDefaultEnvironment : ChannelEnv := ⟨SortedMap.ofList (defaultFunctions.map (fun name => (name,.function name))),∅⟩

/-- Drops what is not bound by default and binds every default again. -/
def ChannelEnv.release (env : ChannelEnv) : ChannelEnv where
  names := (env.names.filter (fun name _ => name ∈ defaultFunctions)).insertMany
    (defaultFunctions.map (fun name => (name,.function name)))
  windows := ∅

inductive Pooled : ChannelEnv → Prop
  | new : Pooled newDefaultEnvironment
  | released (env : ChannelEnv) : Pooled env.release

/-- The environment of a channel, from one of the pool. `TWAP` is bound to the round. -/
def ChannelEnv.forRound (env : ChannelEnv) (observationTimestampNanoseconds : ℕ) : ChannelEnv where
  names := (env.names.insert observationsTimestampName (.timestamp observationTimestampNanoseconds)).insert
    "TWAP".toList (.function "TWAP".toList)
  windows := env.windows

/-- The values of a round by stream and aggregator, with the streams that have one. -/
structure Aggregates where
  values : StreamAggregates
  present : StreamID → Bool
  present_iff : ∀ id, present id = true ↔ ∃ agg v, values id agg = some v

def Aggregates.setCalculated (a : Aggregates) (id : StreamID) (value : Decimal) : Aggregates where
  values id' agg :=
    if id' = id then (if agg = .calculated then some (.decimal value) else none) else a.values id' agg
  present id' := id' = id || a.present id'
  present_iff id' := by
    by_cases heq : id' = id
    · simp [heq]
    · simp [heq,a.present_iff]

def bindStreams (values : StreamAggregates) (streams : List Stream) (env : Environment) : Except String Environment :=
  streams.foldlM (fun env s =>
    if s.aggregator = .calculated then .ok env
    else
      match values s.streamID s.aggregator with
      | none => .error "stream value is nil"
      | some v => .ok (Environment.setStreamValue env s.streamID v)) env

abbrev HistoryReader := StreamID → Aggregator → ℕ → Field → Except String Series

variable (ref : HistoryRef)
def HistoryRef.nameSuffix : String :=
  match ref.field with
  | .value => ""
  | field => "_" ++ field.describe

def HistoryRef.envName : Text := s!"s{ref.streamID}{ref.nameSuffix}__h{ref.count}".toList

def HistoryRef.describe : String := s!"History(s{ref.streamID}{ref.nameSuffix}, {ref.count})"

abbrev BoundSeries := Text × Series

def resolveRef (history : HistoryReader) (aggByStream : List (StreamID × Aggregator)) (ref : HistoryRef) :
    Go BoundSeries :=
  match aggByStream.lookup ref.streamID with
  | none => Go.err s!"History references stream {ref.streamID}, which the channel does not observe"
  | some aggregator =>
    match history ref.streamID aggregator ref.count ref.field with
    | .error e => Go.err s!"{ref.describe}: {e}"
    | .ok series =>
      if series.values.length % 2 ^ 32 ≠ ref.count then
        Go.err s!"{ref.describe}: reader returned {series.values.length} records, expected {ref.count}"
      else .ok (ref.envName,series)

def resolveHistory (L : Libs) (E : ExprLib) (expression : Text) (history : Option HistoryReader)
    (aggByStream : List (StreamID × Aggregator)) : Go (List BoundSeries) := do
  let entry ← analyzeHistoryExpression L E expression
  match entry.err with
  | some e => Go.err e
  | none =>
    if entry.refs = [] then .ok []
    else
      match history with
      | none => Go.err "expression uses History but stream history is unavailable in this protocol version"
      | some history => entry.refs.mapM (resolveRef history aggByStream)

def bindChannelHistory (L : Libs) (E : ExprLib) (cid : ChannelID) (history : Option HistoryReader)
    (aggByStream : List (StreamID × Aggregator)) : List CalculatedStreamABI → Go (List (List BoundSeries) × Option String)
  | [] => .ok ([],none)
  | abi :: rest =>
    if abi.expressionStreamID = 0 then
      .ok ([],some s!"expression stream ID is 0, channelID: {cid}, expression: {String.ofList abi.expression}")
    else if abi.expression = [] then
      .ok ([],some s!"expression is empty, channelID: {cid}, expressionStreamID: {abi.expressionStreamID}")
    else
      match resolveHistory L E abi.expression history aggByStream with
      | .error (.panic m) => Go.panics m
      | .error (.error e) =>
        .ok ([],some s!"failed to bind stream history, channelID: {cid}, expression: {String.ofList abi.expression}, error: {e}")
      | .ok window => do
        let (windows,err) ← bindChannelHistory L E cid history aggByStream rest
        .ok (window :: windows,err)

variable {L : Libs} {E : ExprLib} {cid : ChannelID} {history : Option HistoryReader}
  {aggByStream : List (StreamID × Aggregator)} {abi : List CalculatedStreamABI}
  {r : List (List BoundSeries) × Option String}
/-- The windows of a channel end at its first expression, or go on with the window of that one. -/
lemma bindChannelHistory_cons {a : CalculatedStreamABI}
    (h : bindChannelHistory L E cid history aggByStream (a :: abi) = .ok r) :
    (r.1 = [] ∧ (a.expressionStreamID ≠ 0 → a.expression ≠ [] →
      ∀ window, resolveHistory L E a.expression history aggByStream ≠ .ok window)) ∨
    ∃ window r', resolveHistory L E a.expression history aggByStream = .ok window ∧
      bindChannelHistory L E cid history aggByStream abi = .ok r' ∧ r.1 = window :: r'.1 := by
  rw [bindChannelHistory] at h
  split_ifs at h with hstream hexpression
  · cases h
    exact .inl ⟨rfl,fun hne => absurd hstream hne⟩
  · cases h
    exact .inl ⟨rfl,fun _ hne => absurd hexpression hne⟩
  split at h
  · exact absurd h (Go.panics_ne_ok _ _)
  · next hfails =>
    cases h
    refine .inl ⟨rfl,fun _ _ window hwindow => ?_⟩
    rw [hfails] at hwindow
    cases hwindow
  · next window hresolve =>
    obtain ⟨r',hrest,h⟩ := Go.bind_ok_iff.1 h
    cases h
    exact .inr ⟨window,r',hresolve,hrest,rfl⟩

lemma bindChannelHistory_length_le (h : bindChannelHistory L E cid history aggByStream abi = .ok r) :
    r.1.length ≤ abi.length := by
  induction abi generalizing r with
  | nil =>
    cases h
    exact le_rfl
  | cons a rest ih =>
    rcases bindChannelHistory_cons h with ⟨hnil,_⟩ | ⟨window,r',_,hrest,hr⟩
    · rw [hnil]
      exact Nat.zero_le _
    · rw [hr]
      exact Nat.succ_le_succ (ih hrest)

lemma decodeCalculatedStreamOpts_ne_nil {J : JSON} {cache : Option OptsCache} {cd : ChannelDefinition}
    (h : decodeCalculatedStreamOpts J cache cd cid = .ok abi) : abi ≠ [] := by
  obtain ⟨abi',_,h⟩ := Go.bind_ok_iff.1 h
  split_ifs at h with hnil
  cases h
  exact hnil

/-- What a channel is evaluated from. There are windows for a first part of the expressions,
and `err` says why there are none for the next one. -/
structure ChannelWork where
  cid : ChannelID
  cd : ChannelDefinition
  abi : List CalculatedStreamABI
  env : ChannelEnv
  windows : List (List BoundSeries)
  err : Option String
  observes : cd.streams ≠ []
  declares : abi ≠ []
  bound : windows.length ≤ abi.length

structure CalculatedInput where
  libs : Libs
  exprs : ExprLib
  channelDefinitions : ChannelDefinitions
  observationTimestampNanoseconds : ℕ
  optsCache : Option OptsCache
  history : Option HistoryReader

variable (I : CalculatedInput)
variable (pool : ChannelID → {env // Pooled env})
def prepareChannel (aggregates : Aggregates)
    (e : DefinitionEntry) : Go (Option ChannelWork) :=
  if e.2.tombstone ∨ e.2.reportFormat ≠ .evmABIEncodeUnpackedExpr then .ok none
  else
    match aggregatorByStream e.2.streams with
    | .error _ => .ok none
    | .ok aggByStream =>
      let env := (pool e.1).1.forRound I.observationTimestampNanoseconds
      match bindStreams aggregates.values e.2.streams env.names with
      | .error _ => .ok none
      | .ok names =>
        match habi : decodeCalculatedStreamOpts I.libs.json I.optsCache e.2 e.1 with
        | .error _ => .ok none
        | .ok abi =>
          if hstreams : e.2.streams = [] then .ok none
          else
            match hbind : bindChannelHistory I.libs I.exprs e.1 I.history aggByStream abi with
            | .error fault => .error fault
            | .ok r =>
              .ok (some ⟨e.1,e.2,abi,{ env with names := names },r.1,r.2,hstreams,
                decodeCalculatedStreamOpts_ne_nil habi,bindChannelHistory_length_le hbind⟩)

def prepareCalculatedStreams (aggregates : Aggregates) :
    Go (List ChannelWork) := do
  let works ← I.channelDefinitions.entries.mapM (prepareChannel I pool aggregates)
  .ok works.reduceOption

/-- Evaluation of an expression, with the history calls of its text rewritten to names. -/
abbrev EvalDecimal := Text → ChannelEnv → Except String Decimal

/-- The values of the first expressions, and why there is none for the next one. -/
structure ChannelResult where
  values : List Decimal
  err : Option String

def evalExpressions (eval : EvalDecimal) (cid : ChannelID) :
    ChannelEnv → List (List BoundSeries × CalculatedStreamABI) → ChannelResult
  | _,[] => ⟨[],none⟩
  | env,(window,abi) :: rest =>
    let env := { env with windows := env.windows.insertMany window }
    match eval abi.expression env with
    | .error e =>
      ⟨[],some s!"failed to evaluate expression, channelID: {cid}, expression: {String.ofList abi.expression}, error: {e}"⟩
    | .ok value =>
      let result := evalExpressions eval cid env rest
      ⟨value :: result.values,result.err⟩

variable (eval : EvalDecimal)
def evalChannel (work : ChannelWork) : ChannelResult :=
  let result := evalExpressions eval work.cid work.env (work.windows.zip work.abi)
  ⟨result.values,result.err.or work.err⟩

def EvaluateCalculatedStreams (workers : ℕ) (works : List ChannelWork)
    (results : List ChannelResult) : Prop :=
  if workers ≤ 1 then results = works.map (evalChannel eval)
  else ∃ s : Workers.State ChannelResult workers,
    Workers.Reaches (evalChannel eval) works (Workers.start ⟨[],none⟩ works) s ∧ s.Finished ∧ results = s.slots

def applyValues (cid : ChannelID) : List (CalculatedStreamABI × Decimal) → Aggregates → Aggregates × Option String
  | [],a => (a,none)
  | (abi,value) :: rest,a =>
    let place := s!"channelID: {cid}, expressionStreamID: {abi.expressionStreamID}, expression: {String.ofList abi.expression}"
    if a.present abi.expressionStreamID then (a,some s!"calculated stream aggregate ID already exists, {place}")
    else
      match storableDecimal value with
      | .error e => (a,some s!"calculated stream value out of range, {place}: {e}")
      | .ok value => applyValues cid rest (a.setCalculated abi.expressionStreamID value)

/-- The streams of the expressions at the end of the definition, unless its last stream says
that they are there. -/
def appendCalculated (work : ChannelWork) (defs : ChannelDefinitions) : ChannelDefinitions :=
  if (work.cd.streams.getLast work.observes).streamID ≠ (work.abi.getLast work.declares).expressionStreamID then
    defs.insert work.cid { work.cd with streams := work.cd.streams ++ work.abi.map (fun a => ⟨a.expressionStreamID,.calculated⟩) }
  else defs

/-- What a round has committed, with the failures it logged. -/
structure Calculated where
  channelDefinitions : ChannelDefinitions
  aggregates : Aggregates
  log : List (ChannelID × String)

def applyChannel (appendToDefinitions : Bool) (s : Calculated) (e : ChannelWork × ChannelResult) : Calculated :=
  let applied := applyValues e.1.cid (e.1.abi.zip e.2.values) s.aggregates
  { channelDefinitions :=
      if appendToDefinitions then appendCalculated e.1 s.channelDefinitions else s.channelDefinitions
    aggregates := applied.1
    log := s.log ++ ((applied.2.or e.2.err).toList.map (fun err => (e.1.cid,err))) }

def applyCalculatedStreams (appendToDefinitions : Bool) (works : List ChannelWork) (results : List ChannelResult)
    (s : Calculated) : Calculated :=
  (works.zip results).foldl (applyChannel appendToDefinitions) s

/-- A round that ends in `after`, with its environments from some pool and its workers
interleaved in some way. How many workers there are may depend on the work. -/
def Process (appendToDefinitions : Bool)
    (pool : ChannelID → {env // Pooled env}) (workers : List ChannelWork → ℕ) (before : Aggregates)
    (after : Calculated) : Prop :=
  ∃ works results, prepareCalculatedStreams I pool before = .ok works ∧
    EvaluateCalculatedStreams eval (workers works) works results ∧
    after = applyCalculatedStreams appendToDefinitions works results ⟨I.channelDefinitions,before,[]⟩

end DataStreams
