import DataStreams.Calculated.HistoryAst

/-! Compiled expressions are cached by their text and run in other environments than the one
they were compiled in. -/
namespace DataStreams
open List SortedMap

inductive EnvValue
  | decimal (d : Decimal)
  | timestamp (ns : ℕ)
  | function (name : Text)
  deriving DecidableEq

abbrev Environment := SortedMap Text EnvValue

def streamName (id : StreamID) (suffix : String) : Text := s!"s{id}{suffix}".toList

def observationsTimestampName : Text := "observations_timestamp".toList

def newEnv (observationTimestampNanoseconds : ℕ) : Environment :=
  (SortedMap.ofList (defaultEnv.map (fun name => (name,.function name)))).insert observationsTimestampName
    (.timestamp observationTimestampNanoseconds)

def Environment.setStreamValue (env : Environment) (id : StreamID) : StreamValue → Environment
  | .decimal d => env.insert (streamName id "") (.decimal d)
  | .quote q =>
    ((env.insert (streamName id "_bid") (.decimal q.bid)).insert (streamName id "_benchmark") (.decimal q.benchmark)).insert
      (streamName id "_ask") (.decimal q.ask)
  | .timestamped ts value =>
    Environment.setStreamValue (env.insert (streamName id "_timestamp") (.timestamp ts)) id value

/-- Compilation and execution of expressions. -/
structure ExprRuntime where
  Program : Type
  Result : Type
  compile : Text → Environment → Except String Program
  run : Program → Environment → Except String Result
  asDecimal : Result → Option Decimal

namespace ExprRuntime
/-- Programs read names from the environment they run in: the text of an expression says
what its programs compute. -/
def RunsByText (X : ExprRuntime) (meaning : Text → Environment → Except String X.Result) : Prop :=
  ∀ stmt env p, X.compile stmt env = .ok p → ∀ env', X.run p env' = meaning stmt env'

def runDecimal (X : ExprRuntime) (p : X.Program) (env : Environment) : Except String Decimal :=
  match X.run p env with
  | .error e => .error s!"failed to evaluate expression: {e}"
  | .ok r =>
    match X.asDecimal r with
    | some d => .ok d
    | none => .error "expected decimal.Decimal"

end ExprRuntime

/-- What is kept for an expression. Its analysis is a function of the text. -/
structure CacheEntry (P : Type) where
  expression : Text
  program : Option P

structure PinnedEntry (P : Type) where
  entry : CacheEntry P
  holders : ℕ

/-- Unpinned entries are in the order of their last use, the most recent one first. -/
structure AnalysisCache (P : Type) where
  order : List (CacheEntry P)
  max : ℕ
  pinned : SortedMap Text (PinnedEntry P)

namespace AnalysisCache
variable {P : Type}
def new (max : ℕ) : AnalysisCache P := ⟨[],max,∅⟩

def unpinned (c : AnalysisCache P) (expression : Text) : Option (CacheEntry P) :=
  c.order.find? (fun e => e.expression = expression)

def lookup (c : AnalysisCache P) (expression : Text) : Option (CacheEntry P) :=
  match c.pinned.get? expression with
  | some pinned => some pinned.entry
  | none => c.unpinned expression

/-- A lookup marks an unpinned entry as the most recently used one. -/
def touch (c : AnalysisCache P) (expression : Text) : AnalysisCache P :=
  match c.pinned.get? expression,c.unpinned expression with
  | none,some e => { c with order := e :: c.order.filter (fun e => e.expression ≠ expression) }
  | _,_ => c

/-- Adds an entry and drops the least recently used ones past the bound. -/
def insertLocked (c : AnalysisCache P) (e : CacheEntry P) : AnalysisCache P :=
  { c with order := (e :: c.order).take c.max }

def analyze (c : AnalysisCache P) (expression : Text) : AnalysisCache P :=
  match c.lookup expression with
  | some _ => c.touch expression
  | none => c.insertLocked ⟨expression,none⟩

def program (c : AnalysisCache P) (expression : Text) : Option P :=
  (c.lookup expression).bind CacheEntry.program

/-- Attaches a program to an entry, if it is still there. -/
def storeProgram (c : AnalysisCache P) (expression : Text) (p : P) : AnalysisCache P :=
  match c.pinned.get? expression with
  | some pinned =>
    { c with pinned := c.pinned.insert expression { pinned with entry := { pinned.entry with program := some p } } }
  | none =>
    let c := c.touch expression
    { c with order := c.order.map (fun e => if e.expression = expression then { e with program := some p } else e) }

/-- Holds an expression out of eviction. An entry that is cached is kept with its program. -/
def pinOne (c : AnalysisCache P) (expression : Text) : AnalysisCache P :=
  match c.pinned.get? expression with
  | some pinned => { c with pinned := c.pinned.insert expression { pinned with holders := pinned.holders + 1 } }
  | none =>
    { c with
      order := c.order.filter (fun e => e.expression ≠ expression)
      pinned := c.pinned.insert expression ⟨(c.unpinned expression).getD ⟨expression,none⟩,1⟩ }

/-- Looks all expressions up and then holds them. -/
def pin (c : AnalysisCache P) (expressions : List Text) : AnalysisCache P :=
  expressions.foldl pinOne (expressions.foldl touch c)

/-- Releases one hold; the last one returns the entry to the unpinned part. -/
def unpinOne (c : AnalysisCache P) (expression : Text) : AnalysisCache P :=
  match c.pinned.get? expression with
  | none => c
  | some pinned =>
    if pinned.holders - 1 > 0 then
      { c with pinned := c.pinned.insert expression { pinned with holders := pinned.holders - 1 } }
    else insertLocked { c with pinned := c.pinned.erase expression } pinned.entry

def unpin (c : AnalysisCache P) (expressions : List Text) : AnalysisCache P := expressions.foldl unpinOne c

def evalDecimal (X : ExprRuntime) (c : AnalysisCache X.Program) (stmt : Text) (env : Environment) :
    Except String Decimal × AnalysisCache X.Program :=
  match c.program stmt with
  | some p => (X.runDecimal p env,c.touch stmt)
  | none =>
    match X.compile stmt env with
    | .error e => (.error s!"failed to compile expression: {e}",c.touch stmt)
    | .ok p => (X.runDecimal p env,(c.touch stmt).storeProgram stmt p)

/-- The caches of a process. Lookups and stores of concurrent evaluations may interleave;
a program is stored only under the text it was compiled from. -/
inductive Reachable (X : ExprRuntime) : AnalysisCache X.Program → Prop
  | new (max : ℕ) : Reachable X (.new max)
  | touch {c} (expression : Text) (h : Reachable X c) : Reachable X (c.touch expression)
  | analyze {c} (expression : Text) (h : Reachable X c) : Reachable X (c.analyze expression)
  | store {c stmt env p} (h : Reachable X c)
      (hp : X.compile stmt env = .ok p) : Reachable X (c.storeProgram stmt p)
  | pin {c} (expressions : List Text) (h : Reachable X c) : Reachable X (c.pin expressions)
  | unpin {c} (expressions : List Text) (h : Reachable X c) :
      Reachable X (c.unpin expressions)

def CompiledFromText (X : ExprRuntime) (e : CacheEntry X.Program) : Prop :=
  ∀ p, e.program = some p → ∃ env, X.compile e.expression env = .ok p

/-- Every entry is stored under its own text and holds a program of that text only. -/
structure Coherent (X : ExprRuntime) (c : AnalysisCache X.Program) : Prop where
  order : ∀ e ∈ c.order, CompiledFromText X e
  pinned : ∀ expression p, c.pinned.get? expression = some p →
    p.entry.expression = expression ∧ CompiledFromText X p.entry

variable {X : ExprRuntime} {c : AnalysisCache X.Program}
variable {expression : Text} {e : CacheEntry X.Program}
lemma unpinned_eq_some (h : c.unpinned expression = some e) :
    e ∈ c.order ∧ e.expression = expression :=
  ⟨mem_of_find?_eq_some h,by simpa using find?_some h⟩

lemma Coherent.lookup (h : Coherent X c)
    (he : c.lookup expression = some e) : e.expression = expression ∧ CompiledFromText X e := by
  unfold AnalysisCache.lookup at he
  split at he
  · next p hp =>
    cases he
    exact h.pinned expression p hp
  · obtain ⟨hmem,hexpr⟩ := unpinned_eq_some he
    exact ⟨hexpr,h.order e hmem⟩

lemma compiledFromText_none (expression : Text) : CompiledFromText X ⟨expression,none⟩ := nofun

lemma Coherent.insertPinned (h : Coherent X c) {order : List (CacheEntry X.Program)}
    {p : PinnedEntry X.Program} (horder : ∀ e ∈ order, CompiledFromText X e)
    (hexpr : p.entry.expression = expression) (hp : CompiledFromText X p.entry) :
    Coherent X { c with order := order, pinned := c.pinned.insert expression p } where
  order := horder
  pinned expression' p' hget := by
    simp only [get?_insert] at hget
    split_ifs at hget with heq
    · cases hget
      exact ⟨hexpr.trans heq.symm,hp⟩
    · exact h.pinned expression' p' hget

lemma Coherent.touch (h : Coherent X c) (expression : Text) : Coherent X (c.touch expression) := by
  unfold AnalysisCache.touch
  split
  · next e _ he =>
    refine ⟨?_,h.pinned⟩
    intro e' he'
    rcases mem_cons.1 he' with rfl | he'
    · exact h.order _ (unpinned_eq_some he).1
    · exact h.order _ (mem_of_mem_filter he')
  · exact h

lemma Coherent.insertLocked (h : Coherent X c) (he : CompiledFromText X e) : Coherent X (c.insertLocked e) where
  order e' he' := by
    rcases mem_cons.1 (mem_of_mem_take he') with rfl | he'
    · exact he
    · exact h.order e' he'
  pinned := h.pinned

variable {stmt : Text} {p : X.Program}
lemma Coherent.storeProgram (h : Coherent X c) {env : Environment}
    (hp : X.compile stmt env = .ok p) : Coherent X (c.storeProgram stmt p) := by
  unfold AnalysisCache.storeProgram
  split
  · next pinned hpinned =>
    have hexpr := (h.pinned stmt pinned hpinned).1
    refine h.insertPinned h.order hexpr fun q hq => ?_
    cases hq
    exact ⟨env,hexpr ▸ hp⟩
  · refine ⟨?_,(h.touch stmt).pinned⟩
    intro e he
    obtain ⟨e',he',rfl⟩ := mem_map.1 he
    split_ifs with hexpr
    · intro q hq
      cases hq
      exact ⟨env,hexpr ▸ hp⟩
    · exact (h.touch stmt).order e' he'

lemma Coherent.pinOne (h : Coherent X c) (expression : Text) : Coherent X (c.pinOne expression) := by
  unfold AnalysisCache.pinOne
  split
  · next pinned hpinned =>
    obtain ⟨hexpr,hentry⟩ := h.pinned expression pinned hpinned
    exact h.insertPinned h.order hexpr hentry
  · refine h.insertPinned (fun e he => h.order e (mem_of_mem_filter he)) ?_ ?_
    all_goals
      dsimp only
      cases he : c.unpinned expression with
      | none => first | rfl | exact compiledFromText_none expression
      | some e => first | exact (unpinned_eq_some he).2 | exact h.order e (unpinned_eq_some he).1

lemma Coherent.unpinOne (h : Coherent X c) (expression : Text) : Coherent X (c.unpinOne expression) := by
  unfold AnalysisCache.unpinOne
  split
  · exact h
  · next pinned hpinned =>
    obtain ⟨hexpr,hentry⟩ := h.pinned expression pinned hpinned
    split_ifs
    · exact h.insertPinned h.order hexpr hentry
    · refine Coherent.insertLocked (c := { c with pinned := c.pinned.erase expression })
        ⟨h.order,fun expression' p hget => h.pinned expression' p ?_⟩ hentry
      simp only [get?_erase] at hget
      split_ifs at hget
      exact hget

lemma Coherent.foldl (h : Coherent X c) {op : AnalysisCache X.Program → Text → AnalysisCache X.Program}
    (hop : ∀ {c}, Coherent X c → ∀ expression, Coherent X (op c expression)) (expressions : List Text) :
    Coherent X (expressions.foldl op c) := by
  induction expressions generalizing c with
  | nil => exact h
  | cons expression expressions ih => exact ih (hop h expression)

lemma Reachable.coherent (h : Reachable X c) : Coherent X c := by
  induction h with
  | new max => exact ⟨nofun,nofun⟩
  | touch expression _ ih => exact ih.touch expression
  | analyze expression _ ih =>
    unfold AnalysisCache.analyze
    split
    · exact ih.touch expression
    · exact ih.insertLocked (compiledFromText_none expression)
  | store _ hp ih => exact ih.storeProgram hp
  | pin expressions _ ih => exact (ih.foldl Coherent.touch expressions).foldl Coherent.pinOne expressions
  | unpin expressions _ ih => exact ih.foldl Coherent.unpinOne expressions

lemma Reachable.compile_of_program (h : Reachable X c) (hp : c.program stmt = some p) :
    ∃ env, X.compile stmt env = .ok p := by
  obtain ⟨e,he,hprogram⟩ := Option.bind_eq_some_iff.1 hp
  obtain ⟨hexpr,hcompiled⟩ := h.coherent.lookup he
  exact hexpr ▸ hcompiled p hprogram

end AnalysisCache

/-- The same decimal, or a failure in both cases. -/
def SameDecimal (a b : Except String Decimal) : Prop := a.toOption = b.toOption

/-- What an expression evaluates to by its text. -/
def ExprRuntime.decimalOf (X : ExprRuntime) (meaning : Text → Environment → Except String X.Result) (stmt : Text)
    (env : Environment) : Option Decimal :=
  (meaning stmt env).toOption.bind X.asDecimal

variable {X : ExprRuntime} {stmt : Text} {env : Environment} {p : X.Program}
lemma ExprRuntime.RunsByText.runDecimal {meaning : Text → Environment → Except String X.Result}
    (hX : X.RunsByText meaning) (hp : X.compile stmt env = .ok p)
    (env' : Environment) : (X.runDecimal p env').toOption = X.decimalOf meaning stmt env' := by
  rw [ExprRuntime.runDecimal,hX stmt env p hp env',ExprRuntime.decimalOf]
  cases meaning stmt env' with
  | error e => rfl
  | ok r =>
    cases hr : X.asDecimal r <;> simp [Except.toOption,hr]

/-- A cache makes a difference exactly when it holds a program of an expression that does
not compile in the environment and yet evaluates to a decimal there. -/
theorem sameDecimal_evalDecimal_iff {X : ExprRuntime} {meaning : Text → Environment → Except String X.Result}
    (hX : X.RunsByText meaning) {c : AnalysisCache X.Program} (hc : AnalysisCache.Reachable X c) (stmt : Text)
    (env : Environment) (max : ℕ) :
    SameDecimal (c.evalDecimal X stmt env).1 ((AnalysisCache.new max).evalDecimal X stmt env).1 ↔
      c.program stmt = none ∨ (∃ p, X.compile stmt env = .ok p) ∨ X.decimalOf meaning stmt env = none := by
  have hempty : (AnalysisCache.new max : AnalysisCache X.Program).program stmt = none := rfl
  unfold SameDecimal AnalysisCache.evalDecimal
  rw [hempty]
  cases hprogram : c.program stmt with
  | none =>
    cases X.compile stmt env <;> exact iff_of_true rfl (.inl rfl)
  | some p =>
    obtain ⟨env',hp⟩ := hc.compile_of_program hprogram
    have hcached := hX.runDecimal hp env
    cases hcompile : X.compile stmt env with
    | ok q =>
      refine iff_of_true ?_ (.inr (.inl ⟨q,rfl⟩))
      rw [hcached,hX.runDecimal hcompile env]
    | error e =>
      rw [hcached]
      simp [Except.toOption]

inductive SignExpr
  | name (n : Text)
  | ifPositive (n : Text) (a b : SignExpr)

namespace SignExpr
def names : SignExpr → List Text
  | .name n => [n]
  | .ifPositive n a b => n :: (a.names ++ b.names)

/-- A name that is not bound reads as nil. Only the branch that is taken is evaluated. -/
def eval (env : Environment) : SignExpr → Except String (Option EnvValue)
  | .name n => .ok (env.get? n)
  | .ifPositive n a b =>
    match env.get? n with
    | some (.decimal d) => if 0 < d.coefficient then a.eval env else b.eval env
    | _ => .error "unsupported type"

end SignExpr

/-- `IsPositive(s1) ? s1 : s2` -/
def guardedExpr : SignExpr :=
  .ifPositive (streamName 1 "") (.name (streamName 1 "")) (.name (streamName 2 ""))

def guardedText : Text := "IsPositive(s1) ? s1 : s2".toList

/-- Compilation refuses names that the environment does not bind. -/
def signRuntime : ExprRuntime where
  Program := SignExpr
  Result := Option EnvValue
  compile stmt env :=
    if stmt ≠ guardedText then .error "malformed input"
    else if guardedExpr.names.all (fun n => (env.get? n).isSome) then .ok guardedExpr
    else .error "unknown name"
  run p env := p.eval env
  asDecimal
    | some (.decimal d) => some d
    | _ => none

lemma signRuntime_runsByText : signRuntime.RunsByText (fun _ env => guardedExpr.eval env) := by
  intro stmt env p hp env'
  simp only [signRuntime] at hp
  split_ifs at hp
  cases hp
  rfl

/-- Stream 1 is a decimal; stream 2 is a decimal or, in a later round, a quote. -/
def guardedEnv (second : StreamValue) : Environment :=
  ((newEnv 10).setStreamValue 1 (.decimal ⟨5,0⟩)).setStreamValue 2 second

lemma get?_newEnv_of_notMem {name : Text} (h : name ∉ defaultEnv) (ts : ℕ) : (newEnv ts).get? name = none := by
  have hts : name ≠ observationsTimestampName := fun heq => h (heq ▸ by decide)
  rw [newEnv,get?_insert_of_ne _ _ hts,SortedMap.ofList,get?_insertMany_of_notMem]
  · rfl
  · simpa using h

lemma compile_guardedText (d : Decimal) : signRuntime.compile guardedText (guardedEnv (.decimal d)) = .ok guardedExpr := by
  have hbound : guardedExpr.names.all (fun n => ((guardedEnv (.decimal d)).get? n).isSome) = true := by
    simp [guardedExpr,SignExpr.names,guardedEnv,Environment.setStreamValue,get?_insert,
      show streamName 1 "" ≠ streamName 2 "" by decide]
  simp only [signRuntime]
  rw [if_neg (not_not.2 rfl),if_pos hbound]

lemma get?_guardedEnv_quote (q : Quote) :
    (guardedEnv (.quote q)).get? (streamName 1 "") = some (.decimal ⟨5,0⟩) ∧
      (guardedEnv (.quote q)).get? (streamName 2 "") = none := by
  have hfields : ∀ n ∈ [streamName 1 "",streamName 2 ""], ∀ suffix ∈ ["_bid","_benchmark","_ask"],
      n ≠ streamName 2 suffix := by decide
  have hnew := @get?_newEnv_of_notMem (streamName 2 "") (by decide) 10
  simp only [guardedEnv,Environment.setStreamValue]
  constructor
  · rw [get?_insert_of_ne _ _ (hfields _ (by simp) _ (by simp)),
      get?_insert_of_ne _ _ (hfields _ (by simp) _ (by simp)),
      get?_insert_of_ne _ _ (hfields _ (by simp) _ (by simp)),get?_insert_self]
  · rw [get?_insert_of_ne _ _ (hfields _ (by simp) _ (by simp)),
      get?_insert_of_ne _ _ (hfields _ (by simp) _ (by simp)),
      get?_insert_of_ne _ _ (hfields _ (by simp) _ (by simp)),get?_insert_of_ne _ _ (by decide),hnew]

lemma compile_guardedText_quote (q : Quote) :
    signRuntime.compile guardedText (guardedEnv (.quote q)) = .error "unknown name" := by
  have hunbound : ¬ guardedExpr.names.all (fun n => ((guardedEnv (.quote q)).get? n).isSome) = true := by
    simp [guardedExpr,SignExpr.names,(get?_guardedEnv_quote q).2]
  simp only [signRuntime]
  rw [if_neg (not_not.2 rfl),if_neg hunbound]

lemma run_signRuntime (p : SignExpr) (env : Environment) : signRuntime.run p env = p.eval env := rfl

lemma runDecimal_guardedExpr_quote (q : Quote) :
    signRuntime.runDecimal guardedExpr (guardedEnv (.quote q)) = .ok ⟨5,0⟩ := by
  have heval : guardedExpr.eval (guardedEnv (.quote q)) = .ok (some (.decimal ⟨5,0⟩)) := by
    simp [guardedExpr,SignExpr.eval,(get?_guardedEnv_quote q).1]
  unfold ExprRuntime.runDecimal
  rw [run_signRuntime,heval]
  rfl

/-- The cache after the expression was analysed and compiled once, with two decimals. -/
def usedCache : AnalysisCache signRuntime.Program :=
  ((AnalysisCache.new 1024).analyze guardedText).storeProgram guardedText guardedExpr

lemma usedCache_reachable : AnalysisCache.Reachable signRuntime usedCache :=
  ((AnalysisCache.Reachable.new 1024).analyze guardedText).store (compile_guardedText ⟨3,0⟩)

lemma usedCache_program : usedCache.program guardedText = some guardedExpr := by
  simp [usedCache,AnalysisCache.analyze,AnalysisCache.insertLocked,AnalysisCache.new,AnalysisCache.program,
    AnalysisCache.lookup,AnalysisCache.unpinned,AnalysisCache.touch,AnalysisCache.storeProgram]
  rfl

theorem sameDecimal_evalDecimal_iff_twoDecimals :
    usedCache.program guardedText = some guardedExpr ∧
      SameDecimal (usedCache.evalDecimal signRuntime guardedText (guardedEnv (.decimal ⟨7,0⟩))).1
        ((AnalysisCache.new 1024).evalDecimal signRuntime guardedText (guardedEnv (.decimal ⟨7,0⟩))).1 :=
  ⟨usedCache_program,(sameDecimal_evalDecimal_iff signRuntime_runsByText usedCache_reachable guardedText _ 1024).2
    (.inr (.inl ⟨guardedExpr,compile_guardedText _⟩))⟩

lemma evalDecimal_of_program {c : AnalysisCache X.Program}
    (h : c.program stmt = some p) (env : Environment) : (c.evalDecimal X stmt env).1 = X.runDecimal p env := by
  rw [AnalysisCache.evalDecimal,h]

lemma evalDecimal_new_of_error {e : String} (h : X.compile stmt env = .error e) (max : ℕ) :
    ((AnalysisCache.new max).evalDecimal X stmt env).1 = .error s!"failed to compile expression: {e}" := by
  have hnone : (AnalysisCache.new max : AnalysisCache X.Program).program stmt = none := rfl
  rw [AnalysisCache.evalDecimal,hnone]
  simp only [h]

/-- Stream 2 became a quote. A process that compiled the expression before evaluates it to
5; one that was restarted cannot compile it. -/
theorem cached_program_evaluates_unbound_name :
    AnalysisCache.Reachable signRuntime usedCache ∧
      (usedCache.evalDecimal signRuntime guardedText (guardedEnv (.quote ⟨⟨1,0⟩,⟨2,0⟩,⟨3,0⟩⟩))).1 = .ok ⟨5,0⟩ ∧
      ((AnalysisCache.new 1024).evalDecimal signRuntime guardedText
        (guardedEnv (.quote ⟨⟨1,0⟩,⟨2,0⟩,⟨3,0⟩⟩))).1 = .error "failed to compile expression: unknown name" :=
  ⟨usedCache_reachable,(evalDecimal_of_program usedCache_program _).trans (runDecimal_guardedExpr_quote _),
    evalDecimal_new_of_error (compile_guardedText_quote _) 1024⟩

end DataStreams
