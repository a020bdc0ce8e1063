import DataStreams.Calculated.Process
import Mathlib.Data.List.ReduceOption

/-! What a channel evaluates to is a function of what was prepared for it: an expression has the
value it has on its own. -/
namespace DataStreams
open List Go SortedMap Nat

lemma get?_insertMany_functions {names : List Text} (hnames : names.Nodup) (env : Environment) (name : Text) :
    (env.insertMany (names.map (fun name => (name,.function name)))).get? name =
      if name ∈ names then some (.function name) else env.get? name := by
  have hkeys : (names.map (fun name => (name,EnvValue.function name))).map Prod.fst = names := by
    rw [map_map]
    exact map_id _
  split_ifs with hmem
  · apply get?_insertMany_of_mem
    · rwa [hkeys]
    · exact mem_map.2 ⟨name,hmem,rfl⟩
  · apply get?_insertMany_of_notMem
    rwa [hkeys]

lemma nodup_defaultEnv : defaultEnv.Nodup := by decide +kernel

lemma nodup_defaultFunctions : defaultFunctions.Nodup := nodup_defaultEnv.filter _

lemma ChannelEnv.release_eq (env : ChannelEnv) : env.release = newDefaultEnvironment := by
  have hnames : env.release.names = newDefaultEnvironment.names := by
    apply SortedMap.ext
    intro name
    change (SortedMap.insertMany _ _).get? name = (SortedMap.insertMany _ _).get? name
    rw [get?_insertMany_functions nodup_defaultFunctions,get?_insertMany_functions nodup_defaultFunctions,
      get?_filter]
    split_ifs with hmem
    · rfl
    · cases env.names.get? name <;> simp [hmem]
  rw [show env.release = ⟨env.release.names,∅⟩ from rfl,hnames]
  rfl

variable {env : ChannelEnv}
lemma Pooled.eq_default (h : Pooled env) : env = newDefaultEnvironment := by
  cases h with
  | new => rfl
  | released env => exact env.release_eq

instance : Subsingleton {env // Pooled env} :=
  ⟨fun a b => Subtype.ext (a.2.eq_default.trans b.2.eq_default.symm)⟩

/-- An environment from the pool is reset to that of a new round. -/
lemma forRound_pooled (h : Pooled env) (ts : ℕ) : env.forRound ts = ⟨newEnv ts,∅⟩ := by
  rw [h.eq_default]
  have htwap : "TWAP".toList ∈ defaultEnv := by decide +kernel
  have hne : "TWAP".toList ≠ observationsTimestampName := by decide +kernel
  have hnames : (newDefaultEnvironment.forRound ts).names = newEnv ts := by
    apply SortedMap.ext
    intro name
    change ((SortedMap.insertMany _ _ |>.insert _ _).insert _ _).get? name = (SortedMap.insertMany _ _ |>.insert _ _).get? name
    rw [get?_insert,get?_insert,get?_insert,
      get?_insertMany_functions nodup_defaultFunctions,get?_insertMany_functions nodup_defaultEnv]
    by_cases htw : name = "TWAP".toList
    · subst htw
      rw [if_pos rfl,if_neg hne,if_pos htwap]
    · rw [if_neg htw]
      by_cases hts : name = observationsTimestampName
      · rw [if_pos hts,if_pos hts]
      · have hmem : name ∈ defaultFunctions ↔ name ∈ defaultEnv := by
          rw [defaultFunctions,mem_filter]
          exact and_iff_left (decide_eq_true hts)
        rw [if_neg hts,if_neg hts]
        simp only [hmem]
  rw [← hnames]
  rfl

lemma evaluateCalculatedStreams_iff {eval : EvalDecimal} {workers : ℕ} {works : List ChannelWork}
    {results : List ChannelResult} :
    EvaluateCalculatedStreams eval workers works results ↔ results = works.map (evalChannel eval) := by
  unfold EvaluateCalculatedStreams
  split_ifs with hone
  · rfl
  · have hpos : 0 < workers := by omega
    constructor
    · rintro ⟨s,hs,hfinished,rfl⟩
      exact Workers.slots_of_finished hpos hs hfinished
    · rintro rfl
      obtain ⟨s,hs,hfinished⟩ := Workers.exists_finished (evalChannel eval) works workers ⟨[],none⟩
      exact ⟨s,hs,hfinished,(Workers.slots_of_finished hpos hs hfinished).symm⟩

structure LiveExpressions (I : CalculatedInput) (cid : ChannelID) (cd : ChannelDefinition)
    (abi : List CalculatedStreamABI) : Prop where
  defined : I.channelDefinitions.get? cid = some cd
  live : cd.tombstone = false
  format : cd.reportFormat = .evmABIEncodeUnpackedExpr
  declares : decodeCalculatedStreamOpts I.libs.json I.optsCache cd cid = .ok abi

structure Inputs (I : CalculatedInput) (before : Aggregates) (cd : ChannelDefinition)
    (aggByStream : List (StreamID × Aggregator)) (names : Environment) : Prop where
  aggregators : aggregatorByStream cd.streams = .ok aggByStream
  names : bindStreams before.values cd.streams (newEnv I.observationTimestampNanoseconds) = .ok names

structure PreparedFrom (I : CalculatedInput) (before : Aggregates) (work : ChannelWork)
    (aggByStream : List (StreamID × Aggregator)) (names : Environment) : Prop where
  channel : LiveExpressions I work.cid work.cd work.abi
  inputs : Inputs I before work.cd aggByStream names
  env : work.env = ⟨names,∅⟩
  windows : bindChannelHistory I.libs I.exprs work.cid I.history aggByStream work.abi = .ok (work.windows,work.err)

variable {history : HistoryReader} {aggByStream : List (StreamID × Aggregator)} {m : String}
lemma resolveRef_not_panic {ref : HistoryRef} : resolveRef history aggByStream ref ≠ .error (.panic m) := by
  unfold resolveRef
  intro h
  split at h
  · cases h
  · split at h
    · cases h
    · split_ifs at h
      cases h

lemma mapM_resolveRef_not_panic {refs : List HistoryRef} : refs.mapM (resolveRef history aggByStream) ≠ .error (.panic m) := by
  induction refs with
  | nil =>
    intro h
    cases h
  | cons ref refs ih =>
    intro h
    rw [mapM_cons] at h
    cases href : resolveRef history aggByStream ref with
    | error fault =>
      rw [href] at h
      cases h
      exact resolveRef_not_panic href
    | ok bound =>
      rw [href,ok_bind] at h
      cases hrest : refs.mapM (resolveRef history aggByStream) with
      | error fault =>
        rw [hrest] at h
        cases h
        exact ih hrest
      | ok rest =>
        rw [hrest] at h
        cases h

lemma resolveHistory_not_panic {L : Libs} {E : ExprLib} {expression : Text} {history : Option HistoryReader} :
    resolveHistory L E expression history aggByStream ≠ .error (.panic m) := by
  intro h
  obtain ⟨entry,hentry⟩ := analyzeHistoryExpression_returns L E expression
  rw [resolveHistory,hentry,ok_bind] at h
  split at h
  · cases h
  · split_ifs at h
    split at h
    · cases h
    · exact mapM_resolveRef_not_panic h

lemma bindChannelHistory_returns (L : Libs) (E : ExprLib) (cid : ChannelID) (history : Option HistoryReader)
    (aggByStream : List (StreamID × Aggregator)) (abi : List CalculatedStreamABI) :
    ∃ r, bindChannelHistory L E cid history aggByStream abi = .ok r := by
  induction abi with
  | nil => exact ⟨_,rfl⟩
  | cons a rest ih =>
    rw [bindChannelHistory]
    split_ifs
    · exact ⟨_,rfl⟩
    · exact ⟨_,rfl⟩
    split
    · next hpanic => exact absurd hpanic resolveHistory_not_panic
    · exact ⟨_,rfl⟩
    · obtain ⟨r,hr⟩ := ih
      rw [hr]
      exact ⟨_,rfl⟩

/-- Preparation never fails, and takes every live channel whose inputs are there. -/
lemma prepareChannel_spec (I : CalculatedInput) (pool : ChannelID → {env // Pooled env}) (before : Aggregates)
    (e : DefinitionEntry) (hdefined : I.channelDefinitions.get? e.1 = some e.2) :
    ∃ r, prepareChannel I pool before e = .ok r ∧
      (∀ work, r = some work → work.cid = e.1 ∧ work.cd = e.2 ∧ ∃ aggByStream names, PreparedFrom I before work aggByStream names) ∧
      (∀ abi aggByStream names, LiveExpressions I e.1 e.2 abi → Inputs I before e.2 aggByStream names →
        e.2.streams ≠ [] → ∃ work, r = some work) := by
  have hround := forRound_pooled (pool e.1).2 I.observationTimestampNanoseconds
  have hnone : ∀ work : ChannelWork, none = some work → work.cid = e.1 ∧ work.cd = e.2 ∧
      ∃ aggByStream names, PreparedFrom I before work aggByStream names := by
    intro work h
    cases h
  unfold prepareChannel
  by_cases hskip : e.2.tombstone ∨ e.2.reportFormat ≠ .evmABIEncodeUnpackedExpr
  · rw [if_pos hskip]
    refine ⟨none,rfl,hnone,?_⟩
    intro abi aggByStream names hlive
    rcases hskip with h | h
    · exact absurd (hlive.live.symm.trans h) (by decide)
    · exact absurd hlive.format h
  rw [if_neg hskip]
  rw [not_or,Bool.not_eq_true,not_not] at hskip
  split
  · next haggregators =>
    refine ⟨none,rfl,hnone,?_⟩
    intro abi aggByStream names _ hinputs
    cases haggregators.symm.trans hinputs.aggregators
  next aggByStream haggregators =>
  dsimp only
  rw [hround]
  split
  · next hnames =>
    refine ⟨none,rfl,hnone,?_⟩
    intro abi aggByStream names _ hinputs
    cases hnames.symm.trans hinputs.names
  next names hnames =>
  split
  · next habi =>
    refine ⟨none,rfl,hnone,?_⟩
    intro abi aggByStream names hlive
    cases habi.symm.trans hlive.declares
  next abi habi =>
  split_ifs with hstreams
  · exact ⟨none,rfl,hnone,fun _ _ _ _ _ h => absurd hstreams h⟩
  split
  · next fault hfault =>
    obtain ⟨r,hr⟩ := bindChannelHistory_returns I.libs I.exprs e.1 I.history aggByStream abi
    cases hfault.symm.trans hr
  · next r hr =>
    refine ⟨_,rfl,?_,fun _ _ _ _ _ _ => ⟨_,rfl⟩⟩
    rintro work hwork
    cases hwork
    exact ⟨rfl,rfl,aggByStream,names,⟨hdefined,hskip.1,hskip.2,habi⟩,⟨haggregators,hnames⟩,rfl,hr⟩

lemma reduceOption_pairwise {α γ K : Type} [LinearOrder K] {f : α → Go (Option γ)} (source : α → K) {key : γ → K}
    {l : List α} {r : List (Option γ)} (hkey : ∀ a ∈ l, ∀ c, f a = .ok (some c) → key c = source a)
    (hl : l.Pairwise (fun a b => source a < source b)) (h : l.mapM f = .ok r) :
    r.reduceOption.Pairwise (fun a b => key a < key b) := by
  induction l generalizing r with
  | nil =>
    cases h
    exact .nil
  | cons a l ih =>
    obtain ⟨ha,hl⟩ := pairwise_cons.1 hl
    rw [mapM_cons] at h
    obtain ⟨c,hc,h⟩ := bind_ok_iff.1 h
    obtain ⟨cs,hcs,h⟩ := bind_ok_iff.1 h
    cases h
    have hrest := ih (fun b hb => hkey b (mem_cons_of_mem _ hb)) hl hcs
    cases c with
    | none => exact hrest
    | some c =>
      refine pairwise_cons.2 ⟨?_,hrest⟩
      intro d hd
      obtain ⟨b,hb,hbd⟩ := (mapM_ok hcs).2 _ (reduceOption_mem_iff.1 hd)
      rw [hkey a mem_cons_self c hc,hkey b (mem_cons_of_mem _ hb) d hbd]
      exact ha b hb

/-- The prepared channels are in the order of their IDs. -/
lemma prepareCalculatedStreams_spec (I : CalculatedInput) (pool : ChannelID → {env // Pooled env}) (before : Aggregates) :
    ∃ works, prepareCalculatedStreams I pool before = .ok works ∧
      works.Pairwise (fun w w' => w.cid < w'.cid) ∧
      (∀ work ∈ works, ∃ aggByStream names, PreparedFrom I before work aggByStream names) ∧
      (∀ cid cd abi aggByStream names, LiveExpressions I cid cd abi → Inputs I before cd aggByStream names →
        cd.streams ≠ [] → ∃ work ∈ works, work.cid = cid) := by
  have hspec : ∀ e ∈ I.channelDefinitions.entries, _ := fun e he =>
    prepareChannel_spec I pool before e (get?_eq_some_iff.2 he)
  obtain ⟨rs,hrs⟩ := mapM_returns fun e he => (hspec e he).imp fun r hr => hr.1
  have hwork : ∀ work ∈ rs.reduceOption, ∃ aggByStream names, PreparedFrom I before work aggByStream names := by
    intro work hmem
    obtain ⟨e,he,hr⟩ := (mapM_ok hrs).2 _ (reduceOption_mem_iff.1 hmem)
    obtain ⟨r,hr',hprepared,-⟩ := hspec e he
    exact (hprepared work (Except.ok.inj (hr'.symm.trans hr))).2.2
  refine ⟨rs.reduceOption,?_,?_,hwork,?_⟩
  · rw [prepareCalculatedStreams,hrs]
    rfl
  · refine reduceOption_pairwise Prod.fst ?_ I.channelDefinitions.sorted hrs
    intro e he work hr
    obtain ⟨r,hr',hprepared,-⟩ := hspec e he
    exact (hprepared work (Except.ok.inj (hr'.symm.trans hr))).1
  · intro cid cd abi aggByStream names hlive hinputs hstreams
    have he : (cid,cd) ∈ I.channelDefinitions.entries := get?_eq_some_iff.1 hlive.defined
    obtain ⟨r,hr,hprepared,hexists⟩ := hspec (cid,cd) he
    obtain ⟨work,rfl⟩ := hexists abi aggByStream names hlive hinputs hstreams
    obtain ⟨r',hmem,hr'⟩ := (mapM_ok hrs).1 _ he
    cases hr.symm.trans hr'
    exact ⟨work,reduceOption_mem_iff.2 hmem,(hprepared work rfl).1⟩

variable {L : Libs} {E : ExprLib} {cid : ChannelID} {history : Option HistoryReader}
  {aggByStream : List (StreamID × Aggregator)}

def CoversRefs (L : Libs) (E : ExprLib) (expression : Text) (window : List BoundSeries) : Prop :=
  ∃ entry, analyzeHistoryExpression L E expression = .ok entry ∧
    ∀ ref ∈ entry.refs, ref.envName ∈ window.map Prod.fst

lemma resolveRef_name {history : HistoryReader} {ref : HistoryRef} {bound : BoundSeries}
    (h : resolveRef history aggByStream ref = .ok bound) : bound.1 = ref.envName := by
  unfold resolveRef at h
  split at h
  · exact absurd h (err_ne_ok _ _)
  · split at h
    · exact absurd h (err_ne_ok _ _)
    · split_ifs at h
      · exact absurd h (err_ne_ok _ _)
      · cases h
        rfl

variable {window : List BoundSeries}
lemma resolveHistory_covers {expression : Text}
    (h : resolveHistory L E expression history aggByStream = .ok window) : CoversRefs L E expression window := by
  obtain ⟨entry,hentry,h⟩ := bind_ok_iff.1 h
  refine ⟨entry,hentry,?_⟩
  intro ref href
  split at h
  · exact absurd h (err_ne_ok _ _)
  · split_ifs at h with hnil
    · rw [hnil] at href
      exact absurd href not_mem_nil
    split at h
    · exact absurd h (err_ne_ok _ _)
    · obtain ⟨bound,hbound,hresolve⟩ := (mapM_ok h).1 ref href
      exact mem_map.2 ⟨bound,hbound,resolveRef_name hresolve⟩

/-- An expression that is evaluated once its windows are there. -/
structure Evaluable (a : CalculatedStreamABI) : Prop where
  stream : a.expressionStreamID ≠ 0
  expression : a.expression ≠ []

variable {abi : List CalculatedStreamABI} {r : List (List BoundSeries) × Option String} {j : ℕ} {a : CalculatedStreamABI}
lemma bindChannelHistory_get (h : bindChannelHistory L E cid history aggByStream abi = .ok r)
    (ha : abi[j]? = some a) (hwindow : r.1[j]? = some window) :
    resolveHistory L E a.expression history aggByStream = .ok window := by
  induction abi generalizing r j with
  | nil => cases ha
  | cons b rest ih =>
    rcases bindChannelHistory_cons h with ⟨hnil,_⟩ | ⟨window',r',hresolve,hrest,hr⟩
    · rw [hnil] at hwindow
      cases hwindow
    · rw [hr] at hwindow
      cases j with
      | zero =>
        cases ha
        cases hwindow
        exact hresolve
      | succ j => exact ih hrest ha hwindow

/-- The windows end only at an expression that cannot be evaluated. -/
lemma bindChannelHistory_next (h : bindChannelHistory L E cid history aggByStream abi = .ok r)
    (ha : abi[j]? = some a) (hj : j ≤ r.1.length) (heval : Evaluable a)
    (hresolve : resolveHistory L E a.expression history aggByStream = .ok window) : r.1[j]? = some window := by
  induction abi generalizing r j with
  | nil => cases ha
  | cons b rest ih =>
    rcases bindChannelHistory_cons h with ⟨hnil,hfails⟩ | ⟨window',r',hresolve',hrest,hr⟩
    · rw [hnil] at hj
      cases le_zero.1 hj
      cases ha
      exact absurd hresolve (hfails heval.stream heval.expression window)
    · rw [hr] at hj ⊢
      cases j with
      | zero =>
        cases ha
        cases hresolve'.symm.trans hresolve
        rfl
      | succ j => exact ih hrest ha (le_of_succ_le_succ hj)

/-- Evaluation is a function of the expression, the names and the windows it declares. -/
def ReadsDeclared (L : Libs) (E : ExprLib) (eval : EvalDecimal) : Prop :=
  ∀ expression entry names windows windows', analyzeHistoryExpression L E expression = .ok entry →
    (∀ ref ∈ entry.refs, SortedMap.get? windows ref.envName = SortedMap.get? windows' ref.envName) →
    eval expression ⟨names,windows⟩ = eval expression ⟨names,windows'⟩

section Evaluation
variable {eval : EvalDecimal} {names : Environment}
  {pairs : List (List BoundSeries × CalculatedStreamABI)} {windows : SortedMap Text Series} {d : Decimal}

lemma get?_insertMany_congr {K V : Type} [LinearOrder K] (m n : SortedMap K V) {l : List (K × V)} {a : K}
    (h : a ∈ l.map Prod.fst) : (m.insertMany l).get? a = (n.insertMany l).get? a := by
  induction l generalizing m n with
  | nil => exact absurd h not_mem_nil
  | cons e l ih =>
    change ((m.insert e.1 e.2).insertMany l).get? a = ((n.insert e.1 e.2).insertMany l).get? a
    by_cases hl : a ∈ l.map Prod.fst
    · exact ih _ _ hl
    · have hae : a = e.1 := (mem_cons.1 h).resolve_right hl
      rw [get?_insertMany_of_notMem _ hl,get?_insertMany_of_notMem _ hl,hae,get?_insert_self,get?_insert_self]

lemma ReadsDeclared.eval_alone (hreads : ReadsDeclared L E eval) {expression : Text} {window : List BoundSeries}
    (hcovers : CoversRefs L E expression window) (names : Environment) (windows : SortedMap Text Series) :
    eval expression ⟨names,windows.insertMany window⟩ = eval expression ⟨names,SortedMap.ofList window⟩ := by
  obtain ⟨entry,hentry,hrefs⟩ := hcovers
  apply hreads expression entry names _ _ hentry
  intro ref href
  exact get?_insertMany_congr _ _ (hrefs ref href)

section
variable (hreads : ReadsDeclared L E eval) (hcovers : ∀ p ∈ pairs, CoversRefs L E p.2.expression p.1)
include hreads hcovers

lemma evalExpressions_get (h : (evalExpressions eval cid ⟨names,windows⟩ pairs).values[j]? = some d) :
    ∃ p, pairs[j]? = some p ∧ eval p.2.expression ⟨names,SortedMap.ofList p.1⟩ = .ok d := by
  induction pairs generalizing windows j with
  | nil => cases h
  | cons p rest ih =>
    rw [evalExpressions] at h
    dsimp only at h
    split at h
    · cases h
    · next value hvalue =>
      cases j with
      | zero =>
        cases h
        rw [hreads.eval_alone (hcovers p mem_cons_self)] at hvalue
        exact ⟨p,rfl,hvalue⟩
      | succ j => exact ih (fun q hq => hcovers q (mem_cons_of_mem _ hq)) h

lemma evalExpressions_next (hj : j ≤ (evalExpressions eval cid ⟨names,windows⟩ pairs).values.length)
    {p : List BoundSeries × CalculatedStreamABI} (hp : pairs[j]? = some p)
    (heval : eval p.2.expression ⟨names,SortedMap.ofList p.1⟩ = .ok d) :
    (evalExpressions eval cid ⟨names,windows⟩ pairs).values[j]? = some d := by
  induction pairs generalizing windows j with
  | nil => cases hp
  | cons q rest ih =>
    rw [evalExpressions] at hj ⊢
    dsimp only at hj ⊢
    have hq := hreads.eval_alone (hcovers q mem_cons_self) names windows
    cases j with
    | zero =>
      cases hp
      rw [hq,heval]
      rfl
    | succ j =>
      split at hj
      · exact absurd hj (not_succ_le_zero j)
      · exact ih (fun q hq => hcovers q (mem_cons_of_mem _ hq)) (le_of_succ_le_succ hj) hp

end

lemma evalExpressions_length_le (eval : EvalDecimal) (cid : ChannelID) (env : ChannelEnv) (pairs : List (List BoundSeries × CalculatedStreamABI)) :
    (evalExpressions eval cid env pairs).values.length ≤ pairs.length := by
  induction pairs generalizing env with
  | nil => exact le_rfl
  | cons p rest ih =>
    rw [evalExpressions]
    dsimp only
    split
    · exact Nat.zero_le _
    · exact succ_le_succ (ih _)

end Evaluation

def EvaluatesAlone (I : CalculatedInput) (eval : EvalDecimal) (before : Aggregates) (cd : ChannelDefinition)
    (a : CalculatedStreamABI) (d : Decimal) : Prop :=
  ∃ aggByStream names window, Inputs I before cd aggByStream names ∧
    resolveHistory I.libs I.exprs a.expression I.history aggByStream = .ok window ∧
    eval a.expression ⟨names,SortedMap.ofList window⟩ = .ok d

variable {I : CalculatedInput} {eval : EvalDecimal} {before : Aggregates} {work : ChannelWork}
  {aggByStream : List (StreamID × Aggregator)} {names : Environment} {d : Decimal}

lemma PreparedFrom.covers (h : PreparedFrom I before work aggByStream names) :
    ∀ p ∈ work.windows.zip work.abi, CoversRefs I.libs I.exprs p.2.expression p.1 := by
  intro p hp
  obtain ⟨i,hi⟩ := mem_iff_getElem?.1 hp
  obtain ⟨hwindow,habi⟩ := getElem?_zip_eq_some.1 hi
  exact resolveHistory_covers (bindChannelHistory_get h.windows habi hwindow)

variable (hreads : ReadsDeclared I.libs I.exprs eval) (h : PreparedFrom I before work aggByStream names)
include hreads h

lemma PreparedFrom.alone_of_value (hd : (evalChannel eval work).values[j]? = some d)
    (ha : work.abi[j]? = some a) : EvaluatesAlone I eval before work.cd a d := by
  rw [evalChannel,h.env] at hd
  obtain ⟨⟨window,a'⟩,hp,heval⟩ := evalExpressions_get hreads h.covers hd
  obtain ⟨hwindow,ha'⟩ := getElem?_zip_eq_some.1 hp
  cases ha.symm.trans ha'
  exact ⟨aggByStream,names,window,h.inputs,bindChannelHistory_get h.windows ha hwindow,heval⟩

lemma PreparedFrom.value_of_alone (hj : j ≤ (evalChannel eval work).values.length)
    (ha : work.abi[j]? = some a) (heval : Evaluable a) (halone : EvaluatesAlone I eval before work.cd a d) :
    (evalChannel eval work).values[j]? = some d := by
  obtain ⟨aggByStream',names',window,hinputs,hresolve,hd⟩ := halone
  cases h.inputs.aggregators.symm.trans hinputs.aggregators
  cases h.inputs.names.symm.trans hinputs.names
  rw [evalChannel,h.env] at hj ⊢
  have hle := evalExpressions_length_le eval work.cid ⟨names,∅⟩ (work.windows.zip work.abi)
  rw [length_zip] at hle
  have hwindow := bindChannelHistory_next h.windows ha (hj.trans (hle.trans (min_le_left _ _))) heval hresolve
  have hp : (work.windows.zip work.abi)[j]? = some (window,a) := getElem?_zip_eq_some.2 ⟨hwindow,ha⟩
  exact evalExpressions_next hreads h.covers hj hp hd

end DataStreams
