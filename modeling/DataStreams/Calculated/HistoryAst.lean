import DataStreams.Calculated.Twap

/-! The pass over the syntax tree of an expression. It rewrites `History` calls, counts `TWAP`
calls and collects names. -/
namespace DataStreams
open Go

/-- One `History` call: which stream and field it reads, and how deep. -/
structure HistoryRef where
  streamID : StreamID
  field : Field
  count : ℕ
  deriving DecidableEq, Repr

/-- Syntax trees. `window` is an identifier the pass generated; its number stands for the
identity of the node. Node kinds the pass does not look at are `other`. -/
inductive Node
  | identifier (name : Text)
  | window (node : ℕ) (ref : HistoryRef)
  | integer (value : ℤ)
  | float (value : Option Decimal)
  | string (value : Text)
  | unary (operator : Text) (operand : Node)
  | call (callee : Node) (arguments : List Node)
  | map (pairs : List Node)
  | pair (key value : Node)
  | variableDeclarator (name : Text) (value body : Node)
  | other (children : List Node)

/-- The expression language: its parser under the node limit, and that of durations. -/
structure ExprLib where
  parse : Text → Except String Node
  parseDuration : Text → Except String ℤ

/-- The expression library on expressions it cannot parse. -/
def rejectingExprs : ExprLib := ⟨fun _ => .error "malformed input",fun _ => .error "malformed input"⟩

def maxExpressionBytes : ℕ := 2 * 1024

/-- What one pass accumulates. Windows are numbered in the order they are generated. -/
structure HistoryPatcher where
  refs : List HistoryRef
  errs : List String
  generated : ℕ
  approved : List ℕ
  fanOut : ℕ
  twapCalls : ℕ
  names : List Text
  declared : List Text

namespace HistoryPatcher
def new : HistoryPatcher := ⟨[],[],0,[],0,0,[],[]⟩

def errorf (p : HistoryPatcher) (msg : String) : HistoryPatcher := { p with errs := p.errs ++ [msg] }

end HistoryPatcher

def streamIdentifier (name : Text) : Option (Text × Text) :=
  match name with
  | 's' :: rest =>
    let (digits,suffix) := rest.span Char.isDigit
    if digits = [] then none
    else if suffix = [] then some (digits,[])
    else
      match suffix with
      | '_' :: field =>
        if field ∈ ["bid","ask","benchmark","timestamp"].map String.toList then some (digits,field) else none
      | _ => none
  | _ => none

/-- The names every expression environment binds. -/
def defaultEnv : List Text :=
  ["EQ","Equal","GT","GreaterThan","GTE","GreaterThanOrEqual","LT","LessThan","LTE","LessThanOrEqual",
    "Abs","Mul","Div","Add","Sum","Sub","Pow","Sqrt","Ln","Log","IsZero","IsNegative","IsPositive",
    "Round","Max","Min","Ceil","Floor","Avg","Duration","Count","First","Last","Median","Variance",
    "Stddev","Delta","PctChange","Spread","SMA","WMA","EMA","TWAP","History","observations_timestamp"].map String.toList

/-- The identifier namespace the pass generates: `__h` and digits at the end. -/
def reservedHistoryName (name : Text) : Bool :=
  let (digits,before) := name.reverse.span Char.isDigit
  digits ≠ [] && ['h','_','_'].isPrefixOf before

def fieldFromSuffix (suffix : Text) : Option Field :=
  if suffix = [] then some .value
  else if suffix = "bid".toList then some .bid
  else if suffix = "ask".toList then some .ask
  else if suffix = "benchmark".toList then some .benchmark
  else none

def rangeAcceptingFunctions : List Text :=
  ["Avg","Sum","Min","Max","Count","First","Last","Median","Variance","Stddev","Delta","PctChange",
    "Spread","SMA","WMA","EMA","TWAP"].map String.toList

def minWindowDepth (name : Text) : Option ℕ :=
  if name ∈ ["Variance","Stddev","Delta","PctChange","Spread"].map String.toList then some 2 else none

def integerLiteral : Node → Option ℤ
  | .integer v => some v
  | .unary ['-'] (.integer v) => some (-v)
  | _ => none

/-- The integer under a literal key of a configuration map; the first such key decides. -/
def twapConfigLiteral (key : Text) : List Node → Option ℤ
  | [] => none
  | .pair (.string name) value :: rest =>
    if name = key then
      match value with
      | .integer v => some v
      | _ => none
    else twapConfigLiteral key rest
  | _ :: rest => twapConfigLiteral key rest

variable (p : HistoryPatcher)
/-- Validates one `History` call and replaces it with its window identifier. -/
def rewriteHistory (node : Node) (args : List Node) : Go (Node × HistoryPatcher) :=
  if args.length ≠ 2 then .ok (node,p.errorf "History takes exactly 2 arguments (stream identifier, depth)")
  else do
    let streamArg ← Go.index args 0
    match streamArg with
    | .identifier name =>
      match streamIdentifier name with
      | none => .ok (node,p.errorf "History: first argument is not a stream identifier")
      | some (digits,suffix) =>
        if suffix = "timestamp".toList then
          .ok (node,p.errorf "History: _timestamp is not available as a window; timestamps travel inside the window itself")
        else
          match fieldFromSuffix suffix, parseUint 32 digits with
          | none, _ => .ok (node,p.errorf "History: unsupported stream field")
          | _, none => .ok (node,p.errorf "History: stream ID is out of range")
          | some field, some streamID => do
            let depthArg ← Go.index args 1
            match depthArg with
            | .integer depth =>
              if depth < 1 then .ok (node,p.errorf "History: depth must be at least 1")
              else if depth > maxHistoryRecordsPerPair then
                .ok (node,p.errorf "History: depth exceeds the maximum of 1024")
              else
                let fanOut := p.fanOut + depth.toNat
                if fanOut > maxHistoryRecordsPerExpression then
                  .ok (node,{ p with fanOut := fanOut }.errorf
                    "total history depth across the expression exceeds the maximum of 4096")
                else
                  let ref : HistoryRef := ⟨streamID,field,depth.toNat⟩
                  .ok (.window p.generated ref,
                    { p with fanOut := fanOut, refs := p.refs ++ [ref], generated := p.generated + 1 })
            | _ => .ok (node,p.errorf "History: depth must be an integer literal")
    | _ => .ok (node,p.errorf "History: first argument must be a stream identifier such as s10001")

variable (L : Libs) (E : ExprLib)
/-- A literal as evaluation would see it. -/
def literalArg : Node → Option (Except String Arg)
  | .float value => some (.ok (.float true value))
  | .string value => some (.ok (.string value))
  | .call (.identifier callee) [.string arg] =>
    if callee = "Duration".toList then some ((E.parseDuration arg).map (.integer .duration)) else none
  | node => (integerLiteral node).map fun v => .ok (.integer .int v)

/-- The entries of a configuration of literals after those read already. The last of two
entries with one key counts. -/
def twapLiteralConfig (fields : List (String × Arg)) : List Node → Except String (Option (List (String × Arg)))
  | [] => .ok (some fields)
  | .pair (.string name) value :: rest =>
    match literalArg E value with
    | none => .ok none
    | some (.error e) => .error s!"{errTwapConfig}: {String.ofList name}: {e}"
    | some (.ok x) =>
      twapLiteralConfig ((String.ofList name,x) :: fields.filter (fun e => e.1 ≠ String.ofList name)) rest
  | _ => .ok none

/-- A configuration of literals is checked as evaluation would check it. -/
def checkLiteralConfig (p : HistoryPatcher) (pairs : List Node) : Go HistoryPatcher :=
  match twapLiteralConfig E [] pairs with
  | .error e => .ok (p.errorf s!"TWAP: {e}")
  | .ok none => .ok p
  | .ok (some fields) =>
    match parseTwapConfig L (.fields fields) with
    | .ok _ => .ok p
    | .error (.error e) => .ok (p.errorf s!"TWAP: {e}")
    | .error (.panic m) => Go.panics m

/-- Counts a `TWAP` call and checks its literal configuration against its window. -/
def checkTWAP (p : HistoryPatcher) (args : List Node) : Go HistoryPatcher :=
  let p := { p with twapCalls := p.twapCalls + 1 }
  if p.twapCalls > maxTWAPCallsPerExpression then
    .ok (p.errorf "expression makes more than 4 TWAP calls")
  else if args.length ≠ 2 then
    .ok (p.errorf "TWAP takes exactly 2 arguments (history window, configuration)")
  else do
    let source ← Go.index args 0
    let config ← Go.index args 1
    match source, config with
    | .window _ ref, .map pairs =>
      match twapConfigLiteral "minSamples".toList pairs with
      | some minSamples =>
        if minSamples < 1 then .ok (p.errorf "TWAP requires minSamples to be at least 1")
        else if minSamples > ref.count then
          .ok (p.errorf "TWAP requires more observations than its history keeps")
        else checkLiteralConfig L E p pairs
      | none => checkLiteralConfig L E p pairs
    | _, _ => .ok p

/-- Rejects a window too shallow for the function to compare records. -/
def checkWindowDepth (name : Text) (args : List Node) : Go HistoryPatcher :=
  match minWindowDepth name with
  | none => .ok p
  | some minDepth =>
    if args.length = 0 then .ok p
    else do
      let source ← Go.index args 0
      match source with
      | .window _ ref =>
        if ref.count < minDepth then .ok (p.errorf "function requires a deeper history window") else .ok p
      | _ => .ok p

def windowID : Node → Option ℕ
  | .window n _ => some n
  | _ => none

/-- A literal precision of `Round` is bounded; a computed one is left to evaluation. -/
def checkRoundPrecision (callee : Text) (args : List Node) : Go HistoryPatcher :=
  if callee = "Round".toList ∧ args.length = 2 then do
    let arg ← Go.index args 1
    match integerLiteral arg with
    | some precision =>
      if precision > maxDecimalExponent ∨ precision < -maxDecimalExponent then
        .ok (p.errorf "Round: precision out of range")
      else .ok p
    | none => .ok p
  else .ok p

/-- A call of a function that accepts windows consumes those among its arguments. -/
def visitRange (callee : Text) (args : List Node) (p : HistoryPatcher) :
    Go HistoryPatcher :=
  if callee ∈ rangeAcceptingFunctions then do
    let p := { p with approved := args.filterMap windowID ++ p.approved }
    let p ← if callee = "TWAP".toList then checkTWAP L E p args else .ok p
    checkWindowDepth p callee args
  else .ok p

def visit (L : Libs) (E : ExprLib) (node : Node) (p : HistoryPatcher) : Go (Node × HistoryPatcher) :=
  match node with
  | .identifier name =>
    let p := { p with names := name :: p.names }
    if reservedHistoryName name then .ok (node,p.errorf "identifier uses the reserved history namespace")
    else .ok (node,p)
  | .variableDeclarator name _ _ => .ok (node,{ p with declared := name :: p.declared })
  | .string value =>
    match L.decimalFromString value with
    | .ok d =>
      match checkDecimalExponent d with
      | .ok () => .ok (node,p)
      | .error e => .ok (node,p.errorf s!"decimal literal: {e}")
    | .error _ => .ok (node,p)
  | .call (.identifier callee) args =>
    if callee = "History".toList then rewriteHistory p node args
    else do
      let p ← checkRoundPrecision p callee args
      let p ← visitRange L E callee args p
      .ok (node,p)
  | _ => .ok (node,p)

mutual
/-- Post-order traversal, with the node the visitor leaves in place. -/
def walk (L : Libs) (E : ExprLib) : Node → HistoryPatcher → Go (Node × HistoryPatcher)
  | .unary op x, p => do
    let (x,p) ← walk L E x p
    visit L E (.unary op x) p
  | .call callee args, p => do
    let (callee,p) ← walk L E callee p
    let (args,p) ← walkAll L E args p
    visit L E (.call callee args) p
  | .map pairs, p => do
    let (pairs,p) ← walkAll L E pairs p
    visit L E (.map pairs) p
  | .pair key value, p => do
    let (key,p) ← walk L E key p
    let (value,p) ← walk L E value p
    visit L E (.pair key value) p
  | .variableDeclarator name value body, p => do
    let (value,p) ← walk L E value p
    let (body,p) ← walk L E body p
    visit L E (.variableDeclarator name value body) p
  | .other children, p => do
    let (children,p) ← walkAll L E children p
    visit L E (.other children) p
  | node, p => visit L E node p

def walkAll (L : Libs) (E : ExprLib) : List Node → HistoryPatcher → Go (List Node × HistoryPatcher)
  | [], p => .ok ([],p)
  | node :: rest, p => do
    let (node,p) ← walk L E node p
    let (rest,p) ← walkAll L E rest p
    .ok (node :: rest,p)
end

/-- The problems found, with the windows left where no function consumes them. -/
def HistoryPatcher.errors : List String :=
  p.errs ++ ((List.range p.generated).filter (fun n => n ∉ p.approved)).map
    (fun _ => "History must be passed directly to a function that accepts a window")

def Field.code : Field → ℕ
  | .value => 0
  | .bid => 1
  | .ask => 2
  | .benchmark => 3

/-- The order references are listed in: by stream, then field, then depth. -/
def HistoryRef.precedes (a b : HistoryRef) : Prop :=
  if a.streamID ≠ b.streamID then a.streamID < b.streamID
  else if a.field ≠ b.field then a.field.code < b.field.code
  else a.count ≤ b.count

instance : DecidableRel HistoryRef.precedes := fun _ _ => inferInstanceAs (Decidable (ite _ _ _))

def HistoryPatcher.sortedRefs : List HistoryRef :=
  p.refs.dedup.insertionSort HistoryRef.precedes

/-- What the analysis of an expression yields. -/
structure AnalysisEntry where
  refs : List HistoryRef
  twapCalls : ℕ
  names : List Text
  err : Option String

def AnalysisEntry.failed (msg : String) : AnalysisEntry := ⟨[],0,[],some msg⟩

def expressionBytes (t : Text) : ℕ := (t.map Char.utf8Size).sum

def analyzeHistoryExpression (L : Libs) (E : ExprLib) (expression : Text) : Go AnalysisEntry :=
  if expressionBytes expression > maxExpressionBytes then
    .ok (.failed "invalid History expression: failed to parse expression")
  else
    match E.parse expression with
    | .error e => .ok (.failed s!"invalid History expression: failed to parse expression: {e}")
    | .ok tree => do
      let (_,p) ← walk L E tree .new
      if p.errors ≠ [] then .ok (.failed "invalid History expression")
      else .ok ⟨p.sortedRefs,p.twapCalls,(p.names.filter (fun n => n ∉ p.declared)).dedup,none⟩

lemma rewriteHistory_returns (node : Node) (args : List Node) : (rewriteHistory p node args).Returns := by
  unfold rewriteHistory
  split_ifs with hlen
  · simp
  · have hlen : args.length = 2 := not_not.1 hlen
    rw [index_eq_ok (by omega : 0 < args.length),index_eq_ok (by omega : 1 < args.length)]
    simp only [bind,Except.bind]
    split
    · split
      · simp
      · split_ifs
        · simp
        · split
          · simp
          · simp
          · split
            · split_ifs <;> simp
            · simp
    · simp

lemma checkLiteralConfig_returns (p : HistoryPatcher) (pairs : List Node) : (checkLiteralConfig L E p pairs).Returns := by
  rw [checkLiteralConfig]
  split
  · simp
  · simp
  · next fields _ =>
    have hends := parseTwapConfig_ends L (.fields fields)
    split
    · simp
    · simp
    · next m hpanic =>
      rw [hpanic] at hends
      exact hends.elim

lemma checkTWAP_returns (p : HistoryPatcher) (args : List Node) : (checkTWAP L E p args).Returns := by
  unfold checkTWAP
  dsimp only
  split_ifs with hcalls hlen
  · simp
  · simp
  · have hlen : args.length = 2 := not_not.1 hlen
    rw [index_eq_ok (by omega : 0 < args.length),index_eq_ok (by omega : 1 < args.length)]
    simp only [bind,Except.bind]
    split
    · split
      · split_ifs
        · simp
        · simp
        · exact checkLiteralConfig_returns L E _ _
      · exact checkLiteralConfig_returns L E _ _
    · simp

lemma checkWindowDepth_returns (name : Text) (args : List Node) : (checkWindowDepth p name args).Returns := by
  unfold checkWindowDepth
  split
  · simp
  · split_ifs with hlen
    · simp
    · rw [index_eq_ok (Nat.pos_of_ne_zero hlen)]
      simp only [bind,Except.bind]
      split
      · split_ifs <;> simp
      · simp

lemma checkRoundPrecision_returns (callee : Text) (args : List Node) :
    (checkRoundPrecision p callee args).Returns := by
  unfold checkRoundPrecision
  split_ifs with hlen
  · rw [index_eq_ok (by omega : 1 < args.length)]
    simp only [bind,Except.bind]
    split
    · split_ifs <;> simp
    · simp
  · simp

lemma visitRange_returns (callee : Text) (args : List Node) (p : HistoryPatcher) :
    (visitRange L E callee args p).Returns := by
  unfold visitRange
  split_ifs with hrange htwap
  · exact (checkTWAP_returns L E _ args).bind fun q => checkWindowDepth_returns q callee args
  · exact checkWindowDepth_returns _ callee args
  · simp

lemma visit_returns (L : Libs) (E : ExprLib) (node : Node) (p : HistoryPatcher) : (visit L E node p).Returns := by
  unfold visit
  split
  · dsimp only
    split_ifs <;> simp
  · simp
  · split
    · split <;> simp
    · simp
  · rename_i callee args
    split_ifs with hhistory
    · exact rewriteHistory_returns p _ args
    · refine (checkRoundPrecision_returns p callee args).bind fun q => ?_
      exact (visitRange_returns L E callee args q).bind fun _ => returns_ok _
  · simp

mutual
/-- The pass over an expression ends on every tree. -/
lemma walk_returns (L : Libs) (E : ExprLib) : ∀ (node : Node) (p : HistoryPatcher), (walk L E node p).Returns
  | .unary op x, p => by
    simp only [walk]
    exact (walk_returns L E x p).bind fun _ => visit_returns L E _ _
  | .call callee args, p => by
    simp only [walk]
    refine (walk_returns L E callee p).bind fun r => ?_
    exact (walkAll_returns L E args r.2).bind fun _ => visit_returns L E _ _
  | .map pairs, p => by
    simp only [walk]
    exact (walkAll_returns L E pairs p).bind fun _ => visit_returns L E _ _
  | .pair key value, p => by
    simp only [walk]
    refine (walk_returns L E key p).bind fun r => ?_
    exact (walk_returns L E value r.2).bind fun _ => visit_returns L E _ _
  | .variableDeclarator name value body, p => by
    simp only [walk]
    refine (walk_returns L E value p).bind fun r => ?_
    exact (walk_returns L E body r.2).bind fun _ => visit_returns L E _ _
  | .other children, p => by
    simp only [walk]
    exact (walkAll_returns L E children p).bind fun _ => visit_returns L E _ _
  | .identifier _, p => visit_returns L E _ p
  | .window _ _, p => visit_returns L E _ p
  | .integer _, p => visit_returns L E _ p
  | .float _, p => visit_returns L E _ p
  | .string _, p => visit_returns L E _ p

lemma walkAll_returns (L : Libs) (E : ExprLib) :
    ∀ (nodes : List Node) (p : HistoryPatcher), (walkAll L E nodes p).Returns
  | [], p => returns_ok _
  | node :: rest, p => by
    simp only [walkAll]
    refine (walk_returns L E node p).bind fun r => ?_
    exact (walkAll_returns L E rest r.2).bind fun _ => returns_ok _
end

/-- Analysing an expression always returns, whatever tree the parser gave. -/
lemma analyzeHistoryExpression_returns (L : Libs) (E : ExprLib) (expression : Text) :
    (analyzeHistoryExpression L E expression).Returns := by
  unfold analyzeHistoryExpression
  split_ifs
  · simp
  · split
    · simp
    · refine (walk_returns L E _ _).bind fun r => ?_
      dsimp only
      split_ifs <;> simp

end DataStreams
