import DataStreams.Foundation.Levels
import DataStreams.Protocol.CanonicalValues

/-! Stream values as text, with a JSON form nested for each timestamp. -/
namespace DataStreams
open List Go

structure TypedTextStreamValue where
  type : StreamValueType
  serializedStreamValue : Text
  deriving DecidableEq

/-- The decimal and JSON libraries as the text form uses them. -/
structure TextLibs extends Libs where
  decimalString : Decimal → Text
  marshalTyped : TypedTextStreamValue → Except String Text
  unmarshalTyped : Text → Except String TypedTextStreamValue

def quoteText (bid benchmark ask : Text) : Text :=
  ['Q','\x7b','B','i','d',':',' '] ++ (bid ++ ([',',' ','B','e','n','c','h','m','a','r','k',':',' '] ++
    (benchmark ++ ([',',' ','A','s','k',':',' '] ++ (ask ++ ['\x7d'])))))

/-- `TSV{ObservedAtNanoseconds: `. -/
def timestampedOpening : Text :=
  ['T','S','V','\x7b','O','b','s','e','r','v','e','d','A','t','N','a','n','o','s','e','c','o','n','d','s',':',' ']

/-- `, StreamValue: `. -/
def timestampedSeparator : Text := [',',' ','S','t','r','e','a','m','V','a','l','u','e',':',' ']

def timestampedText (observedAt : ℕ) (typed : Text) : Text :=
  timestampedOpening ++ (decimalDigits observedAt ++ (timestampedSeparator ++ (typed ++ ['\x7d'])))

def StreamValue.marshalText (T : TextLibs) : StreamValue → Except String Text
  | .decimal d => .ok (T.decimalString d)
  | .quote q => .ok (quoteText (T.decimalString q.bid) (T.decimalString q.benchmark) (T.decimalString q.ask))
  | .timestamped observedAt v => do
    let serialized ← v.marshalText T
    let typed ← T.marshalTyped ⟨v.type,serialized⟩
    .ok (timestampedText observedAt typed)

def newTypedTextStreamValue (T : TextLibs) : Option StreamValue → Except String TypedTextStreamValue
  | none => .error "nil stream value"
  | some v => do
    let b ← v.marshalText T
    .ok ⟨v.type,b⟩

def unmarshalTextQuote (L : Libs) (t : Text) : Except String Quote :=
  match quoteFields t with
  | none => .error "unexpected input for quote, expected format Q\x7bBid: <bid>, Benchmark: <benchmark>, Ask: <ask>\x7d"
  | some (bid,benchmark,ask) => do
    let bid ← unmarshalTextDecimal L bid
    let benchmark ← unmarshalTextDecimal L benchmark
    let ask ← unmarshalTextDecimal L ask
    .ok ⟨bid,benchmark,ask⟩

/-- The digits and the nested value of the template. A point of the expression stands for
any character but a line break. -/
def timestampedFields (t : Text) : Option (Text × Text) := do
  let t ← stripPrefix timestampedOpening t
  let (digits,t) := t.span Char.isDigit
  let t ← stripPrefix timestampedSeparator t
  match t.reverse with
  | '\x7d' :: typed => if digits ≠ [] ∧ typed ≠ [] ∧ '\n' ∉ typed then some (digits,typed.reverse) else none
  | _ => none

def openTimestamped (T : TextLibs) (t : Text) : Except String (ℕ × TypedTextStreamValue) :=
  match timestampedFields t with
  | none => .error "unexpected input for timestamped stream value"
  | some (digits,typed) =>
    match parseUint 64 digits with
    | none => .error "failed to parse timestamp"
    | some observedAt => do
      let inner ← T.unmarshalTyped typed
      .ok (observedAt,inner)

def unmarshalTextNested (T : TextLibs) : ℕ → TypedTextStreamValue → Except String StreamValue
  | levels, enc =>
    match enc.type with
    | .decimal => do .ok (.decimal (← unmarshalTextDecimal T.toLibs enc.serializedStreamValue))
    | .quote => do .ok (.quote (← unmarshalTextQuote T.toLibs enc.serializedStreamValue))
    | .timestamped =>
      match levels with
      | 0 => do
        let _ ← openTimestamped T enc.serializedStreamValue
        .error s!"stream value nesting too deep: got more than {maxStreamValueNesting} levels"
      | levels + 1 => do
        let t ← openTimestamped T enc.serializedStreamValue
        let v ← unmarshalTextNested T levels t.2
        .ok (.timestamped t.1 v)
    | .other code => .error s!"unknown StreamValueType {code}"

def unmarshalTypedTextStreamValue (T : TextLibs) (enc : Option TypedTextStreamValue) : Except String StreamValue :=
  match enc with
  | none => .error "nil stream value"
  | some enc => unmarshalTextNested T maxStreamValueNesting enc

/-- Numbers are written as plain digits and parse back to the same number within the exponent
bounds; what JSON writes of a text without line breaks has none, and is read back. -/
structure TextLibs.ReadsText (T : TextLibs) : Prop where
  plain : ∀ d, isQuoteNumber (T.decimalString d) = true
  decimal : ∀ d : Decimal, d.ExponentInRange →
    ∃ e, T.decimalFromString (T.decimalString d) = .ok e ∧ e.toRat = d.toRat ∧ e.ExponentInRange
  typed : ∀ (v : StreamValue) (s : Text), '\n' ∉ s →
    ∃ t, T.marshalTyped ⟨v.type,s⟩ = .ok t ∧ t ≠ [] ∧ '\n' ∉ t ∧ T.unmarshalTyped t = .ok ⟨v.type,s⟩

lemma stripPrefix_append (p t : Text) : stripPrefix p (p ++ t) = some t := by
  rw [stripPrefix,if_pos (prefix_append p t),drop_left]

variable {a : Text} {c : Char}
lemma span_append {p : Char → Bool} (ha : ∀ x ∈ a, p x = true) (hc : p c = false) (rest : Text) :
    (a ++ c :: rest).span p = (a,c :: rest) := by
  have hstop : ¬p c = true := by simp [hc]
  rw [span_eq_takeWhile_dropWhile,takeWhile_append_of_pos ha,dropWhile_append_of_pos ha,
    takeWhile_cons_of_neg hstop,dropWhile_cons_of_neg hstop,append_nil]

variable {t : Text}
lemma mem_of_isQuoteNumber (h : isQuoteNumber t = true) (hc : c ∈ t) :
    (c.isDigit || c = '.' || c = '-') = true := by
  unfold isQuoteNumber at h
  split at h
  · next rest =>
    rw [Bool.and_eq_true,all_eq_true] at h
    rcases mem_cons.1 hc with rfl | hmem
    · decide
    · rw [h.2 c hmem,Bool.true_or]
  · rw [Bool.and_eq_true,all_eq_true] at h
    rw [h.2 c hc,Bool.true_or]

lemma newline_not_mem_number (h : isQuoteNumber t = true) : '\n' ∉ t := by
  intro hmem
  exact absurd (mem_of_isQuoteNumber h hmem) (by decide)

lemma spanNumber_append (ha : isQuoteNumber a = true)
    (hc : (c.isDigit || c = '.' || c = '-') = false) (rest : Text) : spanNumber (a ++ c :: rest) = (a,c :: rest) :=
  span_append (fun _ hx => mem_of_isQuoteNumber ha hx) hc rest

lemma quoteFields_quoteText {bid benchmark ask : Text} (hbid : isQuoteNumber bid = true)
    (hbenchmark : isQuoteNumber benchmark = true) (hask : isQuoteNumber ask = true) :
    quoteFields (quoteText bid benchmark ask) = some (bid,benchmark,ask) := by
  have hfirst : ∀ rest, spanNumber (bid ++ ([',',' ','B','e','n','c','h','m','a','r','k',':',' '] ++ rest)) =
      (bid,[',',' ','B','e','n','c','h','m','a','r','k',':',' '] ++ rest) :=
    fun _ => spanNumber_append hbid (by decide) _
  have hsecond : ∀ rest, spanNumber (benchmark ++ ([',',' ','A','s','k',':',' '] ++ rest)) =
      (benchmark,[',',' ','A','s','k',':',' '] ++ rest) :=
    fun _ => spanNumber_append hbenchmark (by decide) _
  have hthird : spanNumber (ask ++ ['\x7d']) = (ask,['\x7d']) := spanNumber_append hask (by decide) []
  simp only [quoteFields,quoteText,stripPrefix_append,Option.bind_eq_bind,Option.bind_some,hfirst,hsecond,hthird,
    hbid,hbenchmark,hask,and_true,if_true]

lemma parseUint_decimalDigits {n : ℕ} (h : n < 2 ^ 64) : parseUint 64 (decimalDigits n) = some n := by
  have hvalue : (Nat.toDigits 10 n).foldl (fun acc c => 10 * acc + (c.toNat - '0'.toNat)) 0 = n :=
    Nat.ofDigitChars_toDigits (by decide) (by decide)
  have hdigits : (Nat.toDigits 10 n).all Char.isDigit = true := by
    rw [all_eq_true]
    intro c hc
    exact Nat.isDigit_of_mem_toDigits (by decide) (by decide) hc
  simp only [parseUint,decimalDigits,hvalue]
  rw [if_pos ⟨Nat.toDigits_ne_nil,hdigits,h⟩]

variable {typed : Text}
lemma timestampedFields_timestampedText (observedAt : ℕ) (hne : typed ≠ []) (hline : '\n' ∉ typed) :
    timestampedFields (timestampedText observedAt typed) = some (decimalDigits observedAt,typed) := by
  have hspan : (decimalDigits observedAt ++ (timestampedSeparator ++ (typed ++ ['\x7d']))).span Char.isDigit =
      (decimalDigits observedAt,timestampedSeparator ++ (typed ++ ['\x7d'])) :=
    span_append (fun c hc => Nat.isDigit_of_mem_toDigits (by decide) (by decide) hc) (by decide) _
  have hfields : decimalDigits observedAt ≠ [] ∧ typed.reverse ≠ [] ∧ '\n' ∉ typed.reverse :=
    ⟨Nat.toDigits_ne_nil,by simpa using hne,by simpa using hline⟩
  simp only [timestampedFields,timestampedText,stripPrefix_append,Option.bind_eq_bind,Option.bind_some,hspan,
    reverse_append,reverse_singleton,singleton_append]
  rw [if_pos hfields,reverse_reverse]

lemma newline_not_mem_timestampedText (observedAt : ℕ) (hline : '\n' ∉ typed) :
    '\n' ∉ timestampedText observedAt typed := by
  have hdigits : '\n' ∉ decimalDigits observedAt := by
    intro hmem
    have hdigit := Nat.isDigit_of_mem_toDigits (by decide) (by decide) hmem
    exact absurd hdigit (by decide)
  simp only [timestampedText,mem_append,not_or]
  exact ⟨by decide,hdigits,by decide,hline,by decide⟩

variable {T : TextLibs}
lemma newline_not_mem_quoteText (hT : T.ReadsText) (q : Quote) :
    '\n' ∉ quoteText (T.decimalString q.bid) (T.decimalString q.benchmark) (T.decimalString q.ask) := by
  simp only [quoteText,mem_append,not_or]
  exact ⟨by decide,newline_not_mem_number (hT.plain _),by decide,newline_not_mem_number (hT.plain _),by decide,
    newline_not_mem_number (hT.plain _),by decide⟩

lemma unmarshalTextDecimal_decimalString (hT : T.ReadsText) {d : Decimal} (h : d.ExponentInRange) :
    ∃ e, unmarshalTextDecimal T.toLibs (T.decimalString d) = .ok e ∧ d.toRat = e.toRat := by
  obtain ⟨e,hread,heq,hin⟩ := hT.decimal d h
  refine ⟨e,?_,heq.symm⟩
  simp only [unmarshalTextDecimal,hread,ok_bind,checkDecimalExponent_eq_ok.2 hin]

lemma unmarshalTextNested_decimal (levels : ℕ) (b : Text) : unmarshalTextNested T levels ⟨.decimal,b⟩ =
    (unmarshalTextDecimal T.toLibs b).bind (fun d => .ok (.decimal d)) := by
  cases levels <;> rfl

lemma unmarshalTextNested_quote (levels : ℕ) (b : Text) : unmarshalTextNested T levels ⟨.quote,b⟩ =
    (unmarshalTextQuote T.toLibs b).bind (fun q => .ok (.quote q)) := by
  cases levels <;> rfl

lemma unmarshalTextNested_timestamped (levels : ℕ) (b : Text) :
    unmarshalTextNested T (levels + 1) ⟨.timestamped,b⟩ = (openTimestamped T b).bind (fun t =>
      (unmarshalTextNested T levels t.2).bind (fun v => .ok (.timestamped t.1 v))) :=
  rfl

lemma openTimestamped_timestampedText {observedAt : ℕ} (hrange : observedAt < 2 ^ 64) {typed : Text} (hne : typed ≠ [])
    (hline : '\n' ∉ typed) {inner : TypedTextStreamValue} (hread : T.unmarshalTyped typed = .ok inner) :
    openTimestamped T (timestampedText observedAt typed) = .ok (observedAt,inner) := by
  simp only [openTimestamped,timestampedFields_timestampedText observedAt hne hline,parseUint_decimalDigits hrange,
    hread,ok_bind]

namespace StreamValue
def timestamps : StreamValue → List ℕ
  | .timestamped t v => t :: v.timestamps
  | _ => []

/-- A value in range that nests at most `levels` times has a text on one line, which is read
back as the same numbers under the same times. -/
lemma unmarshalTextNested_marshalText (hT : T.ReadsText) {v : StreamValue} :
    ∀ {levels : ℕ}, v.InRange → v.nesting ≤ levels →
      ∃ b, v.marshalText T = .ok b ∧ '\n' ∉ b ∧
        ∃ w, unmarshalTextNested T levels ⟨v.type,b⟩ = .ok w ∧ v.SameNumber w ∧ v.timestamps = w.timestamps := by
  induction v with
  | decimal d =>
    intro levels hrange _
    obtain ⟨e,he,heq⟩ := unmarshalTextDecimal_decimalString hT hrange
    refine ⟨_,rfl,newline_not_mem_number (hT.plain d),.decimal e,?_,heq,rfl⟩
    rw [type,unmarshalTextNested_decimal,he]
    rfl
  | quote q =>
    intro levels hrange _
    obtain ⟨bid,hbid,hbid'⟩ := unmarshalTextDecimal_decimalString hT hrange.1
    obtain ⟨benchmark,hbenchmark,hbenchmark'⟩ := unmarshalTextDecimal_decimalString hT hrange.2.1
    obtain ⟨ask,hask,hask'⟩ := unmarshalTextDecimal_decimalString hT hrange.2.2
    refine ⟨_,rfl,newline_not_mem_quoteText hT q,.quote ⟨bid,benchmark,ask⟩,?_,⟨hbid',hbenchmark',hask'⟩,rfl⟩
    rw [type,unmarshalTextNested_quote,unmarshalTextQuote,
      quoteFields_quoteText (hT.plain _) (hT.plain _) (hT.plain _)]
    simp only [hbid,hbenchmark,hask,ok_bind,Except.bind]
  | timestamped t v ih =>
    intro levels hrange hnest
    cases levels with
    | zero => exact absurd hnest (Nat.not_succ_le_zero _)
    | succ levels =>
      obtain ⟨b,hb,hline,w,hw,hsame,htimes⟩ := ih hrange.2 (Nat.le_of_succ_le_succ hnest)
      obtain ⟨typed,htyped,hne,hline',hread⟩ := hT.typed v b hline
      refine ⟨timestampedText t typed,?_,newline_not_mem_timestampedText t hline',.timestamped t w,?_,hsame,
        congrArg (t :: ·) htimes⟩
      · simp only [marshalText,hb,htyped,ok_bind]
      · rw [type.eq_3,unmarshalTextNested_timestamped,openTimestamped_timestampedText hrange.1 hne hline' hread]
        simp only [Except.bind,hw]

end StreamValue

def nestingTooDeep : String := s!"stream value nesting too deep: got more than {maxStreamValueNesting} levels"

/-- One layer of the binary form. Values that do not nest are read as at any depth. -/
def protoLayer (W : WireLibs) (enc : StreamValueProto) : Layer StreamValueProto StreamValue String ℕ :=
  match enc.type with
  | .timestamped =>
    match W.unmarshalTimestamped enc.value with
    | .error e => .leaf (.error e)
    | .ok (_,none) => .leaf (.error "nil stream value")
    | .ok (observedAt,some inner) => .inside observedAt inner
  | _ => .leaf (unmarshalNested W 0 (some enc))

def textLayer (T : TextLibs) (enc : TypedTextStreamValue) : Layer TypedTextStreamValue StreamValue String ℕ :=
  match enc.type with
  | .timestamped =>
    match openTimestamped T enc.serializedStreamValue with
    | .error e => .leaf (.error e)
    | .ok (observedAt,inner) => .inside observedAt inner
  | _ => .leaf (unmarshalTextNested T 0 enc)

variable {W : WireLibs} {enc : StreamValueProto} {observedAt : ℕ}
lemma protoLayer_inside {inner : StreamValueProto} (h : protoLayer W enc = .inside observedAt inner) :
    enc.type = .timestamped ∧ W.unmarshalTimestamped enc.value = .ok (observedAt,some inner) := by
  unfold protoLayer at h
  split at h
  · next htype =>
    split at h
    · cases h
    · cases h
    · next ht =>
      cases h
      exact ⟨htype,ht⟩
  · cases h

lemma textLayer_inside {enc inner : TypedTextStreamValue} (h : textLayer T enc = .inside observedAt inner) :
    enc.type = .timestamped ∧ openTimestamped T enc.serializedStreamValue = .ok (observedAt,inner) := by
  unfold textLayer at h
  split at h
  · next htype =>
    split at h
    · cases h
    · next ht =>
      cases h
      exact ⟨htype,ht⟩
  · cases h

variable {result : Except String StreamValue}
variable (levels : ℕ)
/-- A value without another one inside is decoded at any nesting. -/
lemma unmarshalNested_leaf
    (h : protoLayer W enc = .leaf result) : unmarshalNested W levels (some enc) = result := by
  obtain ⟨type,b⟩ := enc
  cases type with
  | timestamped =>
    simp only [protoLayer] at h
    split at h
    · next e he =>
      cases h
      cases levels <;> simp only [unmarshalNested,he] <;> rfl
    · next he =>
      cases h
      have hnil : ∀ n, unmarshalNested W n none = .error "nil stream value" := fun n => by cases n <;> rfl
      cases levels with
      | zero =>
        simp only [unmarshalNested,he]
        rfl
      | succ levels =>
        simp only [unmarshalNested,he,ok_bind,hnil]
        rfl
    · cases h
  | decimal =>
    cases h
    rw [unmarshalNested_decimal,unmarshalNested_decimal]
  | quote =>
    cases h
    rw [unmarshalNested_quote,unmarshalNested_quote]
  | other code =>
    cases h
    cases levels <;> rfl

lemma unmarshalTextNested_leaf {enc : TypedTextStreamValue}
    (h : textLayer T enc = .leaf result) : unmarshalTextNested T levels enc = result := by
  obtain ⟨type,b⟩ := enc
  cases type with
  | timestamped =>
    simp only [textLayer] at h
    split at h
    · next e he =>
      cases h
      cases levels <;> simp only [unmarshalTextNested,he] <;> rfl
    · cases h
  | decimal =>
    cases h
    rw [unmarshalTextNested_decimal,unmarshalTextNested_decimal]
  | quote =>
    cases h
    rw [unmarshalTextNested_quote,unmarshalTextNested_quote]
  | other code =>
    cases h
    cases levels <;> rfl

/-- The binary decoder opens layer after layer. -/
lemma unmarshalNested_eq_run (enc : StreamValueProto) :
    unmarshalNested W levels (some enc) =
      (Layer.run (protoLayer W) StreamValue.timestamped nestingTooDeep levels enc).1 := by
  apply Layer.eq_run (fun levels enc => unmarshalNested W levels (some enc))
  · intro levels enc result h
    exact unmarshalNested_leaf levels h
  · intro enc observedAt inner h
    obtain ⟨htype,ht⟩ := protoLayer_inside h
    simp only [unmarshalNested,htype,ht]
    rfl
  · intro levels enc observedAt inner h
    obtain ⟨htype,ht⟩ := protoLayer_inside h
    simp only [unmarshalNested,htype,ht,ok_bind]
    cases unmarshalNested W levels (some inner) <;> rfl

lemma unmarshalTextNested_eq_run (enc : TypedTextStreamValue) :
    unmarshalTextNested T levels enc =
      (Layer.run (textLayer T) StreamValue.timestamped nestingTooDeep levels enc).1 := by
  apply Layer.eq_run (unmarshalTextNested T)
  · intro levels enc result h
    exact unmarshalTextNested_leaf levels h
  · intro enc observedAt inner h
    obtain ⟨htype,ht⟩ := textLayer_inside h
    simp only [unmarshalTextNested,htype,ht]
    rfl
  · intro levels enc observedAt inner h
    obtain ⟨htype,ht⟩ := textLayer_inside h
    simp only [unmarshalTextNested,htype,ht,ok_bind]
    cases unmarshalTextNested T levels inner <;> rfl

end DataStreams
