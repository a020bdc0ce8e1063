import DataStreams.Foundation.Fault
import DataStreams.Protocol.Libs

/-! Opts are JSON bytes that every report format decodes its own way. -/
namespace DataStreams
def decodeOpts {α : Type} (zero : α) (unmarshal : Bytes → Except String α) (raw : Bytes) :
    Except String α :=
  if raw = [] then .ok zero else unmarshal raw

/-- The raw opts of each channel. The values the code memoizes are decodes of these bytes, so the
memo is not part of the state. -/
structure OptsCache where
  raw : SortedMap ChannelID Bytes

namespace OptsCache
def empty : OptsCache := ⟨∅⟩

def set (c : OptsCache) (id : ChannelID) (raw : Bytes) : OptsCache := ⟨c.raw.insert id raw⟩

def remove (c : OptsCache) (id : ChannelID) : OptsCache := ⟨c.raw.erase id⟩

def len (c : OptsCache) : ℕ := c.raw.size

def ofDefinitions (defs : ChannelDefinitions) : OptsCache :=
  ⟨defs.mapVal (fun _ cd => cd.opts)⟩

def getOpts {α : Type} (c : OptsCache) (zero : α) (unmarshal : Bytes → Except String α)
    (id : ChannelID) : Except String α :=
  match c.raw.get? id with
  | none => .error s!"channel {id} not in opts cache"
  | some raw => decodeOpts zero unmarshal raw

@[simp] lemma get?_raw_ofDefinitions (defs : ChannelDefinitions) (id : ChannelID) :
    (ofDefinitions defs).raw.get? id = (defs.get? id).map ChannelDefinition.opts := by
  simp [ofDefinitions]

end OptsCache

def getOptsOrDecode {α : Type} (cache : Option OptsCache) (zero : α)
    (unmarshal : Bytes → Except String α) (cd : ChannelDefinition) (id : ChannelID) :
    Except String α :=
  match cache with
  | none => decodeOpts zero unmarshal cd.opts
  | some c =>
    match c.getOpts zero unmarshal id with
    | .ok o => .ok o
    | .error _ => decodeOpts zero unmarshal cd.opts

variable {α : Type} {defs : ChannelDefinitions} {id : ChannelID} {cd : ChannelDefinition}
section
variable (h : defs.get? id = some cd) (zero : α) (unmarshal : Bytes → Except String α)
include h

/-- A cache that holds a channel's own opts is not observable. -/
lemma getOptsOrDecode_ofDefinitions :
    getOptsOrDecode (some (.ofDefinitions defs)) zero unmarshal cd id = decodeOpts zero unmarshal cd.opts := by
  simp only [getOptsOrDecode,OptsCache.getOpts,OptsCache.get?_raw_ofDefinitions,h,Option.map_some]
  cases decodeOpts zero unmarshal cd.opts <;> rfl

lemma OptsCache.getOpts_ofDefinitions :
    (OptsCache.ofDefinitions defs).getOpts zero unmarshal id = decodeOpts zero unmarshal cd.opts := by
  simp only [OptsCache.getOpts,OptsCache.get?_raw_ofDefinitions,h,Option.map_some]

end

lemma decodeOpts_alike {β γ : Type} {zeroA : α} {zeroB : β} {readA : Bytes → Except String α}
    {readB : Bytes → Except String β} {f : α → γ} {g : β → γ} (hzero : f zeroA = g zeroB)
    (h : ∀ raw a b, readA raw = .ok a → readB raw = .ok b → f a = g b) {raw : Bytes} {a : α} {b : β}
    (ha : decodeOpts zeroA readA raw = .ok a) (hb : decodeOpts zeroB readB raw = .ok b) : f a = g b := by
  unfold decodeOpts at ha hb
  split_ifs at ha hb
  · cases ha
    cases hb
    exact hzero
  · exact h raw a b ha hb

/-- An open object with its keys so far, or an open array (`seen = none`). -/
structure ScanObject where
  seen : Option (List Bytes)
  expectKey : Bool
  deriving DecidableEq

def isASCII (key : Bytes) : Bool := key.all (fun b => b < 128)

def toLowerASCII (key : Bytes) : Bytes :=
  key.map (fun b => if 65 ≤ b ∧ b ≤ 90 then b + 32 else b)

/-- Any token that starts a value completes the pending key of the enclosing object. -/
def completeKey : List ScanObject → List ScanObject
  | [] => []
  | top :: below => { top with expectKey := if top.seen.isSome then true else top.expectKey } :: below

/-- The loop of `verifyOptsKeys`, on the tokens still to be read and the open objects. -/
def scanOptsKeys (failure : Option String) : List Token → List ScanObject → Go Unit
  | [], stack =>
    match failure with
    | some e => Go.err s!"failed to scan opts: {e}"
    | none => if stack = [] then .ok () else Go.err "failed to scan opts: unexpected EOF"
  | .string key :: rest, stack =>
    match stack with
    | ⟨some seen,true⟩ :: below =>
      if ¬ isASCII key then Go.err "opts key is not ASCII"
      else if toLowerASCII key ∈ seen then Go.err "opts key is repeated"
      else scanOptsKeys failure rest (⟨some (toLowerASCII key :: seen),false⟩ :: below)
    | stack => scanOptsKeys failure rest (completeKey stack)
  | .literal :: rest, stack => scanOptsKeys failure rest (completeKey stack)
  | .openObject :: rest, stack => scanOptsKeys failure rest (⟨some [],true⟩ :: completeKey stack)
  | .openArray :: rest, stack => scanOptsKeys failure rest (⟨none,false⟩ :: completeKey stack)
  -- the stack is popped without a check that it is not empty
  | .closeObject :: _, [] => Go.panics "slice bounds out of range [:-1]"
  | .closeObject :: rest, _ :: below => scanOptsKeys failure rest below
  | .closeArray :: _, [] => Go.panics "slice bounds out of range [:-1]"
  | .closeArray :: rest, _ :: below => scanOptsKeys failure rest below

/-- Rejects opts whose object keys are not ASCII or repeat under ASCII case folding. -/
def verifyOptsKeys (J : JSON) (raw : Bytes) : Go Unit :=
  scanOptsKeys (J.tokenize raw).failure (J.tokenize raw).tokens []

def Token.isCloser : Token → Bool
  | .closeObject | .closeArray => true
  | _ => false

def StrayCloser (tokens : List Token) (stack : List ScanObject) : Prop :=
  ∃ accepted closer rest, tokens = accepted ++ closer :: rest ∧ closer.isCloser = true ∧
    scanOptsKeys none accepted stack = .ok ()

variable {t : Token} {rest : List Token} {stack : List ScanObject}
lemma strayCloser_cons {stack' : List ScanObject} (ht : t.isCloser = true → stack ≠ [])
    (hstep : ∀ accepted, scanOptsKeys none (t :: accepted) stack = scanOptsKeys none accepted stack') :
    StrayCloser (t :: rest) stack ↔ StrayCloser rest stack' := by
  constructor
  · rintro ⟨accepted,closer,tail,heq,hc,hok⟩
    cases accepted with
    | nil =>
      simp only [List.nil_append,List.cons.injEq] at heq
      obtain ⟨rfl,rfl⟩ := heq
      simp [scanOptsKeys,ht hc] at hok
    | cons t' accepted =>
      simp only [List.cons_append,List.cons.injEq] at heq
      obtain ⟨rfl,rfl⟩ := heq
      exact ⟨accepted,closer,tail,rfl,hc,hstep accepted ▸ hok⟩
  · rintro ⟨accepted,closer,tail,rfl,hc,hok⟩
    exact ⟨t :: accepted,closer,tail,rfl,hc,(hstep accepted).trans hok⟩

lemma not_strayCloser_nil (stack : List ScanObject) : ¬ StrayCloser [] stack := by
  rintro ⟨accepted,closer,rest,heq,_⟩
  simp at heq

lemma strayCloser_of_empty (ht : t.isCloser = true) (rest : List Token) :
    StrayCloser (t :: rest) [] :=
  ⟨[],t,rest,rfl,ht,rfl⟩

lemma not_strayCloser_cons
    (ht : t.isCloser = false) (hrej : ∀ accepted, scanOptsKeys none (t :: accepted) stack ≠ .ok ()) :
    ¬ StrayCloser (t :: rest) stack := by
  rintro ⟨accepted,closer,tail,heq,hc,hok⟩
  cases accepted with
  | nil =>
    simp only [List.nil_append,List.cons.injEq] at heq
    obtain ⟨rfl,rfl⟩ := heq
    simp [ht] at hc
  | cons t' accepted =>
    simp only [List.cons_append,List.cons.injEq] at heq
    obtain ⟨rfl,rfl⟩ := heq
    exact hrej accepted hok

/-- The scan pops an empty stack exactly at a closing delimiter that follows tokens it
accepts. -/
lemma isPanic_scanOptsKeys {failure : Option String} {tokens : List Token} :
    Go.IsPanic (scanOptsKeys failure tokens stack) ↔ StrayCloser tokens stack := by
  -- the cases are those of the scan; every token but a key in error passes the question on
  fun_induction scanOptsKeys failure tokens stack with
  | case1 | case2 | case3 => simp [not_strayCloser_nil]
  | case4 key rest seen below hascii =>
    refine iff_of_false (Go.not_isPanic_err _) (not_strayCloser_cons rfl ?_)
    simp [scanOptsKeys,hascii]
  | case5 key rest seen below hascii hseen =>
    refine iff_of_false (Go.not_isPanic_err _) (not_strayCloser_cons rfl ?_)
    simp [scanOptsKeys,hascii,hseen]
  | case6 key rest seen below hascii hseen ih =>
    refine ih.trans (strayCloser_cons ?_ ?_).symm
    · simp
    · simp [scanOptsKeys,hascii,hseen]
  | case7 key rest stack hkey ih | case8 rest stack ih | case9 rest stack ih | case10 rest stack ih =>
    refine ih.trans (strayCloser_cons ?_ ?_).symm
    · simp [Token.isCloser]
    · simp [scanOptsKeys]
  | case11 rest | case13 rest => exact iff_of_true trivial (strayCloser_of_empty rfl rest)
  | case12 rest top below ih | case14 rest top below ih =>
    refine ih.trans (strayCloser_cons ?_ ?_).symm
    · simp
    · simp [scanOptsKeys]

end DataStreams
