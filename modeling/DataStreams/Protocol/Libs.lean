import DataStreams.Protocol.Types
import Mathlib.Data.List.Induction

/-! The libraries outside the repository are parameters of the model. -/
namespace DataStreams
structure CalculatedStreamABI where
  type : Text
  expression : Text
  expressionStreamID : StreamID
  deriving DecidableEq, Repr

/-- One element of an ABI entry: its Solidity type and optional multiplier. -/
structure ABIElement where
  type : Text
  multiplier : Option ℤ
  deriving DecidableEq, Repr

abbrev ABISpec := List ABIElement

structure HistoryBackfillOptsWire where
  targetChannelID : ChannelID
  observations : SortedMap Text (SortedMap Text Text)

structure EVMPremiumLegacyOpts where
  baseUSDFee : Decimal
  expirationWindow : ℕ
  feedID : ℕ
  multiplier : Option ℤ
  maxReportRange : ℤ

structure EVMABIEncodeOpts where
  baseUSDFee : Decimal
  expirationWindow : ℕ
  feedID : ℕ
  abi : List ABISpec
  timeResolution : TimeResolution
  maxReportRange : ℤ

structure EVMStreamlinedOpts where
  feedID : Option ℕ
  abi : List ABISpec
  maxReportRange : ℤ

inductive Token
  | openObject
  | closeObject
  | openArray
  | closeArray
  | string (s : Bytes)
  | literal
  deriving DecidableEq, Repr

/-- The tokens of an input in order, and the error that ends them if it is not the end
of the input. -/
structure TokenStream where
  tokens : List Token
  failure : Option String

/-- The JSON library. `unmarshal` reads the whole input; `decode` reads the first value
of the input, rejects unknown fields and ignores what follows. -/
structure JSON where
  unmarshalTimeResolution : Bytes → Except String TimeResolution
  unmarshalCalculatedStream : Bytes → Except String (List CalculatedStreamABI)
  unmarshalABIPayload : Bytes → Except String (List ABISpec)
  unmarshalPremiumLegacy : Bytes → Except String (Option ℤ)
  unmarshalHistoryBackfill : Bytes → Except String HistoryBackfillOptsWire
  unmarshalEVMPremiumLegacy : Bytes → Except String EVMPremiumLegacyOpts
  unmarshalEVMABIEncode : Bytes → Except String EVMABIEncodeOpts
  unmarshalEVMStreamlined : Bytes → Except String EVMStreamlinedOpts
  decodeEVMPremiumLegacy : Bytes → Except String EVMPremiumLegacyOpts
  decodeEVMABIEncode : Bytes → Except String EVMABIEncodeOpts
  decodeEVMStreamlined : Bytes → Except String EVMStreamlinedOpts
  tokenize : Bytes → TokenStream

/-- Everything the model takes from other packages. -/
structure Libs where
  json : JSON
  /-- The text parser of the decimal package. -/
  decimalFromString : Text → Except String Decimal
  sha256 : Bytes → ℕ

def chars (t : Text) : Bytes := t.map (fun c => UInt8.ofNat c.toNat)

def ascii (s : String) : Bytes := chars s.toList

structure JSONText where
  bytes : Bytes
  tokens : List Token

namespace JSONText
def string (s : Bytes) : JSONText := ⟨34 :: (s ++ [34]),[.string s]⟩

def number (n : ℕ) : JSONText := ⟨chars (Nat.toDigits 10 n),[.literal]⟩

def hash (n : ℕ) : JSONText := string (chars ('0' :: 'x' :: (Nat.toDigits 16 n).leftpad 64 '0'))

def array (items : List JSONText) : JSONText :=
  ⟨91 :: ([44].intercalate (items.map bytes) ++ [93]),.openArray :: (items.flatMap tokens ++ [.closeArray])⟩

def object (members : List (String × JSONText)) : JSONText :=
  ⟨123 :: ([44].intercalate (members.map fun m => (string (ascii m.1)).bytes ++ 58 :: m.2.bytes) ++ [125]),
    .openObject :: (members.flatMap (fun m => .string (ascii m.1) :: m.2.tokens) ++ [.closeObject])⟩

/-- Opts with a base fee in dollars, a feed ID and other members. -/
def evmOpts (fee feed : ℕ) (others : List (String × JSONText)) : JSONText :=
  object (("baseUSDFee",string (chars (Nat.toDigits 10 fee))) :: ("expirationWindow",number 0) :: ("feedID",hash feed) :: others)

/-- Opts that declare calculated streams by their expressions and IDs. -/
def exprOpts (feed : ℕ) (exprs : List (Text × StreamID)) : JSONText :=
  evmOpts 0 feed [("abi",array (exprs.map fun e => object
    [("type",string (ascii "int192")),("expression",string (chars e.1)),("expressionStreamId",number e.2)]))]

end JSONText

/-- A decoder that knows finitely many inputs. -/
def fromTable {α β : Type} [DecidableEq α] (table : List (α × β)) (a : α) : Except String β :=
  match table.lookup a with
  | some b => .ok b
  | none => .error "malformed input"

lemma mem_of_fromTable_eq_ok {α β : Type} [DecidableEq α] {table : List (α × β)} {a : α} {b : β}
    (h : fromTable table a = .ok b) : (a,b) ∈ table := by
  unfold fromTable at h
  split at h
  · next b' hb =>
    cases h
    obtain ⟨l₁,l₂,rfl,_⟩ := List.lookup_eq_some_iff.1 hb
    simp
  · contradiction

/-- Distinct inputs have distinct hashes, here numbers in base 257. -/
def digest (b : Bytes) : ℕ := b.foldl (fun acc x => 257 * acc + x.toNat + 1) 0

/-- The stand-in for a hash function has no collisions. -/
lemma digest_injective : Function.Injective digest := by
  have hlast : ∀ (l : Bytes) (x : UInt8), digest (l ++ [x]) = 257 * digest l + x.toNat + 1 := by
    intro l x
    rw [digest,List.foldl_append]
    rfl
  intro l
  induction l using List.reverseRecOn with
  | nil =>
    intro m h
    cases m using List.reverseRecOn with
    | nil => rfl
    | append_singleton m y =>
      rw [hlast] at h
      cases h
  | append_singleton l x ih =>
    intro m h
    cases m using List.reverseRecOn with
    | nil =>
      rw [hlast] at h
      cases h
    | append_singleton m y =>
      rw [hlast,hlast] at h
      have hx := x.toNat_lt
      have hy := y.toNat_lt
      have hrest : digest l = digest m := by omega
      have hxy : x.toNat = y.toNat := by omega
      rw [ih hrest,UInt8.toNat_inj.1 hxy]

/-- The JSON library on opts it cannot decode. -/
def JSON.rejecting : JSON where
  unmarshalTimeResolution _ := .error "malformed input"
  unmarshalCalculatedStream _ := .error "malformed input"
  unmarshalABIPayload _ := .error "malformed input"
  unmarshalPremiumLegacy _ := .error "malformed input"
  unmarshalHistoryBackfill _ := .error "malformed input"
  unmarshalEVMPremiumLegacy _ := .error "malformed input"
  unmarshalEVMABIEncode _ := .error "malformed input"
  unmarshalEVMStreamlined _ := .error "malformed input"
  decodeEVMPremiumLegacy _ := .error "malformed input"
  decodeEVMABIEncode _ := .error "malformed input"
  decodeEVMStreamlined _ := .error "malformed input"
  tokenize _ := ⟨[],some "malformed input"⟩

def JSON.ofPremium (table : List (JSONText × EVMPremiumLegacyOpts)) : JSON :=
  let read := fromTable (table.map fun e => (e.1.bytes,e.2))
  { JSON.rejecting with
    unmarshalPremiumLegacy := fun raw => (read raw).map EVMPremiumLegacyOpts.multiplier
    unmarshalEVMPremiumLegacy := read
    decodeEVMPremiumLegacy := read }

def JSON.ofExpressions (channels : List (ℕ × List (Text × StreamID))) : JSON :=
  let read := fromTable (channels.map fun c => ((JSONText.exprOpts c.1 c.2).bytes,c))
  let abi (exprs : List (Text × StreamID)) : List ABISpec := exprs.map fun _ => [⟨"int192".toList,none⟩]
  { JSON.rejecting with
    unmarshalTimeResolution := fun raw => (read raw).map fun _ => .seconds
    unmarshalCalculatedStream := fun raw => (read raw).map fun c => c.2.map fun e => ⟨"int192".toList,e.1,e.2⟩
    unmarshalABIPayload := fun raw => (read raw).map fun c => abi c.2
    unmarshalEVMABIEncode := fun raw => (read raw).map fun c => ⟨⟨0,0⟩,0,c.1,abi c.2,.seconds,0⟩
    decodeEVMABIEncode := fun raw => (read raw).map fun c => ⟨⟨0,0⟩,0,c.1,abi c.2,.seconds,0⟩
    tokenize := fun raw =>
      match read raw with
      | .ok c => ⟨(JSONText.exprOpts c.1 c.2).tokens,none⟩
      | .error e => ⟨[],some e⟩ }

end DataStreams
