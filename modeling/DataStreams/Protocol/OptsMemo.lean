import DataStreams.Protocol.Opts

/-! The opts cache answers like the plain map of the raw opts, whatever calls are made. -/
namespace DataStreams
open Function SortedMap

/-- The calls on a cache; opts are read as values of the types `τ`. -/
inductive OptsCall (τ : Type)
  | set (id : ChannelID) (raw : Bytes)
  | remove (id : ChannelID)
  | syncTo (defs : ChannelDefinitions)
  | resetTo (defs : ChannelDefinitions)
  | getOpts (id : ChannelID) (T : τ)

/-- What a call does to the plain map. -/
def OptsCache.call {τ : Type} (m : OptsCache) : OptsCall τ → OptsCache
  | .set id raw => m.set id raw
  | .remove id => m.remove id
  | .syncTo defs | .resetTo defs => .ofDefinitions defs
  | .getOpts _ _ => m

variable {τ : Type} {V : τ → Type}
structure OptsTypes (V : τ → Type) where
  zero : ∀ T, V T
  unmarshal : ∀ T, Bytes → Except String (V T)

/-- The opts cache with the values decoded so far. -/
structure OptsMemo (V : τ → Type) where
  raw : SortedMap ChannelID Bytes
  decoded : ChannelID → (T : τ) → Option (V T)
  isSealed : Bool

namespace OptsMemo
def newOptsCache : OptsMemo V := ⟨∅,fun _ _ => none,false⟩

def newSealedOptsCache (defs : ChannelDefinitions) : OptsMemo V :=
  ⟨(OptsCache.ofDefinitions defs).raw,fun _ _ => none,true⟩

def invalidateDecoded (c : OptsMemo V) (id : ChannelID) : OptsMemo V :=
  { c with decoded := update c.decoded id (fun _ => none) }

/-- What `Set` and the first loop of `SyncTo` do for a channel. -/
def store (c : OptsMemo V) (id : ChannelID) (raw : Bytes) : OptsMemo V :=
  if c.raw.get? id = some raw then c else { c with raw := c.raw.insert id raw }.invalidateDecoded id

/-- What `Remove` and the second loop of `SyncTo` do for a channel. -/
def drop (c : OptsMemo V) (id : ChannelID) : OptsMemo V :=
  { c with raw := c.raw.erase id }.invalidateDecoded id

def set (c : OptsMemo V) (id : ChannelID) (raw : Bytes) : OptsMemo V :=
  if c.isSealed then c else c.store id raw

def remove (c : OptsMemo V) (id : ChannelID) : OptsMemo V := if c.isSealed then c else c.drop id

-- a pass of either loop touches its own channel only, so the order of the maps is not seen
def syncTo (c : OptsMemo V) (defs : ChannelDefinitions) : OptsMemo V :=
  if c.isSealed then c
  else
    let c := (OptsCache.ofDefinitions defs).raw.entries.foldl (fun c e => c.store e.1 e.2) c
    (c.raw.keys.filter (fun id => ¬ defs.contains id)).foldl drop c

def resetTo (c : OptsMemo V) (defs : ChannelDefinitions) : OptsMemo V :=
  if c.isSealed then c else ⟨(OptsCache.ofDefinitions defs).raw,fun _ _ => none,false⟩

variable (J : OptsTypes V)
/-- The cache holds the opts of a plain map, and every decoded value is the decode of its channel's. -/
structure Reads (c : OptsMemo V) (isSealed : Bool) (m : OptsCache) : Prop where
  raw : c.raw = m.raw
  isSealed : c.isSealed = isSealed
  decoded : ∀ {id T v}, c.decoded id T = some v →
    ∃ raw, m.raw.get? id = some raw ∧ decodeOpts (J.zero T) (J.unmarshal T) raw = .ok v

variable {J} {c : OptsMemo V} {m : OptsCache} {s : Bool}
lemma Reads.invalidateDecoded {m' : OptsCache} {id : ChannelID} (h : c.Reads J s m)
    (hm : ∀ a, a ≠ id → m'.raw.get? a = m.raw.get? a) :
    ({ c with raw := m'.raw }.invalidateDecoded id).Reads J s m' := by
  refine ⟨rfl,h.isSealed,?_⟩
  intro a T v hv
  by_cases ha : a = id
  · simp [OptsMemo.invalidateDecoded,ha] at hv
  · simp only [OptsMemo.invalidateDecoded,update_of_ne ha] at hv
    rw [hm a ha]
    exact h.decoded hv

lemma Reads.store (h : c.Reads J s m) (id : ChannelID) (raw : Bytes) :
    (c.store id raw).Reads J s (m.set id raw) := by
  unfold OptsMemo.store
  split
  case isTrue hsame =>
    have hset : m.set id raw = m := congrArg OptsCache.mk (insert_self (h.raw ▸ hsame))
    rwa [hset]
  case isFalse =>
    rw [h.raw]
    apply h.invalidateDecoded
    intro a ha
    exact get?_insert_of_ne _ _ ha

lemma Reads.drop (h : c.Reads J s m) (id : ChannelID) : (c.drop id).Reads J s (m.remove id) := by
  unfold OptsMemo.drop
  rw [h.raw]
  apply h.invalidateDecoded
  intro a ha
  exact (get?_erase _ _ _).trans (if_neg ha)

lemma Reads.foldl_store (h : c.Reads J s m) (l : List (ChannelID × Bytes)) :
    (l.foldl (fun c e => c.store e.1 e.2) c).Reads J s ⟨m.raw.insertMany l⟩ := by
  induction l generalizing c m with
  | nil => exact h
  | cons e l ih => exact ih (h.store e.1 e.2)

lemma Reads.foldl_drop (h : c.Reads J s m) (l : List ChannelID) :
    (l.foldl OptsMemo.drop c).Reads J s ⟨m.raw.eraseMany l⟩ := by
  induction l generalizing c m with
  | nil => exact h
  | cons a l ih => exact ih (h.drop a)

/-- What is left when all other keys are dropped. -/
lemma eraseMany_overlay (m n : SortedMap ChannelID Bytes) :
    (m.overlay n).eraseMany ((m.overlay n).keys.filter (fun id => ¬ n.contains id)) = n := by
  apply SortedMap.ext
  intro a
  simp only [get?_eraseMany,List.mem_filter,mem_keys,get?_overlay,SortedMap.contains]
  obtain hn | ⟨v,hn⟩ := (n.get? a).eq_none_or_eq_some
  · cases m.get? a <;> simp [hn]
  · simp [hn]

lemma Reads.syncTo (h : c.Reads J false m) (defs : ChannelDefinitions) :
    (c.syncTo defs).Reads J false (.ofDefinitions defs) := by
  have hstored : ((OptsCache.ofDefinitions defs).raw.entries.foldl (fun c e => c.store e.1 e.2) c).Reads J false
    ⟨m.raw.overlay (OptsCache.ofDefinitions defs).raw⟩ := h.foldl_store _
  have hkeys : (fun id => decide (¬ defs.contains id)) =
      fun id => decide (¬ (OptsCache.ofDefinitions defs).raw.contains id) := by
    funext id
    simp [SortedMap.contains]
  have hdropped := hstored.foldl_drop ((m.raw.overlay (OptsCache.ofDefinitions defs).raw).keys.filter
    (fun id => ¬ defs.contains id))
  rw [hkeys,eraseMany_overlay,← hkeys] at hdropped
  simp only [OptsMemo.syncTo,h.isSealed,Bool.false_eq_true,if_false]
  rw [hstored.raw]
  exact hdropped

lemma reads_fresh (m : OptsCache) (s : Bool) : (⟨m.raw,fun _ _ => none,s⟩ : OptsMemo V).Reads J s m :=
  ⟨rfl,rfl,fun hv => by simp at hv⟩

variable [DecidableEq τ] (J)
def getOpts (c : OptsMemo V) (id : ChannelID) (T : τ) : Except String (V T) × OptsMemo V :=
  match c.decoded id T with
  | some entry => (.ok entry,c)
  | none =>
    match c.raw.get? id with
    | none => (.error s!"channel {id} not in opts cache",c)
    | some raw =>
      match decodeOpts (J.zero T) (J.unmarshal T) raw with
      | .error err => (.error s!"failed to decode opts for channel {id}: {err}",c)
      | .ok result =>
        (.ok result,{ c with decoded := update c.decoded id (update (c.decoded id) T (some result)) })

def call (c : OptsMemo V) : OptsCall τ → OptsMemo V
  | .set id raw => c.set id raw
  | .remove id => c.remove id
  | .syncTo defs => c.syncTo defs
  | .resetTo defs => c.resetTo defs
  | .getOpts id T => (c.getOpts J id T).2

def answer (m : OptsCache) (id : ChannelID) (T : τ) : Except String (V T) :=
  match m.raw.get? id with
  | none => .error s!"channel {id} not in opts cache"
  | some raw =>
    (decodeOpts (J.zero T) (J.unmarshal T) raw).mapError (fun err => s!"failed to decode opts for channel {id}: {err}")

variable {J}
/-- A lookup answers as the plain map does, and keeps the memo in step. -/
lemma Reads.getOpts (h : c.Reads J s m) (id : ChannelID) (T : τ) :
    (c.getOpts J id T).1 = answer J m id T ∧ (c.getOpts J id T).2.Reads J s m := by
  unfold OptsMemo.getOpts answer
  rw [h.raw]
  cases hmemo : c.decoded id T with
  | some entry =>
    obtain ⟨raw,hraw,hdecode⟩ := h.decoded hmemo
    simp only [hraw,hdecode]
    exact ⟨rfl,h⟩
  | none =>
    cases hraw : m.raw.get? id with
    | none => exact ⟨rfl,h⟩
    | some raw =>
      simp only
      cases hdecode : decodeOpts (J.zero T) (J.unmarshal T) raw with
      | error err => exact ⟨rfl,h⟩
      | ok result =>
        refine ⟨rfl,rfl,h.isSealed,?_⟩
        intro a S v hv
        by_cases ha : a = id
        · subst ha
          by_cases hS : S = T
          · subst hS
            simp only [update_self,Option.some.injEq] at hv
            exact ⟨raw,hraw,hv ▸ hdecode⟩
          · simp only [update_self,update_of_ne hS] at hv
            exact h.decoded hv
        · simp only [update_of_ne ha] at hv
          exact h.decoded hv

lemma Reads.call (h : c.Reads J s m) (x : OptsCall τ) : (c.call J x).Reads J s (if s then m else m.call x) := by
  cases s with
  | true =>
    cases x with
    | getOpts a T => exact (h.getOpts a T).2
    | _ => simpa [OptsMemo.call,OptsMemo.set,OptsMemo.remove,OptsMemo.syncTo,OptsMemo.resetTo,h.isSealed] using h
  | false =>
    cases x with
    | set a raw => simpa [OptsMemo.call,OptsMemo.set,h.isSealed,OptsCache.call] using h.store a raw
    | remove a => simpa [OptsMemo.call,OptsMemo.remove,h.isSealed,OptsCache.call] using h.drop a
    | syncTo defs => exact h.syncTo defs
    | resetTo defs =>
      simp only [OptsMemo.call,OptsMemo.resetTo,h.isSealed,Bool.false_eq_true,if_false]
      exact reads_fresh (.ofDefinitions defs) false
    | getOpts a T => exact (h.getOpts a T).2

lemma Reads.foldl_call (h : c.Reads J s m) (calls : List (OptsCall τ)) :
    (calls.foldl (OptsMemo.call J) c).Reads J s
      (if s then m else calls.foldl OptsCache.call m) := by
  induction calls generalizing c m with
  | nil => cases s <;> exact h
  | cons x calls ih => cases s <;> exact ih (h.call x)

variable (J)
/-- Through any calls the cache answers like the plain map, and a sealed one like its definitions. -/
theorem getOpts_foldl_call (calls : List (OptsCall τ)) (defs : ChannelDefinitions) :
    (∀ id T, ((calls.foldl (call J) newOptsCache).getOpts J id T).1 =
      answer J (calls.foldl OptsCache.call .empty) id T) ∧
    ((calls.foldl (call J) newOptsCache).syncTo defs).raw = (OptsCache.ofDefinitions defs).raw ∧
    ((calls.foldl (call J) newOptsCache).resetTo defs).raw = (OptsCache.ofDefinitions defs).raw ∧
    (calls.foldl (call J) (newSealedOptsCache defs)).raw = (OptsCache.ofDefinitions defs).raw ∧
    ∀ id T, ((calls.foldl (call J) (newSealedOptsCache defs)).getOpts J id T).1 =
      answer J (.ofDefinitions defs) id T := by
  have hopen : (calls.foldl (call J) newOptsCache).Reads J false
    (calls.foldl OptsCache.call .empty) := (reads_fresh .empty false).foldl_call calls
  have hsealed : (calls.foldl (call J) (newSealedOptsCache defs)).Reads J true
    (.ofDefinitions defs) := (reads_fresh (.ofDefinitions defs) true).foldl_call calls
  exact ⟨fun id T => (hopen.getOpts id T).1,(hopen.call (.syncTo defs)).raw,(hopen.call (.resetTo defs)).raw,
    hsealed.raw,fun id T => (hsealed.getOpts id T).1⟩

end OptsMemo
end DataStreams
