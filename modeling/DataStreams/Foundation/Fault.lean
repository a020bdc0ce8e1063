import Mathlib.Algebra.Order.Ring.Int
import Mathlib.Data.List.Basic

/-! Computations that may fail or crash. An error is a value the caller handles; a panic stops
the process. -/
namespace DataStreams
open List

inductive Fault
  | error (msg : String)
  | panic (msg : String)
  deriving DecidableEq, Repr

abbrev Go (α : Type) := Except Fault α

namespace Go
variable {α β : Type}
def err (msg : String) : Go α := .error (.error msg)

def panics (msg : String) : Go α := .error (.panic msg)

def IsPanic : Go α → Prop
  | .error (.panic _) => True
  | _ => False

instance : DecidablePred (IsPanic (α := α)) := fun x =>
  match x with
  | .error (.panic _) => .isTrue trivial
  | .error (.error _) => .isFalse id
  | .ok _ => .isFalse id

def Returns (x : Go α) : Prop := ∃ a, x = .ok a

def ofExcept : Except String α → Go α
  | .ok a => .ok a
  | .error e => err e

def getD (x : Go α) (default : α) : α :=
  match x with
  | .ok a => a
  | .error _ => default

variable {x : Go α}
lemma eq_ok_getD (h : x.isOk = true) (default : α) : x = .ok (x.getD default) := by
  cases x with
  | ok a => rfl
  | error e => simp [Except.isOk,Except.toBool] at h

/-- A call whose error is only logged. -/
def attempt : Go α → Go (Option α)
  | .ok a => .ok (some a)
  | .error (.error _) => .ok none
  | .error (.panic m) => panics m

def received : Go α → Option (Except String α)
  | .ok a => some (.ok a)
  | .error (.error e) => some (.error e)
  | .error (.panic _) => none

def index (xs : List α) (i : ℕ) : Go α :=
  match xs[i]? with
  | some a => .ok a
  | none => panics "index out of range"

def sliceFrom (xs : List α) (i : ℕ) : Go (List α) :=
  if i ≤ xs.length then .ok (xs.drop i) else panics "slice bounds out of range"

def sliceTo (xs : List α) (i : ℕ) : Go (List α) :=
  if i ≤ xs.length then .ok (xs.take i) else panics "slice bounds out of range"

@[simp] lemma not_isPanic_ok (a : α) : ¬ IsPanic (.ok a : Go α) := id

@[simp] lemma not_isPanic_pure (a : α) : ¬ IsPanic (pure a : Go α) := id

variable (m : String)
@[simp] lemma not_isPanic_err : ¬ IsPanic (err m : Go α) := id

@[simp] lemma not_isPanic_ofExcept (x : Except String α) : ¬ IsPanic (ofExcept x) := by
  cases x <;> simp [ofExcept]

@[simp] lemma err_ne_ok (a : α) : (err m : Go α) ≠ .ok a := nofun

@[simp] lemma panics_ne_ok (a : α) : (panics m : Go α) ≠ .ok a := nofun

variable {a : α}
@[simp] lemma ofExcept_eq_ok {x : Except String α} : ofExcept x = .ok a ↔ x = .ok a := by
  cases x <;> simp [ofExcept]

variable {ε : Type}
@[simp] lemma ok_bind (a : α) (f : α → Except ε β) : (Except.ok a >>= f) = f a := rfl

variable {b : β}
/-- A sequence ends normally exactly when both of its parts do. -/
lemma bind_ok_iff {x : Except ε α} {f : α → Except ε β} : (x >>= f) = .ok b ↔ ∃ a, x = .ok a ∧ f a = .ok b := by
  rcases x with e | a
  · refine ⟨nofun,?_⟩
    rintro ⟨_,h,_⟩
    cases h
  · refine ⟨fun h => ⟨a,rfl,h⟩,?_⟩
    rintro ⟨_,h,hf⟩
    exact Except.ok.inj h ▸ hf

/-- A check in front of a computation only restricts it. -/
lemma check_bind_ok_iff {x : Except ε Unit} {y : Except ε β} :
    (x >>= fun _ => y) = .ok b ↔ x = .ok () ∧ y = .ok b := by
  rw [bind_ok_iff]
  exact ⟨fun ⟨_,hx,hy⟩ => ⟨hx,hy⟩,fun ⟨hx,hy⟩ => ⟨(),hx,hy⟩⟩

variable {l : List α}
/-- A loop of checks passes exactly when every check does. -/
lemma forM_ok_iff {f : α → Except ε Unit} : l.forM f = .ok () ↔ ∀ a ∈ l, f a = .ok () := by
  induction l with
  | nil => simp [pure,Except.pure]
  | cons a l ih =>
    rw [forM_eq_forM] at ih ⊢
    simp [check_bind_ok_iff,ih]

variable {f : α → Go β}
/-- A sequence crashes exactly when its first part does, or its first part ends
normally and the rest does. -/
lemma isPanic_bind : IsPanic (x >>= f) ↔ IsPanic x ∨ ∃ a, x = .ok a ∧ IsPanic (f a) := by
  cases x with
  | error e => cases e <;> simp [bind,Except.bind,IsPanic]
  | ok a => simp [bind,Except.bind]

variable {xs : List α} {i : ℕ}
lemma index_eq_ok (h : i < xs.length) : index xs i = .ok (xs.get ⟨i,h⟩) := by
  simp [index,h]

lemma sliceFrom_eq_ok (h : i ≤ xs.length) : sliceFrom xs i = .ok (xs.drop i) := by
  simp [sliceFrom,h]

lemma sliceTo_eq_ok (h : i ≤ xs.length) : sliceTo xs i = .ok (xs.take i) := by
  simp [sliceTo,h]

@[simp] lemma returns_ok (a : α) : Returns (.ok a : Go α) := ⟨a,rfl⟩

lemma Returns.bind (hx : Returns x) (hf : ∀ a, Returns (f a)) : Returns (x >>= f) := by
  obtain ⟨a,rfl⟩ := hx
  exact hf a

lemma Returns.not_isPanic (h : Returns x) : ¬ IsPanic x := by
  obtain ⟨a,rfl⟩ := h
  exact not_isPanic_ok a

lemma Returns.mapM (h : ∀ a ∈ l, Returns (f a)) : Returns (l.mapM f) := by
  induction l with
  | nil => exact ⟨[],rfl⟩
  | cons a l ih =>
    rw [mapM_cons]
    exact (h a (by simp)).bind fun b => (ih fun c hc => h c (by simp [hc])).bind fun bs => ⟨b :: bs,rfl⟩

@[simp] lemma isPanic_map {f : α → β} : IsPanic (f <$> x) ↔ IsPanic x := by
  rcases x with (e | e) | a <;> rfl

@[simp] lemma isPanic_attempt : IsPanic (attempt x) ↔ IsPanic x := by
  rcases x with (e | e) | a <;> rfl

lemma attempt_returns_or_isPanic (x : Go α) : Returns (attempt x) ∨ IsPanic (attempt x) := by
  rcases x with (e | e) | a
  · exact .inl ⟨none,rfl⟩
  · exact .inr trivial
  · exact .inl ⟨some a,rfl⟩

lemma received_eq_none : received x = none ↔ IsPanic x := by
  rcases x with (e | e) | a <;> simp [received,IsPanic]

/-- The computation does not crash, and a result that it returns has the property. -/
def Ends (P : α → Prop) : Go α → Prop
  | .ok a => P a
  | .error (.error _) => True
  | .error (.panic _) => False

variable {P : α → Prop}
lemma ends_iff : Ends P x ↔ ¬ IsPanic x ∧ ∀ a, x = .ok a → P a := by
  rcases x with (e | e) | a <;> simp [Ends,IsPanic]

lemma ends_ok (h : P a) : Ends P (.ok a) := h

lemma ends_err : Ends P (err m : Go α) := trivial

lemma ends_ofExcept {x : Except String α} (h : ∀ a, x = .ok a → P a) : Ends P (ofExcept x) := by
  cases x with
  | error e => exact ends_err e
  | ok a => exact h a rfl

lemma Ends.mono {Q : α → Prop} (hx : Ends P x) (h : ∀ a, P a → Q a) : Ends Q x := by
  rw [ends_iff] at hx ⊢
  exact ⟨hx.1,fun a ha => h a (hx.2 a ha)⟩

lemma Ends.bind {Q : β → Prop} (hx : Ends P x)
    (hf : ∀ a, P a → Ends Q (f a)) : Ends Q (x >>= f) := by
  rcases x with (e | e) | a
  · trivial
  · exact hx
  · exact hf a hx

lemma not_isPanic_mapM (h : ∀ a ∈ l, ¬ IsPanic (f a)) : ¬ IsPanic (l.mapM f) := by
  induction l with
  | nil => simp
  | cons a l ih =>
    rw [mapM_cons,isPanic_bind]
    rintro (hp | ⟨b,_,hp⟩)
    · exact h a (by simp) hp
    · rw [isPanic_bind] at hp
      rcases hp with hp | ⟨bs,_,hp⟩
      · exact ih (fun a ha => h a (by simp [ha])) hp
      · exact not_isPanic_pure _ hp

lemma not_isPanic_foldlM {f : β → α → Go β} (h : ∀ b a, ¬ IsPanic (f b a)) (l : List α) (b : β) :
    ¬ IsPanic (l.foldlM f b) := by
  induction l generalizing b with
  | nil => simp
  | cons a l ih =>
    rw [foldlM_cons,isPanic_bind]
    rintro (hp | ⟨b',_,hp⟩)
    · exact h b a hp
    · exact ih b' hp

/-- A loop whose steps return or crash crashes exactly when one of them does. -/
lemma isPanic_mapM (h : ∀ a ∈ l, Returns (f a) ∨ IsPanic (f a)) :
    IsPanic (l.mapM f) ↔ ∃ a ∈ l, IsPanic (f a) := by
  constructor
  · intro hp
    by_contra hnone
    exact not_isPanic_mapM (fun a ha hpa => hnone ⟨a,ha,hpa⟩) hp
  · rintro ⟨a,ha,hpa⟩
    induction l with
    | nil => simp at ha
    | cons b l ih =>
      rw [mapM_cons,isPanic_bind]
      rcases h b (by simp) with ⟨r,hb⟩ | hb
      · rcases mem_cons.1 ha with rfl | hal
        · rw [hb] at hpa
          exact absurd hpa (not_isPanic_ok _)
        · exact .inr ⟨r,hb,isPanic_bind.2 (.inl (ih (fun c hc => h c (by simp [hc])) hal))⟩
      · exact .inl hb

variable {r : List β}
/-- A loop that returns has the result of each of its steps, and no others. -/
lemma mapM_ok {f : α → Except ε β} (h : l.mapM f = .ok r) :
    (∀ a ∈ l, ∃ b ∈ r, f a = .ok b) ∧ ∀ b ∈ r, ∃ a ∈ l, f a = .ok b := by
  induction l generalizing r with
  | nil =>
    cases Except.ok.inj h
    exact ⟨nofun,nofun⟩
  | cons a l ih =>
    simp only [mapM_cons,bind_ok_iff] at h
    obtain ⟨b,hb,bs,hbs,h⟩ := h
    cases Except.ok.inj h
    obtain ⟨hl,hr⟩ := ih hbs
    simp only [mem_cons,forall_eq_or_imp,exists_eq_or_imp]
    exact ⟨⟨.inl hb,fun c hc => .inr (hl c hc)⟩,.inl hb,fun c hc => .inr (hr c hc)⟩

/-- What can be read off each result is read off the input, in the same order. -/
lemma map_mapM_ok {γ : Type} {f : α → Except ε β} {g : β → γ} {k : α → γ}
    (hg : ∀ a b, f a = .ok b → g b = k a) (h : l.mapM f = .ok r) : r.map g = l.map k := by
  induction l generalizing r with
  | nil =>
    cases Except.ok.inj h
    rfl
  | cons a l ih =>
    simp only [mapM_cons,bind_ok_iff] at h
    obtain ⟨b,hb,bs,hbs,h⟩ := h
    cases Except.ok.inj h
    rw [map_cons,map_cons,hg a b hb,ih hbs]

lemma length_mapM_ok {f : α → Except ε β} (h : l.mapM f = .ok r) : r.length = l.length := by
  simpa using congrArg length (map_mapM_ok (g := fun _ => ()) (k := fun _ => ()) (fun _ _ _ => rfl) h)

/-- The order of a loop over independent steps changes the order of its results only. -/
lemma mapM_perm {f : α → Except ε β} {m : List α} (h : l.Perm m) (hr : l.mapM f = .ok r) :
    ∃ r', m.mapM f = .ok r' ∧ r.Perm r' := by
  induction h generalizing r with
  | nil => exact ⟨r,hr,.refl _⟩
  | cons a _ ih =>
    simp only [mapM_cons,bind_ok_iff] at hr
    obtain ⟨b,hb,bs,hbs,hr⟩ := hr
    obtain ⟨bs',hbs',hperm⟩ := ih hbs
    cases Except.ok.inj hr
    exact ⟨b :: bs',by rw [mapM_cons,hb,ok_bind,hbs']; rfl,hperm.cons b⟩
  | swap a b l =>
    simp only [mapM_cons,bind_ok_iff] at hr
    obtain ⟨x,hx,_,⟨y,hy,ys,hys,hrest⟩,hr⟩ := hr
    cases Except.ok.inj hrest
    cases Except.ok.inj hr
    exact ⟨y :: x :: ys,by rw [mapM_cons,mapM_cons,hy,ok_bind,hx,ok_bind,hys]; rfl,.swap y x ys⟩
  | trans _ _ ih₁ ih₂ =>
    obtain ⟨r₁,hr₁,hperm₁⟩ := ih₁ hr
    obtain ⟨r₂,hr₂,hperm₂⟩ := ih₂ hr₁
    exact ⟨r₂,hr₂,hperm₁.trans hperm₂⟩

/-- What every step of a loop keeps, the loop keeps. -/
lemma foldlM_invariant {P : β → Prop} {f : β → α → Except ε β} {r : β} (hb : P b)
    (keep : ∀ a ∈ l, ∀ b c, P b → f b a = .ok c → P c) (h : l.foldlM f b = .ok r) : P r := by
  induction l generalizing b with
  | nil => exact Except.ok.inj h ▸ hb
  | cons a l ih =>
    rw [foldlM_cons,bind_ok_iff] at h
    obtain ⟨c,hc,h⟩ := h
    exact ih (keep a (by simp) b c hb hc) (fun a ha => keep a (by simp [ha])) h

end Go

variable {ε α β : Type} {l : List α}
/-- A loop whose steps all return returns. -/
lemma mapM_returns {f : α → Except ε β} (h : ∀ a ∈ l, ∃ b, f a = .ok b) : ∃ bs, l.mapM f = .ok bs := by
  induction l with
  | nil => exact ⟨[],rfl⟩
  | cons a l ih =>
    obtain ⟨b,hb⟩ := h a (by simp)
    obtain ⟨bs,hbs⟩ := ih fun c hc => h c (by simp [hc])
    exact ⟨b :: bs,by rw [mapM_cons,hb,Go.ok_bind,hbs]; rfl⟩

/-- A loop over a state whose steps return from every state returns. -/
lemma foldlM_returns {f : β → α → Except ε β} (h : ∀ b a, ∃ c, f b a = .ok c) (l : List α) (b : β) :
    ∃ r, l.foldlM f b = .ok r := by
  induction l generalizing b with
  | nil => exact ⟨b,rfl⟩
  | cons a l ih =>
    obtain ⟨c,hc⟩ := h b a
    obtain ⟨r,hr⟩ := ih c
    exact ⟨r,by rw [foldlM_cons,hc,Go.ok_bind,hr]⟩

/-- A loop whose steps undo the preparation of its inputs. -/
lemma mapM_map_ok {γ : Type} {f : β → Except ε γ} {g : α → β} {k : α → γ}
    (h : ∀ a ∈ l, f (g a) = .ok (k a)) : (l.map g).mapM f = .ok (l.map k) := by
  induction l with
  | nil => rfl
  | cons a l ih =>
    rw [map_cons,mapM_cons,h a (by simp),ih fun b hb => h b (by simp [hb])]
    rfl

end DataStreams
