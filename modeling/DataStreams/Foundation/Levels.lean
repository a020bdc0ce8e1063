import Mathlib.Tactic.Common

/-! Decoding of nested values to a bounded depth, with a count of the layers opened. -/
namespace DataStreams
/-- What the outermost layer of an encoded value holds: a result, or an encoded value under a
tag. -/
inductive Layer (α β ε τ : Type)
  | leaf (result : Except ε β)
  | inside (tag : τ) (inner : α)

namespace Layer
variable {α β ε τ : Type} (layer : α → Layer α β ε τ) (wrap : τ → β → β) (tooDeep : ε)
def run : ℕ → α → Except ε β × ℕ
  | levels, x =>
    match layer x with
    | .leaf result => (result,0)
    | .inside tag inner =>
      match levels with
      | 0 => (.error tooDeep,1)
      | levels + 1 => ((run levels inner).1.map (wrap tag),(run levels inner).2 + 1)

def Nests : ℕ → α → Prop
  | 0,_ => True
  | levels + 1,x => ∃ tag inner, layer x = .inside tag inner ∧ Nests levels inner

variable {layer wrap tooDeep} {levels : ℕ} {x : α}
lemma run_leaf {result : Except ε β} (h : layer x = .leaf result) : run layer wrap tooDeep levels x = (result,0) := by
  cases levels <;> rw [run,h]

lemma run_inside_zero {tag : τ} {inner : α} (h : layer x = .inside tag inner) :
    run layer wrap tooDeep 0 x = (.error tooDeep,1) := by
  rw [run,h]

lemma run_inside_succ {tag : τ} {inner : α} (h : layer x = .inside tag inner) :
    run layer wrap tooDeep (levels + 1) x =
      ((run layer wrap tooDeep levels inner).1.map (wrap tag),(run layer wrap tooDeep levels inner).2 + 1) := by
  rw [run,h]

lemma eq_run (decode : ℕ → α → Except ε β) (hleaf : ∀ levels x result, layer x = .leaf result → decode levels x = result)
    (hzero : ∀ x tag inner, layer x = .inside tag inner → decode 0 x = .error tooDeep)
    (hsucc : ∀ levels x tag inner, layer x = .inside tag inner →
      decode (levels + 1) x = (decode levels inner).map (wrap tag)) (levels : ℕ) (x : α) :
    decode levels x = (run layer wrap tooDeep levels x).1 := by
  induction levels generalizing x with
  | zero =>
    cases h : layer x with
    | leaf result => rw [run_leaf h,hleaf 0 x result h]
    | inside tag inner => rw [run_inside_zero h,hzero x tag inner h]
  | succ levels ih =>
    cases h : layer x with
    | leaf result => rw [run_leaf h,hleaf _ x result h]
    | inside tag inner => rw [run_inside_succ h,hsucc levels x tag inner h,ih]

lemma run_opened_le (levels : ℕ) (x : α) : (run layer wrap tooDeep levels x).2 ≤ levels + 1 := by
  induction levels generalizing x with
  | zero =>
    cases h : layer x with
    | leaf result => simp [run_leaf h]
    | inside tag inner => simp [run_inside_zero h]
  | succ levels ih =>
    cases h : layer x with
    | leaf result => simp [run_leaf h]
    | inside tag inner =>
      rw [run_inside_succ h]
      exact Nat.succ_le_succ (ih inner)

/-- A value that nests deeper is refused when the first layer too many was opened. -/
lemma run_of_nests (h : Nests layer (levels + 1) x) : run layer wrap tooDeep levels x = (.error tooDeep,levels + 1) := by
  induction levels generalizing x with
  | zero =>
    obtain ⟨tag,inner,hx,-⟩ := h
    exact run_inside_zero hx
  | succ levels ih =>
    obtain ⟨tag,inner,hx,hinner⟩ := h
    rw [run_inside_succ hx,ih hinner]
    rfl

end Layer
end DataStreams
