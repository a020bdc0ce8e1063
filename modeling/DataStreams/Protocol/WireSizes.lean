import DataStreams.Protocol.StreamValueWire

/-! How many bytes numbers, fields and messages take. -/
namespace DataStreams
open List

variable {fuel k n : ℕ}
lemma length_putUvarintFrom_le (h : n < 128 ^ (k + 1)) : (putUvarintFrom fuel n).length ≤ k + 1 := by
  induction fuel generalizing k n with
  | zero => simp [putUvarintFrom]
  | succ fuel ih =>
    rw [putUvarintFrom]
    split_ifs with hn
    · simp
    cases k with
    | zero => exact absurd h (by simpa using hn)
    | succ k =>
      have hdiv : n / 128 < 128 ^ (k + 1) := Nat.div_lt_of_lt_mul (by rwa [← Nat.pow_succ'])
      exact Nat.succ_le_succ (ih hdiv)

/-- A number below `128 ^ (k + 1)` takes at most `k + 1` bytes. -/
lemma length_putUvarint_le (h : n < 128 ^ (k + 1)) : (putUvarint n).length ≤ k + 1 :=
  length_putUvarintFrom_le h

lemma length_putUvarintFrom_le_fuel : (putUvarintFrom fuel n).length ≤ fuel + 1 := by
  induction fuel generalizing n with
  | zero => simp [putUvarintFrom]
  | succ fuel ih =>
    rw [putUvarintFrom]
    split_ifs
    · simp
    · exact Nat.succ_le_succ ih

/-- No number takes more than ten bytes. -/
lemma length_putUvarint_le_ten (n : ℕ) : (putUvarint n).length ≤ 10 := length_putUvarintFrom_le_fuel

lemma length_flatMap_le {α : Type} {f : α → Bytes} {l : List α} {bound : ℕ} (h : ∀ a ∈ l, (f a).length ≤ bound) :
    (l.flatMap f).length ≤ l.length * bound := by
  rw [length_flatMap]
  refine (sum_le_card_nsmul _ bound ?_).trans_eq (by simp)
  intro x hx
  obtain ⟨a,ha,rfl⟩ := mem_map.1 hx
  exact h a ha

lemma length_packUvarints_le (ns : List ℕ) : (packUvarints ns).length ≤ ns.length * 10 :=
  length_flatMap_le fun n _ => length_putUvarint_le_ten n

variable {field : ℕ}
/-- Every message here has field numbers below sixteen, so tags take one byte. -/
lemma length_tag (hf : field < 16) {wireType : ℕ} (hw : wireType < 8) :
    (putUvarint (8 * field + wireType)).length ≤ 1 :=
  length_putUvarint_le (by omega)

lemma length_protoVarint_le_eleven (hf : field < 16) : (protoVarint field n).length ≤ 11 := by
  rw [protoVarint]
  split_ifs
  · simp
  · have htag : (putUvarint (8 * field + 0)).length ≤ 1 := length_tag hf (by decide)
    have hn := length_putUvarint_le_ten n
    rw [Nat.add_zero] at htag
    rw [length_append]
    omega

variable {b : Bytes}
lemma length_protoBytes_le (hf : field < 16) (h : b.length < 128 ^ (k + 1)) :
    (protoBytes field b).length ≤ b.length + (k + 2) := by
  have htag := length_tag hf (show 2 < 8 by decide)
  have hn := length_putUvarint_le h
  rw [protoBytes,length_append,length_append]
  omega

lemma length_protoBytes_le_eleven (hf : field < 16) : (protoBytes field b).length ≤ b.length + 11 := by
  have htag := length_tag hf (show 2 < 8 by decide)
  have hn := length_putUvarint_le_ten b.length
  rw [protoBytes,length_append,length_append]
  omega

lemma length_protoOptionalBytes_le_eleven (hf : field < 16) :
    (protoOptionalBytes field b).length ≤ b.length + 11 := by
  rw [protoOptionalBytes]
  split_ifs
  · simp
  · exact length_protoBytes_le_eleven hf

lemma length_protoOptionalBytes_le (hf : field < 16) (h : b.length < 128 ^ (k + 1)) :
    (protoOptionalBytes field b).length ≤ b.length + (k + 2) := by
  rw [protoOptionalBytes]
  split_ifs
  · simp
  · exact length_protoBytes_le hf h

lemma length_marshalStreamValue_le (v : StreamValueProto) : (marshalStreamValue v).length ≤ v.value.length + 22 := by
  have htype := length_protoVarint_le_eleven (n := v.type.code) (show 1 < 16 by decide)
  have hvalue := length_protoOptionalBytes_le_eleven (b := v.value) (show 2 < 16 by decide)
  rw [marshalStreamValue,length_append]
  omega

lemma length_marshalTimestamped_le (t : ℕ) (v : StreamValueProto) :
    (marshalTimestamped t v).length ≤ v.value.length + 44 := by
  have hobserved := length_protoVarint_le_eleven (n := t) (show 1 < 16 by decide)
  have hbody := length_protoBytes_le_eleven (b := marshalStreamValue v) (show 2 < 16 by decide)
  have hvalue := length_marshalStreamValue_le v
  rw [marshalTimestamped,length_append]
  omega

lemma length_marshalQuote_le {bid benchmark ask : Bytes} (hbid : bid.length ≤ n) (hbenchmark : benchmark.length ≤ n)
    (hask : ask.length ≤ n) : (marshalQuote bid benchmark ask).length ≤ 3 * (n + 11) := by
  have h₁ := length_protoOptionalBytes_le_eleven (b := bid) (show 1 < 16 by decide)
  have h₂ := length_protoOptionalBytes_le_eleven (b := benchmark) (show 2 < 16 by decide)
  have h₃ := length_protoOptionalBytes_le_eleven (b := ask) (show 3 < 16 by decide)
  rw [marshalQuote,length_append,length_append]
  omega

end DataStreams
