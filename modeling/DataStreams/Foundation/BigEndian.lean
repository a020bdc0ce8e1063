import Mathlib.Algebra.Order.Ring.Int
import Mathlib.Data.List.Induction
import Mathlib.Tactic.Ring
import Mathlib.Tactic.Zify

/-! Natural numbers as byte lists of a fixed width, the most significant byte first. -/
namespace DataStreams
open List Int Nat UInt8

def bigEndian : ℕ → ℕ → List UInt8
  | 0,_ => []
  | k + 1,n => bigEndian k (n / 256) ++ [UInt8.ofNat n]

variable (bs : List UInt8)
def ofBigEndian : ℕ := bs.foldl (fun n b => 256 * n + b.toNat) 0

@[simp] lemma length_bigEndian (k n : ℕ) : (bigEndian k n).length = k := by
  induction k generalizing n with
  | zero => rfl
  | succ k ih => simp [bigEndian,ih]

lemma ofBigEndian_append_singleton (b : UInt8) : ofBigEndian (bs ++ [b]) = 256 * ofBigEndian bs + b.toNat := by
  simp [ofBigEndian]

/-- What is read back is the number, reduced to the width. -/
lemma ofBigEndian_bigEndian (k n : ℕ) : ofBigEndian (bigEndian k n) = n % 256 ^ k := by
  induction k generalizing n with
  | zero => simp [bigEndian,ofBigEndian,mod_one]
  | succ k ih =>
    have hpow : 256 ^ (k + 1) = 256 * 256 ^ k := Nat.pow_succ'
    rw [bigEndian,ofBigEndian_append_singleton,ih,toNat_ofNat',hpow,mod_mul]
    omega

/-- A number of `j + k` bytes is its high bytes and its low bytes. -/
lemma bigEndian_add (j k a : ℕ) {b : ℕ} (hb : b < 256 ^ k) :
    bigEndian (j + k) (a * 256 ^ k + b) = bigEndian j a ++ bigEndian k b := by
  induction k generalizing b with
  | zero =>
    have hzero : b = 0 := by simpa using hb
    simp [hzero,bigEndian]
  | succ k ih =>
    have hpow : 256 ^ (k + 1) = 256 * 256 ^ k := Nat.pow_succ'
    have hscaled : a * 256 ^ (k + 1) = 256 * (a * 256 ^ k) := by rw [hpow,Nat.mul_left_comm]
    have hdiv : (a * 256 ^ (k + 1) + b) / 256 = a * 256 ^ k + b / 256 := by omega
    have hbyte : UInt8.ofNat (a * 256 ^ (k + 1) + b) = UInt8.ofNat b := by
      apply UInt8.toNat_inj.1
      rw [toNat_ofNat',toNat_ofNat']
      omega
    rw [← Nat.add_assoc,bigEndian,hdiv,hbyte,ih (by omega),bigEndian,append_assoc]

lemma bigEndian_zero (k : ℕ) : bigEndian k 0 = List.replicate k 0 := by
  induction k with
  | zero => rfl
  | succ k ih => rw [bigEndian,Nat.zero_div,ih,replicate_succ']; rfl

lemma bigEndian_pred_pow (k : ℕ) : bigEndian k (256 ^ k - 1) = List.replicate k 255 := by
  induction k with
  | zero => rfl
  | succ k ih =>
    have hpow : 256 ^ (k + 1) = 256 * 256 ^ k := Nat.pow_succ'
    have hpos : 0 < 256 ^ k := Nat.pow_pos (by decide)
    have hdiv : (256 ^ (k + 1) - 1) / 256 = 256 ^ k - 1 := by omega
    have hbyte : UInt8.ofNat (256 ^ (k + 1) - 1) = 255 := by
      apply UInt8.toNat_inj.1
      rw [toNat_ofNat']
      change (256 ^ (k + 1) - 1) % 2 ^ 8 = 255
      omega
    rw [bigEndian,hdiv,hbyte,ih,replicate_succ']

/-- An integer in `k` bytes, modulo their range. -/
def twosComplement (k : ℕ) (v : ℤ) : List UInt8 := bigEndian k (v % 256 ^ k).toNat

/-- An integer that fits is extended by bytes that repeat its sign. -/
lemma twosComplement_extend (j k : ℕ) {v : ℤ} (hlo : -256 ^ k ≤ v) (hhi : v < 256 ^ k) :
    List.replicate j (if v < 0 then 255 else 0) ++ twosComplement k v = twosComplement (j + k) v := by
  have hk : (0 : ℤ) < 256 ^ k := Int.pow_pos (by decide)
  have hj : (0 : ℤ) < 256 ^ j := Int.pow_pos (by decide)
  have hpow : (256 : ℤ) ^ (j + k) = 256 ^ j * 256 ^ k := Int.pow_add 256 j k
  have hle : (256 : ℤ) ^ k ≤ 256 ^ (j + k) := by
    rw [hpow]
    exact le_mul_of_one_le_left hk.le hj
  split_ifs with hneg
  · have hlow : v % 256 ^ k = v + 256 ^ k := by
      rw [← add_emod_right,emod_eq_of_lt (by omega) (by omega)]
    have hall : v % 256 ^ (j + k) = v + 256 ^ (j + k) := by
      rw [← add_emod_right,emod_eq_of_lt (by omega) (by omega)]
    have hsum : (v + 256 ^ (j + k)).toNat = (256 ^ j - 1) * 256 ^ k + (v + 256 ^ k).toNat := by
      have hcast : (((256 ^ j - 1 : ℕ) : ℤ)) = 256 ^ j - 1 := by
        rw [cast_sub (Nat.pow_pos (by decide))]
        norm_num
      zify
      rw [toNat_of_nonneg (by omega),toNat_of_nonneg (by omega),hcast,hpow]
      ring
    have hlt : (v + 256 ^ k).toNat < 256 ^ k := by
      zify
      rw [toNat_of_nonneg (by omega)]
      omega
    rw [twosComplement,twosComplement,hlow,hall,hsum,bigEndian_add j k _ hlt,bigEndian_pred_pow]
  · have hlow : v % 256 ^ k = v := emod_eq_of_lt (by omega) hhi
    have hall : v % 256 ^ (j + k) = v := emod_eq_of_lt (by omega) (by omega)
    have hlt : v.toNat < 256 ^ k := by
      zify
      rw [toNat_of_nonneg (by omega)]
      exact hhi
    have hadd := bigEndian_add j k 0 hlt
    rw [Nat.zero_mul,Nat.zero_add,bigEndian_zero] at hadd
    rw [twosComplement,twosComplement,hlow,hall,hadd]

variable {α β : Type*} {f : α → List β} {c : ℕ}
/-- Records of width `c` are cut off by position. -/
lemma drop_flatMap_of_length (h : ∀ a, (f a).length = c) (l : List α) (i : ℕ) :
    (l.flatMap f).drop (c * i) = (l.drop i).flatMap f := by
  induction l generalizing i with
  | nil => simp
  | cons a l ih =>
    cases i with
    | zero => simp
    | succ i =>
      rw [flatMap_cons,drop_append,h,drop_eq_nil_of_le (by rw [h,mul_succ]; omega),nil_append,
        drop_succ_cons,← ih,mul_succ,Nat.add_sub_cancel]

lemma length_flatMap_of_length (h : ∀ a, (f a).length = c) (l : List α) :
    (l.flatMap f).length = c * l.length := by
  induction l with
  | nil => simp
  | cons a l ih => rw [flatMap_cons,length_append,h,ih,length_cons,mul_succ,Nat.add_comm]

def wordAt (i : ℕ) : ℕ := ofBigEndian ((bs.drop (32 * i)).take 32)

def packWords (ns : List ℕ) : List UInt8 := ns.flatMap (bigEndian 32)

/-- A packed word is read back at its position, whatever follows the words. -/
lemma wordAt_packWords {ns : List ℕ} {i n : ℕ} (h : ns[i]? = some n) (rest : List UInt8) :
    wordAt (packWords ns ++ rest) i = n % 256 ^ 32 := by
  obtain ⟨hi,rfl⟩ := List.getElem?_eq_some_iff.1 h
  have hlength := length_flatMap_of_length (length_bigEndian 32) ns
  have hdrop := drop_flatMap_of_length (length_bigEndian 32) ns i
  rw [drop_eq_getElem_cons hi,flatMap_cons] at hdrop
  rw [wordAt,packWords,drop_append_of_le_length (by omega),hdrop,append_assoc,
    take_left' (length_bigEndian 32 _),ofBigEndian_bigEndian]

end DataStreams
