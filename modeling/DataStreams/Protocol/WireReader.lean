import DataStreams.Protocol.WireFields

/-! Items are read one by one off the front of the bytes. -/
namespace DataStreams
open List Option

def readMany {α : Type} (item : Bytes → Option (α × Bytes)) : ℕ → Bytes → Option (List α)
  | _,[] => some []
  | 0,_ :: _ => none
  | fuel + 1,b :: buf => do
    let (a,rest) ← item (b :: buf)
    let l ← readMany item fuel rest
    some (a :: l)

/-- Items that are each read back from the front are read back together. -/
lemma readMany_flatMap {α : Type} {item : Bytes → Option (α × Bytes)} {encode : α → Bytes} {P : α → Prop}
    (hne : ∀ a, P a → encode a ≠ []) (hread : ∀ a rest, P a → item (encode a ++ rest) = some (a,rest))
    {l : List α} (hl : ∀ a ∈ l, P a) {fuel : ℕ} (hfuel : (l.flatMap encode).length ≤ fuel) :
    readMany item fuel (l.flatMap encode) = some l := by
  induction l generalizing fuel with
  | nil => cases fuel <;> rfl
  | cons a l ih =>
    have ha := hl a (by simp)
    obtain ⟨b,buf,hb⟩ := exists_cons_of_ne_nil (hne a ha)
    have hitem := hread a (l.flatMap encode) ha
    rw [hb,cons_append] at hitem
    rw [flatMap_cons,hb,cons_append] at hfuel ⊢
    cases fuel with
    | zero => simp at hfuel
    | succ fuel =>
      have hrest : (l.flatMap encode).length ≤ fuel := by
        simp only [length_cons,length_append] at hfuel
        omega
      simp [readMany,hitem,ih (fun c hc => hl c (by simp [hc])) hrest]

namespace WireField
def read (buf : Bytes) : Option (WireField × Bytes) := do
  let (key,n) ← uvarint buf
  let (v,m) ← uvarint (buf.drop n)
  let rest := (buf.drop n).drop m
  if key % 8 = 0 then some (varint (key / 8) v,rest)
  else if key % 8 = 2 ∧ v ≤ rest.length then some (bytes (key / 8) (rest.take v),rest.drop v)
  else none

def readAll (buf : Bytes) : Option (List WireField) := readMany read buf.length buf

lemma read_encode {a : WireField} (ha : a.InRange) (rest : Bytes) : read (a.encode ++ rest) = some (a,rest) := by
  cases a with
  | varint k n =>
    simp only [encode,read,append_assoc,uvarint_putUvarint ha.1,uvarint_putUvarint ha.2,drop_left,
      bind_eq_bind,bind_some]
    rw [if_pos (by omega),show 8 * k / 8 = k by omega]
  | bytes k b =>
    simp only [encode,read,append_assoc,uvarint_putUvarint ha.1,uvarint_putUvarint ha.2,drop_left,
      bind_eq_bind,bind_some]
    rw [if_neg (by omega),if_pos ⟨by omega,by simp⟩,take_left,show (8 * k + 2) / 8 = k by omega]

lemma readAll_flatMap {l : List WireField} (hl : ∀ a ∈ l, a.InRange) :
    readAll (l.flatMap encode) = some l :=
  readMany_flatMap (fun _ => encode_ne_nil) (fun _ rest ha => read_encode ha rest) hl le_rfl

end WireField

def packUvarints (ns : List ℕ) : Bytes := ns.flatMap putUvarint

def readUvarint (buf : Bytes) : Option (ℕ × Bytes) := (uvarint buf).map (fun r => (r.1,buf.drop r.2))

def unpackUvarints (buf : Bytes) : Option (List ℕ) := readMany readUvarint buf.length buf

lemma unpackUvarints_packUvarints {ns : List ℕ} (h : ∀ n ∈ ns, n < 2 ^ 64) :
    unpackUvarints (packUvarints ns) = some ns := by
  refine readMany_flatMap (fun _ => putUvarint_ne_nil) (fun n rest hn => ?_) h le_rfl
  rw [readUvarint,uvarint_putUvarint hn,map_some,drop_left]

end DataStreams
