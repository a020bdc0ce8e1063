import DataStreams.Foundation.BigEndian
import DataStreams.Protocol.Wire

/-! Votes on channels, as both plugin versions count them. -/
namespace DataStreams
abbrev VoteHash := ℕ

structure UpdateVote where
  channelID : ChannelID
  definition : ChannelDefinition
  votes : ℕ
  deriving DecidableEq

def beU32 (n : ℕ) : Bytes := (List.range 4).map (fun i => UInt8.ofNat (n / 256 ^ (3 - i)))

def beU64 (n : ℕ) : Bytes := (List.range 8).map (fun i => UInt8.ofNat (n / 256 ^ (7 - i)))

lemma beU32_eq_bigEndian (n : ℕ) : beU32 n = bigEndian 4 n := by
  simp [beU32,bigEndian,List.range_succ,Nat.div_div_eq_div_mul]

lemma beU64_eq_bigEndian (n : ℕ) : beU64 n = bigEndian 8 n := by
  simp [beU64,bigEndian,List.range_succ,Nat.div_div_eq_div_mul]

lemma ofBigEndian_beU32 {n : ℕ} (h : n < 2 ^ 32) : ofBigEndian (beU32 n) = n := by
  rw [beU32_eq_bigEndian,ofBigEndian_bigEndian]
  exact Nat.mod_eq_of_lt h

lemma ofBigEndian_beU64 {n : ℕ} (h : n < 2 ^ 64) : ofBigEndian (beU64 n) = n := by
  rw [beU64_eq_bigEndian,ofBigEndian_bigEndian]
  exact Nat.mod_eq_of_lt h

lemma beU32_inj {a b : ℕ} (ha : a < 2 ^ 32) (hb : b < 2 ^ 32) (h : beU32 a = beU32 b) : a = b := by
  rw [← ofBigEndian_beU32 ha,← ofBigEndian_beU32 hb,h]

lemma beU64_inj {a b : ℕ} (ha : a < 2 ^ 64) (hb : b < 2 ^ 64) (h : beU64 a = beU64 b) : a = b := by
  rw [← ofBigEndian_beU64 ha,← ofBigEndian_beU64 hb,h]

/-- Commits to every field of the definition. -/
def channelHashV2 (L : Libs) (id : ChannelID) (cd : ChannelDefinition) : VoteHash :=
  L.sha256 (marshalChannelIDAndDefinition id cd)

def countRemoval (votes : SortedMap ChannelID ℕ) (id : ChannelID) : SortedMap ChannelID ℕ :=
  votes.insert id ((votes.get? id).getD 0 + 1)

def countUpdate (hash : ChannelID → ChannelDefinition → VoteHash) (votes : SortedMap VoteHash UpdateVote)
    (e : DefinitionEntry) : SortedMap VoteHash UpdateVote :=
  votes.insert (hash e.1 e.2) ⟨e.1,e.2,(votes.get? (hash e.1 e.2)).elim 0 UpdateVote.votes + 1⟩

def voteOrder (a b : VoteHash × UpdateVote) : Prop :=
  a.2.channelID < b.2.channelID ∨ a.2.channelID = b.2.channelID ∧ a.1 ≤ b.1

instance : DecidableRel voteOrder := fun _ _ => inferInstanceAs (Decidable (_ ∨ _))

def updatesPast (updates : SortedMap VoteHash UpdateVote) (f : ℕ) : List UpdateVote :=
  ((updates.entries.insertionSort voteOrder).map Prod.snd).filter (fun v => v.votes > f)

end DataStreams
