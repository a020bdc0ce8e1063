import DataStreams.Foundation.Rank
import DataStreams.Protocol.CanonicalValues

/-! The mode is the number most contributions of the most common type agree on, whatever their
scale. -/
namespace DataStreams
open List Go StreamValue SortedMap

structure IsMostCommon (values : List StreamValue) (ty : StreamValueType) : Prop where
  inhabited : ∃ v : StreamValue, v.type = ty
  best : ∀ w : StreamValue, values.countP (fun v => v.type = w.type) < values.countP (fun v => v.type = ty) ∨
    values.countP (fun v => v.type = w.type) = values.countP (fun v => v.type = ty) ∧ ty.code ≤ w.type.code

variable {v : StreamValue}
lemma code_injective {w : StreamValue} (h : v.type.code = w.type.code) : v.type = w.type := by
  rw [← ofCode_type v,h,ofCode_type]

variable {values : List StreamValue}
lemma IsMostCommon.unique {a b : StreamValueType} (ha : IsMostCommon values a)
    (hb : IsMostCommon values b) : a = b := by
  obtain ⟨v,rfl⟩ := ha.inhabited
  obtain ⟨w,rfl⟩ := hb.inhabited
  apply code_injective
  have hvw := ha.best w
  have hwv := hb.best v
  omega

lemma IsMostCommon.perm {values' : List StreamValue} {ty : StreamValueType} (h : IsMostCommon values ty)
    (hperm : values.Perm values') : IsMostCommon values' ty := by
  refine ⟨h.inhabited,?_⟩
  intro w
  rw [← hperm.countP_eq,← hperm.countP_eq]
  exact h.best w

variable {b : TypeBuckets}
lemma TypeBuckets.Holds.length_bucket (h : b.Holds values)
    (ty : StreamValueType) : (b.buckets ty).length = values.countP (fun v => v.type = ty) := by
  rw [h.buckets,countP_eq_length_filter]

lemma TypeBuckets.Holds.isMostCommon_add (h : b.Holds values)
    (hbest : IsMostCommon values b.mostCommon) (value : Option StreamValue) :
    IsMostCommon (values ++ value.toList) (b.add value).mostCommon := by
  cases value with
  | none => simpa [TypeBuckets.add] using hbest
  | some v =>
    have hcount : ∀ ty, (values ++ [v]).countP (fun u => u.type = ty) =
        values.countP (fun u => u.type = ty) + if v.type = ty then 1 else 0 := by
      intro ty
      rw [countP_append,countP_singleton]
      simp only [decide_eq_true_eq]
    have hlen : b.largest.length = values.countP (fun u => u.type = b.mostCommon) := by
      rw [h.largest,h.length_bucket]
    have hbucket := h.length_bucket v.type
    simp only [Option.toList_some,TypeBuckets.add,length_append,length_singleton,hbucket,hlen]
    split_ifs with hlarger
    · refine ⟨⟨v,rfl⟩,?_⟩
      intro w
      have hw := hbest.best w
      dsimp only
      rw [hcount,hcount,if_pos rfl]
      split_ifs with hsame
      · rw [hsame]
        right
        exact ⟨rfl,le_rfl⟩
      · omega
    · refine ⟨hbest.inhabited,?_⟩
      intro w
      have hw := hbest.best w
      have hv := hbest.best v
      dsimp only
      rw [hcount,hcount]
      by_cases hmost : v.type = b.mostCommon
      · rw [hmost] at hlarger
        omega
      · rw [if_neg hmost]
        split_ifs with hsame
        · rw [← hsame]
          omega
        · omega

lemma isMostCommon_foldl_add {seen : List StreamValue} (h : b.Holds seen)
    (hbest : IsMostCommon seen b.mostCommon) (values : List (Option StreamValue)) :
    IsMostCommon (seen ++ values.filterMap id) (values.foldl TypeBuckets.add b).mostCommon := by
  induction values generalizing b seen with
  | nil => simpa using hbest
  | cons v values ih =>
    have hstep := ih (h.add v) (h.isMostCommon_add hbest v)
    cases v with
    | none => simpa using hstep
    | some v => simpa using hstep

lemma isMostCommon_mostCommonType (values : List (Option StreamValue)) :
    IsMostCommon (values.filterMap id) (mostCommonType values).1 := by
  have hstart : TypeBuckets.Holds ⟨fun _ => [],.decimal,[]⟩ [] := ⟨fun _ => rfl,rfl⟩
  have hbest : IsMostCommon [] .decimal := by
    refine ⟨⟨.decimal ⟨0,0⟩,rfl⟩,?_⟩
    intro w
    right
    exact ⟨rfl,Nat.zero_le _⟩
  exact isMostCommon_foldl_add hstart hbest values

/-- The encoding a value votes for and the timestamp it votes with. -/
def modeBallot (decimal : DecimalEncoder) (v : StreamValue) : Except String (Bytes × ℕ) := do
  let b ← (canonicalModeValue v).1.marshalBinary decimal
  .ok (b,v.observedAt)

namespace ModeVotes
def key (b : Bytes) : ModeKey := b.map UInt8.toNat

lemma key_injective : Function.Injective key :=
  map_injective_iff.2 fun _ _ h => UInt8.toNat_inj.1 h

def record (votes : ModeVotes) (ballot : Bytes × ℕ) : ModeVotes :=
  votes.insert (key ballot.1) (ballot.1,((votes.get? (key ballot.1)).elim [] Prod.snd) ++ [ballot.2])

/-- The values are encoded first and counted then. -/
lemma foldlM_cast (decimal : DecimalEncoder) (bucket : List StreamValue) (votes : ModeVotes) :
    bucket.foldlM (cast decimal) votes = (do .ok ((← bucket.mapM (modeBallot decimal)).foldl record votes)) := by
  induction bucket generalizing votes with
  | nil => rfl
  | cons v bucket ih =>
    have hcast : cast decimal votes v = (do .ok (votes.record (← modeBallot decimal v))) := by
      rw [cast,modeBallot,← canonicalModeValue_snd]
      obtain ⟨c,t⟩ := canonicalModeValue v
      dsimp only
      cases c.marshalBinary decimal <;> rfl
    rw [foldlM_cons,mapM_cons,hcast]
    cases modeBallot decimal v with
    | error e => rfl
    | ok ballot =>
      simp only [ok_bind]
      rw [ih]
      cases bucket.mapM (modeBallot decimal) <;> rfl

/-- The timestamps of the ballots for an encoding. -/
def stamps (ballots : List (Bytes × ℕ)) (b : Bytes) : List ℕ := (ballots.filter (fun e => e.1 = b)).map Prod.snd

lemma stamps_append (ballots : List (Bytes × ℕ)) (ballot : Bytes × ℕ) (b : Bytes) :
    stamps (ballots ++ [ballot]) b = stamps ballots b ++ if ballot.1 = b then [ballot.2] else [] := by
  rw [stamps,filter_append,map_append]
  by_cases h : ballot.1 = b
  · simp [stamps,h]
  · simp [stamps,h]

/-- The map holds the encodings with ballots, each with the timestamps of its ballots. -/
lemma get?_foldl_record (ballots : List (Bytes × ℕ)) (b : Bytes) :
    (ballots.foldl record ∅).get? (key b) = if stamps ballots b = [] then none else some (b,stamps ballots b) := by
  induction ballots using List.reverseRecOn generalizing b with
  | nil => simp [stamps]
  | append_singleton ballots ballot ih =>
    rw [foldl_append,foldl_cons,foldl_nil,record,stamps_append]
    by_cases hb : ballot.1 = b
    · subst hb
      have hne : stamps ballots ballot.1 ++ [ballot.2] ≠ [] := append_ne_nil_of_right_ne_nil _ (cons_ne_nil _ _)
      have hseen : ((ballots.foldl record ∅).get? (key ballot.1)).elim [] Prod.snd = stamps ballots ballot.1 := by
        rw [ih]
        split_ifs with hnil
        · exact hnil.symm
        · rfl
      rw [get?_insert_self,hseen,if_pos rfl,if_neg hne]
    · rw [get?_insert_of_ne _ _ (fun h => hb (key_injective h).symm),ih,if_neg hb,append_nil]

variable {ballots : List (Bytes × ℕ)} {e : ModeKey × Bytes × List ℕ}
lemma exists_key_of_mem (h : e ∈ (ballots.foldl record ∅).entries) : e.1 = key e.2.1 := by
  induction ballots using List.reverseRecOn generalizing e with
  | nil => exact absurd h not_mem_nil
  | append_singleton ballots ballot ih =>
    rw [foldl_append,foldl_cons,foldl_nil,record,mem_entries_insert] at h
    rcases h with rfl | ⟨hmem,_⟩
    · rfl
    · exact ih hmem

/-- The entries, read by encoding. -/
lemma mem_entries_foldl_record :
    e ∈ (ballots.foldl record ∅).entries ↔ e.1 = key e.2.1 ∧ e.2.2 = stamps ballots e.2.1 ∧ e.2.2 ≠ [] := by
  obtain ⟨k,b,ts⟩ := e
  dsimp only
  constructor
  · intro h
    obtain rfl : k = key b := exists_key_of_mem h
    have hget := get?_eq_some_iff.2 h
    rw [get?_foldl_record] at hget
    split_ifs at hget with hne
    cases hget
    exact ⟨rfl,rfl,hne⟩
  · rintro ⟨rfl,rfl,hne⟩
    rw [← get?_eq_some_iff,get?_foldl_record,if_neg hne]

/-- No entry has more votes; one with as many has no lower key. -/
structure Wins (entries : List (ModeKey × Bytes × List ℕ)) (r : Bytes × List ℕ) : Prop where
  most : ∀ e ∈ entries, e.2.2.length ≤ r.2.length
  lowest : 0 < r.2.length → ∃ k, (k,r) ∈ entries ∧ ∀ e ∈ entries, e.2.2.length = r.2.length → k ≤ e.1

/-- The loop over the sorted encodings finds the lowest one with the most ballots. -/
lemma wins_foldl {entries : List (ModeKey × Bytes × List ℕ)} (hsorted : entries.Pairwise (fun a b => a.1 < b.1)) :
    Wins entries (entries.foldl (fun best e => if e.2.2.length > best.2.length then e.2 else best) ([],[])) := by
  -- by induction from the end: the last entry has the highest key, so a tie leaves the winner
  induction entries using List.reverseRecOn with
  | nil => exact ⟨fun e he => absurd he not_mem_nil,fun h => absurd h (Nat.lt_irrefl 0)⟩
  | append_singleton entries last ih =>
    obtain ⟨hrest,_,hlast⟩ := pairwise_append.1 hsorted
    have hwins := ih hrest
    rw [foldl_append,foldl_cons,foldl_nil]
    generalize entries.foldl _ _ = best at hwins ⊢
    split_ifs with hmore
    · refine ⟨?_,?_⟩
      · intro e he
        rcases mem_append.1 he with he | he
        · exact (hwins.most e he).trans hmore.le
        · rw [mem_singleton.1 he]
      · intro _
        refine ⟨last.1,by simp,?_⟩
        intro e he heq
        rcases mem_append.1 he with he | he
        · exact absurd heq (Nat.ne_of_lt ((hwins.most e he).trans_lt hmore))
        · rw [mem_singleton.1 he]
    · refine ⟨?_,?_⟩
      · intro e he
        rcases mem_append.1 he with he | he
        · exact hwins.most e he
        · rw [mem_singleton.1 he]
          exact not_lt.1 hmore
      · intro hpos
        obtain ⟨k,hk,hlow⟩ := hwins.lowest hpos
        refine ⟨k,mem_append_left _ hk,?_⟩
        intro e he heq
        rcases mem_append.1 he with he | he
        · exact hlow e he heq
        · rw [mem_singleton.1 he]
          exact (hlast (k,best) hk last mem_cons_self).le

lemma wins_winner (votes : ModeVotes) : Wins votes.entries votes.winner := wins_foldl votes.sorted

/-- The encoding with the most ballots, and the lowest of them. -/
lemma winner_foldl_record (ballots : List (Bytes × ℕ)) :
    let r := ModeVotes.winner (ballots.foldl record ∅)
    (∀ b, (stamps ballots b).length ≤ r.2.length) ∧
      (r.2 ≠ [] → r.2 = stamps ballots r.1 ∧ ∀ b, (stamps ballots b).length = r.2.length → key r.1 ≤ key b) := by
  intro r
  have hwins : Wins (ballots.foldl record ∅).entries r := wins_winner _
  have hentry : ∀ b, stamps ballots b ≠ [] → (key b,b,stamps ballots b) ∈ (ballots.foldl record ∅).entries := by
    intro b hb
    exact mem_entries_foldl_record.2 ⟨rfl,rfl,hb⟩
  constructor
  · intro b
    by_cases hb : stamps ballots b = []
    · rw [hb]
      exact Nat.zero_le _
    · exact hwins.most _ (hentry b hb)
  · intro hne
    obtain ⟨k,hk,hlow⟩ := hwins.lowest (length_pos_iff.2 hne)
    obtain ⟨hkey,hstamps,_⟩ := mem_entries_foldl_record.1 hk
    refine ⟨hstamps,?_⟩
    intro b hb
    have hbne : stamps ballots b ≠ [] := by
      intro hnil
      rw [hnil] at hb
      exact hne (length_eq_zero_iff.1 hb.symm)
    have hle := hlow _ (hentry b hbne) hb
    exact hkey ▸ hle

end ModeVotes

def contributionsOf (values : List (Option StreamValue)) (ty : StreamValueType) : List StreamValue :=
  (values.filterMap id).filter (fun v => v.type = ty)

/-- The contributions that are the same number, of the same type. -/
def agreeing (values : List (Option StreamValue)) (v : StreamValue) : List StreamValue :=
  (contributionsOf values v.type).filter (fun w => w.SameNumber v)

/-- A value that arrived in a peer's observation, with a shape the mode decides on by number. -/
structure Contributed (W : WireLibs) (v : StreamValue) : Prop where
  decoded : ∃ enc, unmarshalObservedProtoStreamValue W enc = .ok v
  shape : v.atMostStamped = true

variable {W : WireLibs} {decimal : DecimalEncoder} {w : StreamValue}
lemma Contributed.decodable (h : Contributed W v) (hW : W.ReadsValues decimal) : v.Decodable := by
  obtain ⟨enc,henc⟩ := h.decoded
  rw [unmarshalObservedProtoStreamValue,bind_ok_iff] at henc
  obtain ⟨v',hv,henc⟩ := henc
  obtain ⟨_,_,⟨⟩⟩ := bind_ok_iff.1 henc
  exact decodable_of_unmarshalProtoStreamValue hW hv

lemma Contributed.observed (h : Contributed W v) : checkObservedStreamValue v = .ok () := by
  obtain ⟨enc,henc⟩ := h.decoded
  rw [unmarshalObservedProtoStreamValue,bind_ok_iff] at henc
  obtain ⟨v',_,henc⟩ := henc
  obtain ⟨_,hcheck,⟨⟩⟩ := bind_ok_iff.1 henc
  exact hcheck

/-- The bytes a contribution votes for: they are read back, and shared by the same numbers only. -/
structure VotesFor (W : WireLibs) (decimal : DecimalEncoder) (v : StreamValue) (b : Bytes) : Prop where
  encoded : (canonicalModeValue v).1.marshalBinary decimal = .ok b
  ne_nil : b ≠ []
  readBack : unmarshalProtoStreamValue W (some ⟨(canonicalModeValue v).1.type,b⟩) = .ok (canonicalModeValue v).1

lemma Contributed.exists_ballot (h : Contributed W v) (hW : W.ReadsValues decimal) (hD : WritesDecimals decimal) :
    ∃ b, VotesFor W decimal v b := by
  have hv := h.decodable hW
  have hrange := inRange_canonicalModeValue hv.inRange
  obtain ⟨b,hb,hne,hlen⟩ := marshalBinary_returns hD hrange (checkObservedStreamValue_canonicalModeValue h.observed)
  have hnest : (canonicalModeValue v).1.nesting ≤ maxStreamValueNesting :=
    (nesting_canonicalModeValue v).trans_le hv.nesting_le
  have hsmall : b.length < 2 ^ 64 := by
    have hmax : maxStreamValueNesting ≤ 100 := by decide
    omega
  exact ⟨b,hb,hne,unmarshalNested_marshalBinary hW hrange hnest hb hsmall⟩

lemma type_canonicalModeValue (v : StreamValue) : (canonicalModeValue v).1.type = v.type :=
  (sameNumber_canonicalModeValue v).type_eq

lemma VotesFor.eq_iff {b c : Bytes} (hb : VotesFor W decimal v b) (hc : VotesFor W decimal w c)
    (hv : Contributed W v) (hw : Contributed W w) (hW : W.ReadsValues decimal) (htype : v.type = w.type) :
    b = c ↔ v.SameNumber w := by
  rw [← canonicalModeValue_eq_iff hv.shape hw.shape (hv.decodable hW).inRange (hw.decodable hW).inRange]
  constructor
  · rintro rfl
    have hread := hb.readBack
    rw [type_canonicalModeValue,htype,← type_canonicalModeValue w,hc.readBack] at hread
    exact (Except.ok.inj hread).symm
  · intro heq
    have henc := hb.encoded
    rw [heq,hc.encoded] at henc
    exact (Except.ok.inj henc).symm

def modeOfBallots (S : SliceSort) (W : WireLibs) (type : StreamValueType) (ballots : List (Bytes × ℕ))
    (minContributions : ℕ) : Go (Option StreamValue) :=
  let r := ModeVotes.winner (ballots.foldl ModeVotes.record ∅)
  if r.2.length < minContributions then
    Go.err s!"not enough contributions in agreement to calculate mode: most common value had {r.2.length}, need {minContributions}"
  else if r.1 = [] then .ok none
  else do
    match ← Go.ofExcept (unmarshalProtoStreamValue W (some ⟨type,r.1⟩)) with
    | .timestamped _ v => do
      let t ← Go.index (S.sort (fun a b => a < b) r.2) (r.2.length / 2)
      .ok (some (.timestamped t v))
    | v => .ok (some v)

lemma modeAggregator_eq (S : SliceSort) (W : WireLibs) (decimal : DecimalEncoder)
    (values : List (Option StreamValue)) (minContributions : ℕ) :
    modeAggregator S W decimal values minContributions = (do
      let ballots ← Go.ofExcept ((mostCommonType values).2.mapM (modeBallot decimal))
      modeOfBallots S W (mostCommonType values).1 ballots minContributions) := by
  unfold modeAggregator
  obtain ⟨type,bucket⟩ := mostCommonType values
  dsimp only
  rw [ModeVotes.foldlM_cast]
  cases bucket.mapM (modeBallot decimal) <;> rfl

variable {values : List (Option StreamValue)} {minContributions : ℕ}
variable {ty : StreamValueType}
lemma mem_contributionsOf : v ∈ contributionsOf values ty ↔ some v ∈ values ∧ v.type = ty := by
  simp [contributionsOf]

lemma mostCommonType_snd_eq (values : List (Option StreamValue)) :
    (mostCommonType values).2 = contributionsOf values (mostCommonType values).1 :=
  mostCommonType_snd values

lemma agreeing_congr (h : v.SameNumber w) : agreeing values v = agreeing values w := by
  rw [agreeing,agreeing,h.type_eq]
  apply filter_congr
  intro u _
  exact decide_eq_decide.2 ⟨fun hu => hu.trans h,fun hu => hu.trans h.symm⟩

/-- Every contribution of the most common type casts one ballot, and a ballot has as many votes
as contributions agree with it. -/
lemma exists_ballots (hW : W.ReadsValues decimal) (hD : WritesDecimals decimal) {bucket : List StreamValue}
    (hbucket : bucket = contributionsOf values ty) (hall : ∀ v ∈ bucket, Contributed W v) :
    ∃ ballots, bucket.mapM (modeBallot decimal) = .ok ballots ∧
      (∀ v ∈ bucket, ∃ b, VotesFor W decimal v b ∧ ModeVotes.stamps ballots b = (agreeing values v).map observedAt) ∧
      ∀ b, ModeVotes.stamps ballots b ≠ [] → ∃ v ∈ bucket, VotesFor W decimal v b := by
  choose! encode hencode using fun v (hv : v ∈ bucket) => (hall v hv).exists_ballot hW hD
  have hballots : bucket.mapM (modeBallot decimal) = .ok (bucket.map fun v => (encode v,v.observedAt)) := by
    have hsteps := @mapM_map_ok _ _ _ bucket _ (modeBallot decimal) id (fun v => (encode v,v.observedAt)) (by
      intro v hv
      rw [id,modeBallot,(hencode v hv).encoded]
      rfl)
    rwa [map_id] at hsteps
  have hstamps : ∀ b, ModeVotes.stamps (bucket.map fun v => (encode v,v.observedAt)) b =
      (bucket.filter (fun w => encode w = b)).map observedAt := by
    intro b
    rw [ModeVotes.stamps,filter_map,map_map]
    rfl
  refine ⟨_,hballots,?_,?_⟩
  · intro v hv
    refine ⟨encode v,hencode v hv,?_⟩
    have htype : v.type = ty := (mem_contributionsOf.1 (hbucket ▸ hv)).2
    rw [hstamps,agreeing,htype,← hbucket]
    congr 1
    apply filter_congr
    intro w hw
    have hwtype : w.type = ty := (mem_contributionsOf.1 (hbucket ▸ hw)).2
    exact decide_eq_decide.2 ((hencode w hw).eq_iff (hencode v hv) (hall w hw) (hall v hv) hW (hwtype.trans htype.symm))
  · intro b hb
    rw [hstamps,Ne,map_eq_nil_iff,filter_eq_nil_iff] at hb
    push Not at hb
    obtain ⟨v,hv,heq⟩ := hb
    rw [decide_eq_true_eq] at heq
    exact ⟨v,hv,heq ▸ hencode v hv⟩

/-- The winner decodes to the number voted for, under its middle timestamp. -/
lemma modeOfBallots_eq_ok (S : SliceSort) {ballots : List (Bytes × ℕ)} {b : Bytes} {ts : List ℕ} (hv : VotesFor W decimal v b)
    (hwinner : ModeVotes.winner (ballots.foldl ModeVotes.record ∅) = (b,ts)) (hts : ts ≠ [])
    (hmin : minContributions ≤ ts.length) :
    ∃ r t, modeOfBallots S W v.type ballots minContributions = .ok (some r) ∧ r.SameNumber v ∧
      Go.index (S.sort (fun a b => a < b) ts) (ts.length / 2) = .ok t ∧ ∀ t' u, r = .timestamped t' u → t' = t := by
  have hlen : ts.length / 2 < (S.sort (fun a b => a < b) ts).length := by
    rw [(S.perm _ ts).length_eq]
    have := length_pos_iff.2 hts
    omega
  have hindex := index_eq_ok hlen
  have hsame := sameNumber_canonicalModeValue v
  have hread := hv.readBack
  rw [type_canonicalModeValue] at hread
  unfold modeOfBallots
  rw [hwinner]
  dsimp only
  rw [if_neg (not_lt.2 hmin),if_neg hv.ne_nil,hread]
  generalize (canonicalModeValue v).1 = c at hsame
  cases c with
  | decimal d => exact ⟨_,_,rfl,hsame,hindex,fun _ _ h => by cases h⟩
  | quote q => exact ⟨_,_,rfl,hsame,hindex,fun _ _ h => by cases h⟩
  | timestamped t c =>
    refine ⟨.timestamped ((S.sort (fun a b => a < b) ts).get ⟨ts.length / 2,hlen⟩) c,_,?_,?_,hindex,?_⟩
    · simp only [Go.ofExcept,ok_bind,hindex]
    · cases v <;> first | exact hsame.elim | exact hsame
    · intro t' u h
      cases h
      rfl

lemma length_contributionsOf_le (values : List (Option StreamValue)) (ty : StreamValueType) :
    (contributionsOf values ty).length ≤ (contributionsOf values (mostCommonType values).1).length := by
  by_cases hnil : contributionsOf values ty = []
  · rw [hnil]
    exact Nat.zero_le _
  · obtain ⟨v,hv⟩ := exists_mem_of_ne_nil _ hnil
    have hbest := (isMostCommon_mostCommonType values).best v
    rw [(mem_contributionsOf.1 hv).2,countP_eq_length_filter,countP_eq_length_filter] at hbest
    exact hbest.elim le_of_lt fun h => h.1.le

lemma index_middle_stamp {S : SliceSort} {ws : List StreamValue} {t : ℕ}
    (h : Go.index (S.sort (fun a b => a < b) (ws.map observedAt)) ((ws.map observedAt).length / 2) = .ok t) :
    t ∈ ws.map observedAt ∧ ws.length ≤ 2 * ws.countP (fun w => w.observedAt ≤ t) := by
  have hperm := S.perm (fun a b => decide (a < b)) (ws.map observedAt)
  have hsorted : (S.sort (fun a b => decide (a < b)) (ws.map observedAt)).Pairwise (fun a b => id a ≤ id b) :=
    S.sorted_by id (fun a b => decide_eq_true_iff) _
  generalize S.sort (fun a b => decide (a < b)) (ws.map observedAt) = sorted at h hperm hsorted
  unfold Go.index at h
  split at h
  · next m hm =>
    cases h
    obtain ⟨hk,rfl⟩ := List.getElem?_eq_some_iff.1 hm
    have hcount := Rank.succ_le_countP_le hsorted hk
    rw [hperm.countP_eq,countP_map] at hcount
    refine ⟨hperm.mem_iff.1 (getElem_mem hk),?_⟩
    have hle : ws.length / 2 + 1 ≤ ws.countP (fun w => w.observedAt ≤ sorted[(ws.map observedAt).length / 2]) :=
      (congrArg (· / 2 + 1) (length_map observedAt)).symm.trans_le hcount
    omega
  · exact absurd h (panics_ne_ok _ _)

/-- The mode fails exactly when too few contributions of the most common type agree. Otherwise
it is the number most of them agree on, with the median timestamp of those. -/
theorem modeAggregator_agreement (S : SliceSort) (hW : W.ReadsValues decimal) (hD : WritesDecimals decimal)
    (hall : ∀ v, some v ∈ values → Contributed W v) (hmin : 1 ≤ minContributions) :
    let bucket := contributionsOf values (mostCommonType values).1
    (∀ ty, (contributionsOf values ty).length ≤ bucket.length) ∧
      ((∃ e, modeAggregator S W decimal values minContributions = .error e) ↔
        ∀ v ∈ bucket, (agreeing values v).length < minContributions) ∧
      ∀ r, modeAggregator S W decimal values minContributions = .ok r →
        ∃ v, r = some v ∧ v.type = (mostCommonType values).1 ∧ minContributions ≤ (agreeing values v).length ∧
          (∀ w ∈ bucket, (agreeing values w).length ≤ (agreeing values v).length) ∧
          ∀ t u, v = .timestamped t u → t ∈ (agreeing values v).map observedAt ∧
            (agreeing values v).length ≤ 2 * (agreeing values v).countP (fun w => w.observedAt ≤ t) := by
  intro bucket
  have hcontributed : ∀ v ∈ bucket, Contributed W v := fun v hv => hall v (mem_contributionsOf.1 hv).1
  obtain ⟨ballots,hballots,hvotes,hsome⟩ := exists_ballots hW hD rfl hcontributed
  obtain ⟨hmost,hwin⟩ := ModeVotes.winner_foldl_record ballots
  have hmode : modeAggregator S W decimal values minContributions =
      modeOfBallots S W (mostCommonType values).1 ballots minContributions := by
    rw [modeAggregator_eq,mostCommonType_snd_eq,hballots]
    rfl
  refine ⟨length_contributionsOf_le values,?_⟩
  rw [hmode]
  generalize hwinner : ModeVotes.winner (ballots.foldl ModeVotes.record ∅) = winner at hmost hwin
  obtain ⟨b,ts⟩ := winner
  dsimp only at hmost hwin
  have hagree : ∀ v ∈ bucket, (agreeing values v).length ≤ ts.length := by
    intro v hv
    obtain ⟨c,_,hstamps⟩ := hvotes v hv
    have hle := hmost c
    rwa [hstamps,length_map] at hle
  by_cases henough : minContributions ≤ ts.length
  · have hts : ts ≠ [] := length_pos_iff.1 (hmin.trans henough)
    obtain ⟨hstamps,_⟩ := hwin hts
    obtain ⟨v,hv,hvb⟩ := hsome b (hstamps ▸ hts)
    obtain ⟨c,hvc,hcstamps⟩ := hvotes v hv
    cases Except.ok.inj (hvb.encoded.symm.trans hvc.encoded)
    have hvts : ts = (agreeing values v).map observedAt := hstamps.trans hcstamps
    have hlen : ts.length = (agreeing values v).length := by rw [hvts,length_map]
    have htype : v.type = (mostCommonType values).1 := (mem_contributionsOf.1 hv).2
    obtain ⟨r,t,hr,hsame,hindex,ht⟩ := modeOfBallots_eq_ok S hvb hwinner hts henough
    rw [htype] at hr
    have hsameAgreeing : agreeing values r = agreeing values v := agreeing_congr hsame
    constructor
    · refine iff_of_false ?_ ?_
      · rintro ⟨e,he⟩
        cases hr.symm.trans he
      · intro hfew
        exact absurd (hfew v hv) (not_lt.2 (henough.trans_eq hlen))
    · intro r' hr'
      cases hr.symm.trans hr'
      refine ⟨r,rfl,hsame.type_eq.trans htype,?_,?_,?_⟩
      · rw [hsameAgreeing,← hlen]
        exact henough
      · intro w hw
        rw [hsameAgreeing,← hlen]
        exact hagree w hw
      · intro t' u hstamped
        cases ht t' u hstamped
        rw [hvts] at hindex
        rw [hsameAgreeing]
        exact index_middle_stamp hindex
  · have herr : ∃ e, modeOfBallots S W (mostCommonType values).1 ballots minContributions = .error e := by
      unfold modeOfBallots
      rw [hwinner,if_pos (not_le.1 henough)]
      exact ⟨_,rfl⟩
    constructor
    · refine iff_of_true herr ?_
      intro v hv
      exact (hagree v hv).trans_lt (not_le.1 henough)
    · intro r hr
      obtain ⟨e,he⟩ := herr
      cases he.symm.trans hr

lemma length_gobInt (n : ℤ) : (gobInt n).length = (n.natAbs.size + 7) / 8 + 1 := by
  rw [gobInt,length_cons,length_bigEndian]

lemma writesDecimals_marshalDecimal : WritesDecimals marshalDecimal := by
  intro d hd
  obtain ⟨hlow,hhigh⟩ := hd
  have hmax : maxDecimalExponent = 1000 := rfl
  refine ⟨_,if_pos (by omega),?_,?_⟩
  · exact append_ne_nil_of_right_ne_nil _ (cons_ne_nil _ _)
  · rw [length_append,length_bigEndian,length_gobInt,Decimal.coefficientBits]
    omega

lemma contributed_of_decodable {W : WireLibs} {decimal : DecimalEncoder}
    (hW : W.ReadsValues decimal) (hD : WritesDecimals decimal) (hv : v.Decodable)
    (hobserved : checkObservedStreamValue v = .ok ()) (hshape : v.atMostStamped = true) : Contributed W v := by
  obtain ⟨b,hb,_,hlen⟩ := marshalBinary_returns hD hv.inRange hobserved
  have hnest : v.nesting ≤ 100 := hv.nesting_le.trans (by decide)
  have hread := unmarshalNested_marshalBinary hW hv.inRange hv.nesting_le hb (by omega)
  refine ⟨⟨some ⟨v.type,b⟩,?_⟩,hshape⟩
  rw [unmarshalObservedProtoStreamValue,unmarshalProtoStreamValue,hread]
  simp only [ok_bind,hobserved]

def valueLibs : WireLibs :=
  { wireOf [] [] [] with
    unmarshalDecimal := readDecimal
    unmarshalQuote := readQuote
    unmarshalTimestamped := readTimestamped }

lemma readsValues_valueLibs : valueLibs.ReadsValues marshalDecimal := readsValues_of_readers rfl rfl rfl

/-- One and a half in two scales, and two; one oracle has nothing. -/
def scaledPrices : List (Option StreamValue) :=
  [some (.timestamped 100 (.decimal ⟨15,-1⟩)),some (.timestamped 101 (.decimal ⟨2,0⟩)),none,
    some (.timestamped 102 (.decimal ⟨1500,-3⟩))]

lemma contributed_scaledPrices : ∀ v, some v ∈ scaledPrices → Contributed valueLibs v := by
  have hone : ∀ t d, t < 2 ^ 64 → d.ExponentInRange → checkDecimalCoefficient d = .ok () →
      Contributed valueLibs (.timestamped t (.decimal d)) := by
    intro t d ht hd hbits
    exact contributed_of_decodable readsValues_valueLibs writesDecimals_marshalDecimal ⟨⟨ht,hd⟩,show 1 ≤ maxStreamValueNesting by decide⟩
      hbits rfl
  intro v hv
  simp only [scaledPrices,mem_cons,Option.some.injEq,reduceCtorEq,not_mem_nil,or_false,false_or] at hv
  rcases hv with rfl | rfl | rfl
  · exact hone _ _ (by decide) ⟨by decide,by decide⟩ (by decide)
  · exact hone _ _ (by decide) ⟨by decide,by decide⟩ (by decide)
  · exact hone _ _ (by decide) ⟨by decide,by decide⟩ (by decide)

theorem modeAggregator_agreement_scaledPrices :
    ∃ v, modeAggregator insertionSlice valueLibs marshalDecimal scaledPrices 2 = .ok (some v) ∧
      2 ≤ (agreeing scaledPrices v).length := by
  obtain ⟨_,herror,hok⟩ := modeAggregator_agreement insertionSlice readsValues_valueLibs writesDecimals_marshalDecimal
    contributed_scaledPrices (show 1 ≤ 2 by decide)
  cases hmode : modeAggregator insertionSlice valueLibs marshalDecimal scaledPrices 2 with
  | error e =>
    have hfew := herror.1 ⟨e,hmode⟩ (.timestamped 100 (.decimal ⟨15,-1⟩)) (by decide)
    exact absurd hfew (by decide +kernel)
  | ok r =>
    obtain ⟨v,rfl,_,henough,_⟩ := hok r hmode
    exact ⟨v,rfl,henough⟩

end DataStreams
