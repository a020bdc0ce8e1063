import DataStreams.Protocol.HistoryBackfill
import DataStreams.Protocol.StreamHistoryRing

/-! A window of past values of a stream, oldest first, with strictly increasing times. -/
namespace DataStreams
open List

def twapMaxWindowSeconds : ℕ := 24 * 60 * 60

structure Series where
  values : List Decimal
  timestamps : List ℕ
  length_eq : values.length = timestamps.length
  increasing : timestamps.Pairwise (· < ·)

/-- The first place where timestamps do not increase, from place `i` on. -/
def notIncreasing : ℕ → List ℕ → Option (ℕ × ℕ × ℕ)
  | i,prev :: next :: rest => if next ≤ prev then some (i,next,prev) else notIncreasing (i + 1) (next :: rest)
  | _,_ => none

variable {i : ℕ} {timestamps : List ℕ}
lemma pairwise_of_notIncreasing (h : notIncreasing i timestamps = none) : timestamps.Pairwise (· < ·) := by
  induction timestamps generalizing i with
  | nil => exact .nil
  | cons prev rest ih =>
    cases rest with
    | nil => exact pairwise_singleton _ _
    | cons next rest =>
      rw [notIncreasing] at h
      split_ifs at h with hle
      have htail := ih h
      refine pairwise_cons.2 ⟨?_,htail⟩
      intro t ht
      rcases mem_cons.1 ht with rfl | ht
      · exact not_le.1 hle
      · exact (not_le.1 hle).trans ((pairwise_cons.1 htail).1 t ht)

lemma notIncreasing_eq_none (h : timestamps.Pairwise (· < ·)) : notIncreasing i timestamps = none := by
  induction timestamps generalizing i with
  | nil => rfl
  | cons prev rest ih =>
    obtain ⟨hprev,htail⟩ := pairwise_cons.1 h
    cases rest with
    | nil => rfl
    | cons next rest =>
      rw [notIncreasing,if_neg (not_le.2 (hprev next mem_cons_self))]
      exact ih htail

def newSeries (values : List Decimal) (timestamps : List ℕ) : Except String Series :=
  if hlength : values.length = timestamps.length then
    match hplace : notIncreasing 1 timestamps with
    | some (i,next,prev) =>
      .error s!"series timestamps must be strictly increasing: index {i} ({next}) is not after index {i - 1} ({prev})"
    | none => .ok ⟨values,timestamps,hlength,pairwise_of_notIncreasing hplace⟩
  else .error s!"series has {values.length} values but {timestamps.length} timestamps"

inductive Field
  | value
  | bid
  | ask
  | benchmark
  deriving DecidableEq, Repr

def Field.describe : Field → String
  | .value => "value"
  | .bid => "bid"
  | .ask => "ask"
  | .benchmark => "benchmark"

def projectStreamValue : StreamValue → Field → Except String Decimal
  | .decimal d,.value => .ok d
  | .decimal _,field => .error s!"stream value is a decimal and has no {field.describe} field"
  | .quote q,.bid => .ok q.bid
  | .quote q,.ask => .ok q.ask
  | .quote q,.benchmark => .ok q.benchmark
  | .quote _,.value => .error "stream value is a quote; use the _bid, _ask or _benchmark field"
  | .timestamped _ v,field => projectStreamValue v field

def projectRecords (field : Field) : ℕ → List StreamHistoryRecord → Except String (List Decimal)
  | _,[] => .ok []
  | i,r :: rest =>
    match projectStreamValue r.value field with
    | .error e => .error s!"history record {i}: {e}"
    | .ok d => do
      let ds ← projectRecords field (i + 1) rest
      .ok (d :: ds)

def seriesFromRecords (records : List StreamHistoryRecord) (field : Field) : Except String Series := do
  let values ← projectRecords field 0 records
  newSeries values (records.map StreamHistoryRecord.observedAtNanoseconds)

variable {field : Field} {records : List StreamHistoryRecord}
lemma projectRecords_eq_ok {values : List Decimal} :
    projectRecords field i records = .ok values ↔
      List.Forall₂ (fun r d => projectStreamValue r.value field = .ok d) records values := by
  induction records generalizing i values with
  | nil => rw [projectRecords,List.forall₂_nil_left_iff,Except.ok.injEq,eq_comm]
  | cons r rest ih =>
    rw [projectRecords]
    cases hd : projectStreamValue r.value field with
    | error e =>
      refine iff_of_false nofun ?_
      rintro (_ | ⟨hr,_⟩)
      exact absurd (hd.symm.trans hr) nofun
    | ok d =>
      dsimp only
      rw [Go.bind_ok_iff]
      constructor
      · rintro ⟨ds,hds,h⟩
        cases h
        exact .cons hd (ih.1 hds)
      · rintro (_ | ⟨hr,hrest⟩)
        cases hd.symm.trans hr
        exact ⟨_,ih.2 hrest,rfl⟩

lemma seriesFromRecords_eq_ok {series : Series} (h : seriesFromRecords records field = .ok series) :
    series.timestamps = records.map StreamHistoryRecord.observedAtNanoseconds ∧
      List.Forall₂ (fun r d => projectStreamValue r.value field = .ok d) records series.values := by
  rw [seriesFromRecords,Go.bind_ok_iff] at h
  obtain ⟨values,hvalues,h⟩ := h
  unfold newSeries at h
  split_ifs at h with hlength
  split at h
  · cases h
  · cases h
    exact ⟨rfl,projectRecords_eq_ok.1 hvalues⟩

/-- Records in order with the field asked for make a series. -/
lemma seriesFromRecords_returns
    (hincreasing : records.Pairwise (fun a b => a.observedAtNanoseconds < b.observedAtNanoseconds))
    (hfield : ∀ r ∈ records, ∃ d, projectStreamValue r.value field = .ok d) :
    ∃ series, seriesFromRecords records field = .ok series := by
  obtain ⟨values,hvalues⟩ : ∃ values,
      List.Forall₂ (fun r d => projectStreamValue r.value field = .ok d) records values := by
    clear hincreasing
    induction records with
    | nil => exact ⟨[],.nil⟩
    | cons r rest ih =>
      obtain ⟨d,hd⟩ := hfield r mem_cons_self
      obtain ⟨ds,hds⟩ := ih fun s hs => hfield s (mem_cons_of_mem _ hs)
      exact ⟨d :: ds,.cons hd hds⟩
  have hlength : values.length = (records.map StreamHistoryRecord.observedAtNanoseconds).length := by
    rw [length_map,hvalues.length_eq]
  have hplace : notIncreasing 1 (records.map StreamHistoryRecord.observedAtNanoseconds) = none :=
    notIncreasing_eq_none (pairwise_map.2 hincreasing)
  rw [seriesFromRecords,projectRecords_eq_ok.2 hvalues,Go.ok_bind,newSeries,dif_pos hlength]
  split
  · next hsome => exact absurd (hplace.symm.trans hsome) (by simp)
  · exact ⟨_,rfl⟩

end DataStreams
