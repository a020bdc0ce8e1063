import DataStreams.Calculated.Evaluation
import DataStreams.Calculated.MovingAverage

/-! The values that calculated streams add to a round, whatever the pool and the schedule of the
workers. -/
namespace DataStreams
open List

/-- A value that was added for the expression of a channel at some place. -/
structure Contribution where
  channel : ChannelID
  index : ℕ
  stream : StreamID
  value : Decimal

namespace Contribution
/-- By channel, and within a channel by place. -/
def Before (c c' : Contribution) : Prop := c.channel < c'.channel ∨ c.channel = c'.channel ∧ c.index < c'.index

end Contribution

/-- The values after are the values before and the added ones, for streams that had none. -/
structure Extends (a a' : Aggregates) (added : List Contribution) : Prop where
  values : ∀ id agg v, a'.values id agg = some v ↔
    a.values id agg = some v ∨ agg = .calculated ∧ ∃ c ∈ added, c.stream = id ∧ v = .decimal c.value
  fresh : ∀ c ∈ added, a.present c.stream = false
  once : (added.map Contribution.stream).Nodup

variable {a a' a'' : Aggregates} {added added' : List Contribution}
lemma Aggregates.values_of_not_present {id : StreamID} (h : a.present id = false) (agg : Aggregator) :
    a.values id agg = none := by
  cases hv : a.values id agg with
  | none => rfl
  | some v =>
    rw [(a.present_iff id).2 ⟨agg,v,hv⟩] at h
    cases h

lemma Extends.refl (a : Aggregates) : Extends a a [] where
  values id agg v := by simp
  fresh c hc := absurd hc not_mem_nil
  once := nodup_nil

lemma Extends.present (h : Extends a a' added) (id : StreamID) :
    a'.present id = true ↔ a.present id = true ∨ ∃ c ∈ added, c.stream = id := by
  rw [a'.present_iff,a.present_iff]
  constructor
  · rintro ⟨agg,v,hv⟩
    rcases (h.values id agg v).1 hv with hv | ⟨-,c,hc,hid,-⟩
    · exact .inl ⟨agg,v,hv⟩
    · exact .inr ⟨c,hc,hid⟩
  · rintro (⟨agg,v,hv⟩ | ⟨c,hc,hid⟩)
    · exact ⟨agg,v,(h.values id agg v).2 (.inl hv)⟩
    · exact ⟨_,_,(h.values id .calculated _).2 (.inr ⟨rfl,c,hc,hid,rfl⟩)⟩

lemma Extends.trans (h : Extends a a' added) (h' : Extends a' a'' added') : Extends a a'' (added ++ added') where
  values id agg v := by
    rw [h'.values,h.values,or_assoc,← and_or_left]
    refine or_congr_right (and_congr_right fun _ => ?_)
    simp only [mem_append,or_and_right,exists_or]
  fresh c hc := by
    rcases mem_append.1 hc with hc | hc
    · exact h.fresh c hc
    · have hc' := h'.fresh c hc
      rw [← Bool.not_eq_true,h.present,not_or] at hc'
      exact Bool.not_eq_true _ ▸ hc'.1
  once := by
    rw [map_append]
    refine h.once.append h'.once ?_
    intro id hid hid'
    obtain ⟨c,hc,rfl⟩ := mem_map.1 hid
    obtain ⟨c',hc',heq⟩ := mem_map.1 hid'
    have hpresent : a'.present c'.stream = true := (h.present _).2 (.inr ⟨c,hc,heq.symm⟩)
    rw [h'.fresh c' hc'] at hpresent
    cases hpresent

lemma extends_setCalculated {c : Contribution} (h : a.present c.stream = false) :
    Extends a (a.setCalculated c.stream c.value) [c] where
  values id agg v := by
    by_cases hid : id = c.stream
    · subst hid
      have hnone := a.values_of_not_present h agg
      rw [hnone]
      by_cases hagg : agg = .calculated <;> simp [Aggregates.setCalculated,hagg,eq_comm]
    · simp [Aggregates.setCalculated,hid,Ne.symm hid]
  fresh c' hc' := by rwa [mem_singleton.1 hc']
  once := nodup_singleton _

/-- What the values of a channel from place `n` on add. They are cut where a stream has a
value already or a value has no stored form. -/
structure AddsValues (cid : ChannelID) (n : ℕ) (pairs : List (CalculatedStreamABI × Decimal)) (a : Aggregates)
    (added : List Contribution) : Prop where
  channel : ∀ c ∈ added, c.channel = cid
  source : ∀ c ∈ added, ∃ i p, c.index = n + i ∧ pairs[i]? = some p ∧ p.1.expressionStreamID = c.stream ∧
    storableDecimal p.2 = .ok c.value
  ordered : added.Pairwise (fun c c' => c.index < c'.index)
  closed : ∀ c ∈ added, ∀ i, n ≤ i → i < c.index → ∃ c' ∈ added, c'.index = i
  first : ∀ j p s, pairs[j]? = some p → storableDecimal p.2 = .ok s →
    (∀ i, n ≤ i → i < n + j → ∃ c ∈ added, c.index = i) →
    a.present p.1.expressionStreamID = true ∨ ∃ c ∈ added, c.stream = p.1.expressionStreamID ∧ c.index ≤ n + j

variable {cid : ChannelID} {n : ℕ} {pairs : List (CalculatedStreamABI × Decimal)}
variable {p : CalculatedStreamABI × Decimal}
lemma addsValues_nil (h : a.present p.1.expressionStreamID = true ∨ ∀ s, storableDecimal p.2 ≠ .ok s) :
    AddsValues cid n (p :: pairs) a [] where
  channel c hc := absurd hc not_mem_nil
  source c hc := absurd hc not_mem_nil
  ordered := .nil
  closed c hc := absurd hc not_mem_nil
  first j q s hq hs hbefore := by
    cases j with
    | zero =>
      cases hq
      exact .inl (h.resolve_right fun hnone => hnone s hs)
    | succ j =>
      obtain ⟨c,hc,-⟩ := hbefore n le_rfl (by omega)
      exact absurd hc not_mem_nil

lemma AddsValues.cons {value : Decimal} (hvalue : storableDecimal p.2 = .ok value)
    {added : List Contribution}
    (h : AddsValues cid (n + 1) pairs (a.setCalculated p.1.expressionStreamID value) added) :
    AddsValues cid n (p :: pairs) a (⟨cid,n,p.1.expressionStreamID,value⟩ :: added) where
  channel c hc := by
    rcases mem_cons.1 hc with rfl | hc
    · rfl
    · exact h.channel c hc
  source c hc := by
    rcases mem_cons.1 hc with rfl | hc
    · exact ⟨0,p,rfl,rfl,rfl,hvalue⟩
    · obtain ⟨i,q,hindex,hq,hrest⟩ := h.source c hc
      exact ⟨i + 1,q,by omega,hq,hrest⟩
  ordered := by
    refine pairwise_cons.2 ⟨?_,h.ordered⟩
    intro c hc
    obtain ⟨i,q,hindex,-⟩ := h.source c hc
    dsimp only
    omega
  closed c hc i hni hi := by
    rcases hni.eq_or_lt with rfl | hni
    · exact ⟨_,mem_cons_self,rfl⟩
    rcases mem_cons.1 hc with rfl | hc
    · exact absurd hi (by dsimp only; omega)
    · obtain ⟨c',hc',hindex⟩ := h.closed c hc i hni hi
      exact ⟨c',mem_cons_of_mem _ hc',hindex⟩
  first j q s hq hs hbefore := by
    cases j with
    | zero =>
      cases hq
      exact .inr ⟨_,mem_cons_self,rfl,le_rfl⟩
    | succ j =>
      have hrest : ∀ i, n + 1 ≤ i → i < n + 1 + j → ∃ c ∈ added, c.index = i := by
        intro i hni hi
        obtain ⟨c,hc,hindex⟩ := hbefore i (by omega) (by omega)
        rcases mem_cons.1 hc with rfl | hc
        · exact absurd hindex (by dsimp only; omega)
        · exact ⟨c,hc,hindex⟩
      rcases h.first j q s hq hs hrest with hpresent | ⟨c,hc,hstream,hindex⟩
      · by_cases hid : q.1.expressionStreamID = p.1.expressionStreamID
        · exact .inr ⟨_,mem_cons_self,hid.symm,by dsimp only; omega⟩
        · left
          simpa [Aggregates.setCalculated,hid] using hpresent
      · exact .inr ⟨c,mem_cons_of_mem _ hc,hstream,by omega⟩

/-- What the values of a channel add, up to the first that is refused. -/
lemma applyValues_adds (cid : ChannelID) (n : ℕ) (pairs : List (CalculatedStreamABI × Decimal)) (a : Aggregates) :
    ∃ added, Extends a (applyValues cid pairs a).1 added ∧ AddsValues cid n pairs a added := by
  induction pairs generalizing n a with
  | nil =>
    refine ⟨[],.refl a,?_,?_,.nil,?_,?_⟩
    · exact fun c hc => absurd hc not_mem_nil
    · exact fun c hc => absurd hc not_mem_nil
    · exact fun c hc => absurd hc not_mem_nil
    · intro j p s hp
      cases hp
  | cons p rest ih =>
    rw [applyValues]
    by_cases hpresent : a.present p.1.expressionStreamID = true
    · rw [if_pos hpresent]
      exact ⟨[],.refl a,addsValues_nil (.inl hpresent)⟩
    rw [if_neg hpresent]
    split
    · next e hvalue =>
      refine ⟨[],.refl a,addsValues_nil (.inr ?_)⟩
      intro s hs
      cases hvalue.symm.trans hs
    · next value hvalue =>
      obtain ⟨added,hextends,hadds⟩ := ih (n + 1) (a.setCalculated p.1.expressionStreamID value)
      have hset := extends_setCalculated (c := ⟨cid,n,p.1.expressionStreamID,value⟩) (Bool.not_eq_true _ ▸ hpresent)
      exact ⟨_,hset.trans hextends,hadds.cons hvalue⟩

/-- What the prepared channels add, in terms of their results. -/
structure AddsWorks (eval : EvalDecimal) (works : List ChannelWork) (a : Aggregates) (added : List Contribution) : Prop where
  source : ∀ c ∈ added, ∃ w ∈ works, w.cid = c.channel ∧ ∃ abi d, w.abi[c.index]? = some abi ∧
    abi.expressionStreamID = c.stream ∧ (evalChannel eval w).values[c.index]? = some d ∧ storableDecimal d = .ok c.value
  ordered : added.Pairwise Contribution.Before
  closed : ∀ c ∈ added, ∀ i, i < c.index → ∃ c' ∈ added, c'.channel = c.channel ∧ c'.index = i
  first : ∀ w ∈ works, ∀ j abi d s, w.abi[j]? = some abi → (evalChannel eval w).values[j]? = some d →
    storableDecimal d = .ok s → (∀ i, i < j → ∃ c ∈ added, c.channel = w.cid ∧ c.index = i) →
    a.present abi.expressionStreamID = true ∨
      ∃ c ∈ added, c.stream = abi.expressionStreamID ∧ (c.channel < w.cid ∨ c.channel = w.cid ∧ c.index ≤ j)

variable {eval : EvalDecimal} {work : ChannelWork} {works : List ChannelWork}
lemma AddsWorks.cons (hcid : ∀ w ∈ works, work.cid < w.cid) (hextends : Extends a a' added)
    (h : AddsValues work.cid 0 (work.abi.zip (evalChannel eval work).values) a added)
    (h' : AddsWorks eval works a' added') : AddsWorks eval (work :: works) a (added ++ added') := by
  have hlater : ∀ c ∈ added', work.cid < c.channel := by
    intro c hc
    obtain ⟨w,hw,hchannel,-⟩ := h'.source c hc
    exact hchannel ▸ hcid w hw
  refine ⟨?_,?_,?_,?_⟩
  · intro c hc
    rcases mem_append.1 hc with hc | hc
    · obtain ⟨i,⟨abi,d⟩,hindex,hp,hstream,hstored⟩ := h.source c hc
      obtain ⟨habi,hd⟩ := getElem?_zip_eq_some.1 hp
      rw [Nat.zero_add] at hindex
      subst hindex
      exact ⟨work,mem_cons_self,(h.channel c hc).symm,abi,d,habi,hstream,hd,hstored⟩
    · obtain ⟨w,hw,hrest⟩ := h'.source c hc
      exact ⟨w,mem_cons_of_mem _ hw,hrest⟩
  · refine pairwise_append.2 ⟨?_,h'.ordered,?_⟩
    · refine h.ordered.imp_of_mem ?_
      intro c c' hc hc' hlt
      exact .inr ⟨(h.channel c hc).trans (h.channel c' hc').symm,hlt⟩
    · intro c hc c' hc'
      exact .inl ((h.channel c hc).symm ▸ hlater c' hc')
  · intro c hc i hi
    rcases mem_append.1 hc with hc | hc
    · obtain ⟨c',hc',hindex⟩ := h.closed c hc i (Nat.zero_le i) hi
      exact ⟨c',mem_append_left _ hc',(h.channel c' hc').trans (h.channel c hc).symm,hindex⟩
    · obtain ⟨c',hc',hrest⟩ := h'.closed c hc i hi
      exact ⟨c',mem_append_right _ hc',hrest⟩
  · intro w hw j abi d s habi hd hs hbefore
    rcases mem_cons.1 hw with rfl | hw
    · -- the places before `j` were added with this channel and not later
      have hown : ∀ i, 0 ≤ i → i < 0 + j → ∃ c ∈ added, c.index = i := by
        intro i _ hi
        obtain ⟨c,hc,hchannel,hindex⟩ := hbefore i (by omega)
        rcases mem_append.1 hc with hc | hc
        · exact ⟨c,hc,hindex⟩
        · exact absurd hchannel (hlater c hc).ne'
      rcases h.first j (abi,d) s (getElem?_zip_eq_some.2 ⟨habi,hd⟩) hs hown with hpresent | ⟨c,hc,hstream,hindex⟩
      · exact .inl hpresent
      · exact .inr ⟨c,mem_append_left _ hc,hstream,.inr ⟨h.channel c hc,by omega⟩⟩
    · have hown : ∀ i, i < j → ∃ c ∈ added', c.channel = w.cid ∧ c.index = i := by
        intro i hi
        obtain ⟨c,hc,hchannel,hindex⟩ := hbefore i hi
        rcases mem_append.1 hc with hc | hc
        · exact absurd ((h.channel c hc).symm.trans hchannel) (hcid w hw).ne
        · exact ⟨c,hc,hchannel,hindex⟩
      rcases h'.first w hw j abi d s habi hd hs hown with hpresent | ⟨c,hc,hrest⟩
      · rcases (hextends.present _).1 hpresent with hpresent | ⟨c,hc,hstream⟩
        · exact .inl hpresent
        · exact .inr ⟨c,mem_append_left _ hc,hstream,.inl ((h.channel c hc).symm ▸ hcid w hw)⟩
      · exact .inr ⟨c,mem_append_right _ hc,hrest⟩

lemma applyCalculatedStreams_adds (eval : EvalDecimal) (appendToDefinitions : Bool) {works : List ChannelWork}
    (hsorted : works.Pairwise (fun w w' => w.cid < w'.cid)) (s : Calculated) :
    ∃ added, Extends s.aggregates
        (applyCalculatedStreams appendToDefinitions works (works.map (evalChannel eval)) s).aggregates added ∧
      AddsWorks eval works s.aggregates added := by
  induction works generalizing s with
  | nil =>
    refine ⟨[],.refl _,?_,.nil,?_,?_⟩
    · exact fun c hc => absurd hc not_mem_nil
    · exact fun c hc => absurd hc not_mem_nil
    · exact fun w hw => absurd hw not_mem_nil
  | cons work works ih =>
    obtain ⟨hcid,hsorted⟩ := pairwise_cons.1 hsorted
    obtain ⟨added,hextends,hadds⟩ :=
      applyValues_adds work.cid 0 (work.abi.zip (evalChannel eval work).values) s.aggregates
    obtain ⟨added',hextends',hadds'⟩ := ih hsorted (applyChannel appendToDefinitions s (work,evalChannel eval work))
    exact ⟨added ++ added',hextends.trans hextends',.cons hcid hextends hadds hadds'⟩

/-- What a round adds. For a channel it is a first part of its expressions, and a stream that
several channels have a value for gets the one of the first of them. -/
structure AddsPrefixes (I : CalculatedInput) (eval : EvalDecimal) (before : Aggregates) (added : List Contribution) :
    Prop where
  ordered : added.Pairwise Contribution.Before
  closed : ∀ c ∈ added, ∀ i, i < c.index → ∃ c' ∈ added, c'.channel = c.channel ∧ c'.index = i
  declared : ∀ c ∈ added, ∃ cd abi a d, LiveExpressions I c.channel cd abi ∧ abi[c.index]? = some a ∧
    a.expressionStreamID = c.stream ∧ EvaluatesAlone I eval before cd a d ∧ c.value.toRat = d.toRat ∧ c.value.Storable
  lowest : ∀ cid cd abi j a d s, LiveExpressions I cid cd abi → cd.streams ≠ [] → abi[j]? = some a → Evaluable a →
    EvaluatesAlone I eval before cd a d → storableDecimal d = .ok s →
    (∀ i, i < j → ∃ c ∈ added, c.channel = cid ∧ c.index = i) →
    before.present a.expressionStreamID = true ∨
      ∃ c ∈ added, c.stream = a.expressionStreamID ∧ (c.channel < cid ∨ c.channel = cid ∧ c.index ≤ j)

variable {I : CalculatedInput} {before : Aggregates}
lemma eq_of_cid (hsorted : works.Pairwise (fun w w' => w.cid < w'.cid)) {w w' : ChannelWork} (hw : w ∈ works)
    (hw' : w' ∈ works) (h : w.cid = w'.cid) : w = w' := by
  have hnodup : (works.map ChannelWork.cid).Nodup := pairwise_map.2 (hsorted.imp fun hlt => hlt.ne)
  exact inj_on_of_nodup_map hnodup hw hw' h

lemma AddsWorks.length_le (h : AddsWorks eval works before added) (hsorted : works.Pairwise (fun w w' => w.cid < w'.cid))
    {work : ChannelWork} (hwork : work ∈ works) {j : ℕ}
    (hbefore : ∀ i, i < j → ∃ c ∈ added, c.channel = work.cid ∧ c.index = i) :
    j ≤ (evalChannel eval work).values.length := by
  cases j with
  | zero => exact Nat.zero_le _
  | succ j =>
    obtain ⟨c,hc,hchannel,rfl⟩ := hbefore j (Nat.lt_succ_self j)
    obtain ⟨w,hw,hcid,abi,d,-,-,hd,-⟩ := h.source c hc
    cases eq_of_cid hsorted hw hwork (hcid.trans hchannel)
    exact (List.getElem?_eq_some_iff.1 hd).1

/-- The contributions of the prepared channels are those that are specified. -/
lemma AddsWorks.addsPrefixes (hreads : ReadsDeclared I.libs I.exprs eval) (h : AddsWorks eval works before added)
    (hsorted : works.Pairwise (fun w w' => w.cid < w'.cid))
    (hprepared : ∀ work ∈ works, ∃ aggByStream names, PreparedFrom I before work aggByStream names)
    (hall : ∀ cid cd abi aggByStream names, LiveExpressions I cid cd abi → Inputs I before cd aggByStream names →
      cd.streams ≠ [] → ∃ work ∈ works, work.cid = cid) : AddsPrefixes I eval before added where
  ordered := h.ordered
  closed := h.closed
  declared c hc := by
    obtain ⟨work,hwork,hcid,a,d,ha,hstream,hd,hstored⟩ := h.source c hc
    obtain ⟨aggByStream,names,hfrom⟩ := hprepared work hwork
    obtain ⟨hstorable,hrat⟩ := storableDecimal_sound hstored
    exact ⟨work.cd,work.abi,a,d,hcid ▸ hfrom.channel,ha,hstream,hfrom.alone_of_value hreads hd ha,hrat,hstorable⟩
  lowest cid cd abi j a d s hlive hstreams ha heval halone hs hbefore := by
    obtain ⟨aggByStream,names,_,hinputs,_⟩ := id halone
    obtain ⟨work,hwork,rfl⟩ := hall cid cd abi aggByStream names hlive hinputs hstreams
    obtain ⟨aggByStream',names',hfrom⟩ := hprepared work hwork
    have hcd : work.cd = cd := Option.some.inj (hfrom.channel.defined.symm.trans hlive.defined)
    subst hcd
    have habi : work.abi = abi := Except.ok.inj (hfrom.channel.declares.symm.trans hlive.declares)
    subst habi
    have hd := hfrom.value_of_alone hreads (h.length_le hsorted hwork hbefore) ha heval halone
    exact h.first work hwork j a d s ha hd hs hbefore

lemma applyCalculatedStreams_definitions (works : List ChannelWork) (results : List ChannelResult) (s : Calculated) :
    (applyCalculatedStreams false works results s).channelDefinitions = s.channelDefinitions := by
  unfold applyCalculatedStreams
  induction works.zip results generalizing s with
  | nil => rfl
  | cons e rest ih => exact (ih _).trans rfl

/-- Whatever the pool, the number of workers and their interleaving, the round ends in one state:
its definitions are unchanged, and to its values were added those of a first part of the
expressions of every live channel. -/
theorem processCalculatedStreams_addsPrefixes (I : CalculatedInput) (eval : EvalDecimal)
    (hreads : ReadsDeclared I.libs I.exprs eval) (before : Aggregates) :
    ∃ after added,
      (∀ pool workers s, Process I eval false pool workers before s ↔ s = after) ∧
      after.channelDefinitions = I.channelDefinitions ∧
      Extends before after.aggregates added ∧ AddsPrefixes I eval before added := by
  obtain ⟨works,hworks,hsorted,hprepared,hall⟩ := prepareCalculatedStreams_spec I (fun _ => ⟨_,.new⟩) before
  obtain ⟨added,hextends,hadds⟩ :=
    applyCalculatedStreams_adds eval false hsorted ⟨I.channelDefinitions,before,[]⟩
  refine ⟨_,added,?_,applyCalculatedStreams_definitions _ _ _,hextends,hadds.addsPrefixes hreads hsorted hprepared hall⟩
  intro pool workers s
  rw [Subsingleton.elim (fun _ => ⟨_,.new⟩) pool] at hworks
  constructor
  · rintro ⟨works',results,hworks',hresults,rfl⟩
    cases hworks.symm.trans hworks'
    rw [evaluateCalculatedStreams_iff.1 hresults]
  · rintro rfl
    exact ⟨works,_,hworks,evaluateCalculatedStreams_iff.2 rfl,rfl⟩

def relayText : Text := "s1".toList

def averageText : Text := "SMA(History(s1, 2), 2)".toList

/-- Channel 3 publishes stream 1 as stream 70 and its average as stream 71. -/
def relayThree : ChannelID × List (Text × StreamID) := (3,[(relayText,70),(averageText,71)])

/-- Channel 5 publishes stream 1 as stream 71. -/
def relayExpressions : List (ChannelID × List (Text × StreamID)) := [relayThree,(5,[(relayText,71)])]

def relayChannel (e : ChannelID × List (Text × StreamID)) : ChannelDefinition :=
  ⟨.evmABIEncodeUnpackedExpr,[⟨1,.median⟩],(JSONText.exprOpts e.1 e.2).bytes,false,0,false⟩

def relayInput : CalculatedInput where
  libs := ⟨.ofExpressions relayExpressions,fromTable [],digest⟩
  exprs :=
    ⟨fromTable [(relayText,.identifier relayText),(averageText,.call (.identifier "SMA".toList)
        [.call (.identifier "History".toList) [.identifier relayText,.integer 2],.integer 2])],
      fromTable []⟩
  channelDefinitions := .ofList (relayExpressions.map fun e => (e.1,relayChannel e))
  observationTimestampNanoseconds := 30
  optsCache := none
  history := some fun _ _ _ _ => newSeries [⟨3,0⟩,⟨5,0⟩] [10,20]

def relayAggregates : Aggregates where
  values id agg := if id = 1 ∧ agg = .median then some (.decimal ⟨6,0⟩) else none
  present id := id = 1
  present_iff id := by by_cases h : id = 1 <;> simp [h]

/-- The average of the window, and names. -/
def evalRelay : EvalDecimal := fun expression env =>
  if expression = averageText then
    match env.windows.get? "s1__h2".toList with
    | some window =>
      match sma relayInput.libs (.series window) (.integer .int 2) with
      | .ok d => .ok d
      | .error _ => .error "SMA failed"
    | none => .error "unknown name"
  else
    match env.names.get? expression with
    | some (.decimal d) => .ok d
    | _ => .error "expected decimal.Decimal"

lemma evalRelay_readsDeclared : ReadsDeclared relayInput.libs relayInput.exprs evalRelay := by
  intro expression entry names windows windows' hentry hrefs
  unfold evalRelay
  split_ifs with haverage
  · subst haverage
    have hrefs' : (analyzeHistoryExpression relayInput.libs relayInput.exprs averageText).map (·.refs) =
        .ok [⟨1,.value,2⟩] := by decide +kernel
    rw [hentry] at hrefs'
    have hone : entry.refs = [⟨1,.value,2⟩] := Except.ok.inj hrefs'
    have hwindow := hrefs ⟨1,.value,2⟩ (hone ▸ mem_cons_self)
    rw [show (HistoryRef.mk 1 .value 2).envName = "s1__h2".toList by decide +kernel] at hwindow
    simp only [hwindow]
  · rfl

def relayABI : List CalculatedStreamABI := [⟨"int192".toList,relayText,70⟩,⟨"int192".toList,averageText,71⟩]

lemma relayABI_evaluatesAlone : ∀ p ∈ relayABI.zip [⟨6,0⟩,⟨4 * 10 ^ 18,-18⟩],
    EvaluatesAlone relayInput evalRelay relayAggregates (relayChannel relayThree) p.1 p.2 := by
  have hwindows : ∀ a ∈ relayABI,
      (resolveHistory relayInput.libs relayInput.exprs a.expression relayInput.history [(1,.median)]).isOk := by
    decide +kernel
  have hvalues : ∀ p ∈ relayABI.zip [⟨6,0⟩,⟨4 * 10 ^ 18,-18⟩],
      evalRelay p.1.expression ⟨(newEnv 30).setStreamValue 1 (.decimal ⟨6,0⟩),.ofList
        ((resolveHistory relayInput.libs relayInput.exprs p.1.expression relayInput.history [(1,.median)]).getD [])⟩ =
          .ok p.2 := by
    decide +kernel
  intro p hp
  exact ⟨[(1,.median)],_,_,⟨rfl,rfl⟩,Go.eq_ok_getD (hwindows _ (of_mem_zip hp).1) [],hvalues p hp⟩

theorem processCalculatedStreams_addsPrefixes_relay :
    ReadsDeclared relayInput.libs relayInput.exprs evalRelay ∧
      ∃ after, (∀ pool workers s, Process relayInput evalRelay false pool workers relayAggregates s ↔ s = after) ∧
        after.aggregates.values 1 .median = some (.decimal ⟨6,0⟩) ∧
        (∃ v, after.aggregates.values 70 .calculated = some (.decimal v)) ∧
        ∃ v, after.aggregates.values 71 .calculated = some (.decimal v) := by
  obtain ⟨after,added,hprocess,-,hextends,hadds⟩ :=
    processCalculatedStreams_addsPrefixes relayInput evalRelay evalRelay_readsDeclared relayAggregates
  have hlive : LiveExpressions relayInput 3 (relayChannel relayThree) relayABI :=
    ⟨by decide +kernel,rfl,rfl,by decide +kernel⟩
  have hfirst : ∀ c ∈ added, ¬ c.channel < 3 := by
    intro c hc hlt
    have hnone : ∀ id < 3, relayInput.channelDefinitions.get? id = none := by decide +kernel
    obtain ⟨cd,abi,a,d,hlive,-⟩ := hadds.declared c hc
    exact Option.some_ne_none cd (hlive.defined.symm.trans (hnone c.channel hlt))
  have hplace : ∃ c ∈ added, c.stream = 70 ∧ c.channel = 3 ∧ c.index = 0 := by
    rcases hadds.lowest 3 _ relayABI 0 _ ⟨6,0⟩ ⟨6,0⟩ hlive (cons_ne_nil _ _) rfl ⟨by decide,by decide⟩
        (relayABI_evaluatesAlone _ mem_cons_self) (by decide +kernel) (fun i hi => absurd hi (Nat.not_lt_zero i)) with
      h | ⟨c,hc,hstream,hlow | ⟨hchannel,hindex⟩⟩
    · exact absurd h (by decide)
    · exact absurd hlow (hfirst c hc)
    · exact ⟨c,hc,hstream,hchannel,Nat.le_zero.1 hindex⟩
  obtain ⟨c,hc,hstream,hchannel,hindex⟩ := hplace
  have hadded : ∃ c' ∈ added, c'.stream = 71 := by
    rcases hadds.lowest 3 _ relayABI 1 _ _ ⟨4 * 10 ^ 18,-18⟩ hlive (cons_ne_nil _ _) rfl ⟨by decide,by decide⟩
        (relayABI_evaluatesAlone _ (mem_cons_of_mem _ mem_cons_self)) (by decide +kernel)
        (fun i hi => ⟨c,hc,hchannel,hindex.trans (Nat.lt_one_iff.1 hi).symm⟩) with h | ⟨c',hc',hstream',-⟩
    · exact absurd h (by decide)
    · exact ⟨c',hc',hstream'⟩
  obtain ⟨c',hc',hstream'⟩ := hadded
  exact ⟨evalRelay_readsDeclared,after,hprocess,(hextends.values 1 .median _).2 (.inl rfl),
    ⟨c.value,(hextends.values 70 .calculated _).2 (.inr ⟨rfl,c,hc,hstream,rfl⟩)⟩,
    ⟨c'.value,(hextends.values 71 .calculated _).2 (.inr ⟨rfl,c',hc',hstream',rfl⟩)⟩⟩

end DataStreams
