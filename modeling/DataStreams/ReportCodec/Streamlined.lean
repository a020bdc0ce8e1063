import DataStreams.ReportCodec.Encodes

/-! A streamlined report is packed behind a two-byte length, which is checked when the channel
is admitted. -/
namespace DataStreams
open List Go

def packPayload (digest : ConfigDigest) (report : Bytes) (sigs : List AttributedOnchainSignature) :
    Except String Bytes :=
  if report.length > 2 ^ 16 - 1 then
    .error s!"report length exceeds maximum size; got {report.length}, max 65535"
  else if sigs.length > 2 ^ 8 - 1 then .error s!"expected at most 255 signers; got {sigs.length}"
  else do
    let signatures ← sigs.mapM (fun sig =>
      if sig.signature.length ≠ 65 then
        .error s!"expected signature length of 65 bytes; got {sig.signature.length}"
      else .ok sig.signature)
    .ok (bigEndian 32 digest ++ (bigEndian 2 report.length ++ (report ++
      (bigEndian 1 sigs.length ++ signatures.flatten))))

def takeBytes (n : ℕ) (b : Bytes) : Option (Bytes × Bytes) :=
  if b.length < n then none else some (b.take n,b.drop n)

def takeBlocks (n : ℕ) : ℕ → Bytes → Option (List Bytes × Bytes)
  | 0,b => some ([],b)
  | count + 1,b => do
    let (first,b) ← takeBytes n b
    let (others,b) ← takeBlocks n count b
    some (first :: others,b)

/-- What a receiver reads back: digest, report and signatures, with nothing left over. -/
def parsePayload (b : Bytes) : Option (ConfigDigest × Bytes × List Bytes) := do
  let (digest,b) ← takeBytes 32 b
  let (length,b) ← takeBytes 2 b
  let (report,b) ← takeBytes (ofBigEndian length) b
  let (count,b) ← takeBytes 1 b
  let (signatures,b) ← takeBlocks 65 (ofBigEndian count) b
  if b = [] then some (ofBigEndian digest,report,signatures) else none

variable {n : ℕ}
lemma takeBytes_append {a : Bytes} (h : a.length = n) (b : Bytes) : takeBytes n (a ++ b) = some (a,b) := by
  subst h
  rw [takeBytes,if_neg (by rw [length_append]; omega),take_left,drop_left]

lemma takeBlocks_flatten {blocks : List Bytes} (h : ∀ a ∈ blocks, a.length = n) (b : Bytes) :
    takeBlocks n blocks.length (blocks.flatten ++ b) = some (blocks,b) := by
  induction blocks with
  | nil => rfl
  | cons a blocks ih =>
    have hrest := ih (fun c hc => h c (mem_cons_of_mem a hc))
    rw [length_cons,takeBlocks,flatten_cons,append_assoc,takeBytes_append (h a mem_cons_self)]
    simp only [Option.bind_eq_bind,Option.bind_some,hrest]

lemma mapM_signatures {sigs : List AttributedOnchainSignature} (h : ∀ s ∈ sigs, s.signature.length = 65) :
    sigs.mapM (fun sig =>
      if sig.signature.length ≠ 65 then
        (.error s!"expected signature length of 65 bytes; got {sig.signature.length}" : Except String Bytes)
      else .ok sig.signature) = .ok (sigs.map AttributedOnchainSignature.signature) := by
  have hmap := mapM_map_ok (f := fun s : AttributedOnchainSignature =>
      if s.signature.length ≠ 65 then
        (.error s!"expected signature length of 65 bytes; got {s.signature.length}" : Except String Bytes)
      else .ok s.signature) (g := id) (k := AttributedOnchainSignature.signature) (l := sigs)
    (fun s hs => if_neg (not_not.2 (h s hs)))
  rwa [map_id] at hmap

section Pack
variable {digest : ConfigDigest} {report : Bytes} {sigs : List AttributedOnchainSignature}
lemma packPayload_eq (digest : ConfigDigest) (hreport : report.length < 2 ^ 16) (hcount : sigs.length < 2 ^ 8)
    (hsigs : ∀ s ∈ sigs, s.signature.length = 65) :
    packPayload digest report sigs = .ok (bigEndian 32 digest ++ (bigEndian 2 report.length ++ (report ++
      (bigEndian 1 sigs.length ++ (sigs.map AttributedOnchainSignature.signature).flatten)))) := by
  rw [packPayload,if_neg (by omega),if_neg (by omega),mapM_signatures hsigs]
  rfl

variable {packed : Bytes}
/-- The parts of a packed payload can be told apart. -/
lemma parsePayload_packPayload (hdigest : digest < 2 ^ 256) (hreport : report.length < 2 ^ 16)
    (hcount : sigs.length < 2 ^ 8) (hsigs : ∀ s ∈ sigs, s.signature.length = 65)
    (h : packPayload digest report sigs = .ok packed) :
    parsePayload packed = some (digest,report,sigs.map AttributedOnchainSignature.signature) := by
  rw [packPayload_eq digest hreport hcount hsigs] at h
  rw [← Except.ok.inj h]
  have hlength : ofBigEndian (bigEndian 2 report.length) = report.length := by
    rw [ofBigEndian_bigEndian]
    exact Nat.mod_eq_of_lt hreport
  have hnumber : ofBigEndian (bigEndian 1 sigs.length) = sigs.length := by
    rw [ofBigEndian_bigEndian]
    exact Nat.mod_eq_of_lt hcount
  have hvalue : ofBigEndian (bigEndian 32 digest) = digest := by
    rw [ofBigEndian_bigEndian]
    exact Nat.mod_eq_of_lt (hdigest.trans_eq (by norm_num))
  have hblocks : takeBlocks 65 sigs.length (sigs.map AttributedOnchainSignature.signature).flatten =
      some (sigs.map AttributedOnchainSignature.signature,[]) := by
    have hall : ∀ a ∈ sigs.map AttributedOnchainSignature.signature, a.length = 65 := by
      intro a ha
      obtain ⟨s,hs,rfl⟩ := mem_map.1 ha
      exact hsigs s hs
    have hread := takeBlocks_flatten hall []
    rwa [append_nil,length_map] at hread
  simp only [parsePayload,takeBytes_append (length_bigEndian _ _),Option.bind_eq_bind,Option.bind_some,hlength,
    takeBytes_append rfl,hnumber,hblocks,hvalue,if_true]

lemma packPayload_eq_ok (h : packPayload digest report sigs = .ok packed) :
    report.length < 2 ^ 16 ∧ sigs.length < 2 ^ 8 ∧ ∀ s ∈ sigs, s.signature.length = 65 := by
  unfold packPayload at h
  split_ifs at h with hreport hcount
  obtain ⟨signatures,hsignatures,-⟩ := bind_ok_iff.1 h
  refine ⟨by omega,by omega,?_⟩
  intro s hs
  obtain ⟨b,-,hb⟩ := (mapM_ok hsignatures).1 s hs
  by_contra hlen
  rw [if_pos hlen] at hb
  cases hb

end Pack

/-- The bytes an element takes, whatever its value. -/
def ABIElement.packedWidth (e : ABIElement) : ℕ :=
  if e.type = abiZeroBytes then 0
  else
    match parseSolidityInt e.type with
    | .ok s => s.bits / 8
    | .error _ => 0

variable {e : ABIElement} {b : Bytes}
lemma ABIElement.length_encodePacked {d : Decimal} (h : e.encodePacked d = .ok b) : b.length = e.packedWidth := by
  unfold encodePacked at h
  unfold packedWidth
  split_ifs at h ⊢
  · rw [← Except.ok.inj h]
    rfl
  · obtain ⟨s,hs,h⟩ := bind_ok_iff.1 h
    obtain ⟨-,h⟩ := check_bind_ok_iff.1 h
    rw [hs,← Except.ok.inj h,length_bigEndian]

lemma ABIElement.length_encodePackedValue {v : StreamValue}
    (h : e.encodePackedValue v = .ok b) : b.length = e.packedWidth := by
  unfold encodePackedValue at h
  split_ifs at h with htype
  · rw [← Except.ok.inj h,packedWidth,if_pos htype]
    rfl
  · cases v with
    | decimal d => exact length_encodePacked h
    | quote q => cases h
    | timestamped at_ v => cases h

lemma ABISpec.length_encodePacked {s : ABISpec} {v : Option StreamValue} (h : s.encodePacked v = .ok b) :
    b.length = (s.map ABIElement.packedWidth).sum := by
  unfold encodePacked at h
  split at h
  · next d e =>
    rw [map_singleton,sum_singleton]
    exact ABIElement.length_encodePacked h
  · cases h
  · next at_ value e₀ e₁ =>
    obtain ⟨b₀,h₀,h⟩ := bind_ok_iff.1 h
    obtain ⟨b₁,h₁,h⟩ := bind_ok_iff.1 h
    rw [← Except.ok.inj h,length_append,ABIElement.length_encodePacked h₀,ABIElement.length_encodePackedValue h₁]
    simp
  · cases h
  · cases h

lemma length_entries {abi : List ABISpec} {values : List (Option StreamValue)} (hlen : abi.length = values.length)
    {entries : List Bytes} (h : (abi.zip values).mapM (fun e => ABISpec.encodePacked e.1 e.2) = .ok entries) :
    entries.flatten.length = (abi.flatten.map ABIElement.packedWidth).sum := by
  have hwidths : entries.map List.length = abi.map (fun s => (s.map ABIElement.packedWidth).sum) := by
    have hzip : (abi.zip values).map (fun e => (e.1.map ABIElement.packedWidth).sum) =
        ((abi.zip values).map Prod.fst).map (fun s => (s.map ABIElement.packedWidth).sum) := by
      rw [map_map]
      rfl
    rw [map_mapM_ok (fun e b => ABISpec.length_encodePacked) h,hzip,map_fst_zip hlen.le]
  rw [length_flatten,hwidths,map_flatten,sum_flatten,map_map]
  rfl

lemma ABIElement.width_eq_ok {w : ℕ}
    (h : (if e.type = abiZeroBytes then .ok 0 else (parseSolidityInt e.type).map (fun s => s.bits / 8)) = .ok w) :
    id w = e.packedWidth := by
  unfold packedWidth
  split_ifs at h ⊢
  · exact (Except.ok.inj h).symm
  · cases hs : parseSolidityInt e.type with
    | error m =>
      rw [hs] at h
      cases h
    | ok s =>
      rw [hs] at h
      exact (Except.ok.inj h).symm

lemma streamlinedReportSize_eq_ok {opts : EVMStreamlinedOpts} {size : ℕ} (h : streamlinedReportSize opts = .ok size) :
    size = (if opts.feedID.isSome then 32 + 8 else 4 + 4 + 8) + (opts.abi.flatten.map ABIElement.packedWidth).sum := by
  obtain ⟨widths,hwidths,h⟩ := bind_ok_iff.1 h
  have hmap := map_mapM_ok (fun e w => ABIElement.width_eq_ok) hwidths
  rw [map_id] at hmap
  rw [← Except.ok.inj h,hmap]

lemma length_streamlinedPreamble (opts : EVMStreamlinedOpts) (format : ReportFormat) (id : ChannelID) (validAfter : ℕ) :
    (streamlinedPreamble opts format id ++ bigEndian 8 validAfter).length =
      if opts.feedID.isSome then 32 + 8 else 4 + 4 + 8 := by
  unfold streamlinedPreamble
  cases opts.feedID with
  | none => simp
  | some feedID => simp

/-- Opts that decode with the strict decoder and whose ABI also decodes from the whole input
are read alike by both. An empty input holds no value. -/
structure JSON.ReadsStreamlined (J : JSON) : Prop where
  alike : ∀ raw opts abi, J.decodeEVMStreamlined raw = .ok opts → J.unmarshalABIPayload raw = .ok abi →
    J.unmarshalEVMStreamlined raw = .ok opts ∧ opts.abi = abi
  empty : ∀ opts, J.decodeEVMStreamlined [] ≠ .ok opts

variable {L : Libs} {E : ExprLib} {cd : ChannelDefinition} {r : ReportFields} {cache : OptsCache}
lemma size_of_accepted (hformat : cd.reportFormat = .evmStreamlined) (haccepted : AcceptedByCodec L E cd) :
    ∃ opts size, L.json.decodeEVMStreamlined cd.opts = .ok opts ∧ streamlinedReportSize opts = .ok size ∧
      size ≤ 2 ^ 16 - 1 := by
  obtain ⟨codec,hcodec,-,hadmission⟩ := haccepted
  rw [hformat] at hcodec
  cases hcodec
  have h := hadmission _ rfl
  rw [ofExcept_eq_ok] at h
  obtain ⟨opts,hopts,h⟩ := bind_ok_iff.1 h
  obtain ⟨-,h⟩ := check_bind_ok_iff.1 h
  obtain ⟨size,hsize,h⟩ := bind_ok_iff.1 h
  refine ⟨opts,size,hopts,hsize,?_⟩
  by_contra hlarge
  rw [if_pos (by omega)] at h
  cases h

variable {opts : EVMStreamlinedOpts}
lemma checked_of_checkEncodableValues (hJ : L.json.ReadsStreamlined) (hformat : cd.reportFormat = .evmStreamlined)
    (hcached : cache.raw.get? r.channelID = some cd.opts)
    (hopts : L.json.decodeEVMStreamlined cd.opts = .ok opts)
    (hcheck : checkEncodableValues L.json (some cache) cd r.channelID r.values = .ok ()) :
    cache.getOpts .zero L.json.unmarshalEVMStreamlined r.channelID = .ok opts ∧
      ∃ values, abiPayload .evmStreamlined opts.abi.length r.values = .ok values ∧
        ∀ e ∈ opts.abi.zip values, e.1.checkValue e.2 true = .ok () := by
  have hne : cd.opts ≠ [] := by
    intro hnil
    rw [hnil] at hopts
    exact hJ.empty opts hopts
  have hread : ∀ {α : Type} (zero : α) (unmarshal : Bytes → Except String α),
      cache.getOpts zero unmarshal r.channelID = unmarshal cd.opts := by
    intro α zero unmarshal
    simp only [OptsCache.getOpts,hcached,decodeOpts,if_neg hne]
  have hdecode : getOptsOrDecode (some cache) [] L.json.unmarshalABIPayload cd r.channelID =
      L.json.unmarshalABIPayload cd.opts := by
    simp only [getOptsOrDecode,hread,decodeOpts,if_neg hne]
    cases L.json.unmarshalABIPayload cd.opts <;> rfl
  simp only [checkEncodableValues,hformat,hdecode,bind_ok_iff,forM_ok_iff] at hcheck
  obtain ⟨abi,habi,values,hvalues,hall⟩ := hcheck
  obtain ⟨hunmarshal,rfl⟩ := hJ.alike _ _ _ hopts habi
  rw [hread]
  exact ⟨hunmarshal,values,hvalues,hall⟩

lemma encodeEVMStreamlined_length (cd : ChannelDefinition) {size : ℕ} (hsize : streamlinedReportSize opts = .ok size)
    (hspecimen : r.specimen = false)
    (hopts : cache.getOpts .zero L.json.unmarshalEVMStreamlined r.channelID = .ok opts)
    {values : List (Option StreamValue)} (hvalues : abiPayload .evmStreamlined opts.abi.length r.values = .ok values)
    (hchecked : ∀ e ∈ opts.abi.zip values, e.1.checkValue e.2 true = .ok ()) :
    ∃ report, encodeEVMStreamlined L.json r cd cache = .ok report ∧ report.length = size := by
  obtain ⟨entries,hentries⟩ : ∃ entries, (opts.abi.zip values).mapM (fun e => e.1.encodePacked e.2) = .ok entries :=
    mapM_returns fun e he => ABISpec.encodePacked_of_checkValue (hchecked e he)
  let validAfter := clampReportRange r.validAfterNanoseconds r.observationTimestampNanoseconds opts.maxReportRange
  refine ⟨streamlinedPreamble opts cd.reportFormat r.channelID ++ bigEndian 8 validAfter ++ entries.flatten,?_,?_⟩
  · rw [encodeEVMStreamlined,hspecimen,if_neg Bool.false_ne_true,hopts]
    simp only [Go.ofExcept,ok_bind,hvalues,hentries]
    rfl
  · have hlen := abiPayload_length (.inr (.inr rfl)) hvalues
    rw [length_append,length_streamlinedPreamble,length_entries hlen.symm hentries,
      streamlinedReportSize_eq_ok hsize]

/-- Every report of an admitted streamlined channel whose values pass the value check is
encoded to the size admission computed, and is packed into bytes that only it, this digest and
these signatures are packed into. -/
theorem streamlined_packs (hJ : L.json.ReadsStreamlined) (hformat : cd.reportFormat = .evmStreamlined)
    (haccepted : AcceptedByCodec L E cd) (hcached : cache.raw.get? r.channelID = some cd.opts)
    (hspecimen : r.specimen = false)
    (hcheck : checkEncodableValues L.json (some cache) cd r.channelID r.values = .ok ()) :
    ∃ opts report, L.json.decodeEVMStreamlined cd.opts = .ok opts ∧
      encodeEVMStreamlined L.json r cd cache = .ok report ∧
      streamlinedReportSize opts = .ok report.length ∧ report.length < 2 ^ 16 ∧
      ∀ (digest : ConfigDigest) (sigs : List AttributedOnchainSignature), digest < 2 ^ 256 → sigs.length ≤ 255 →
        (∀ s ∈ sigs, s.signature.length = 65) →
        ∃ packed, packPayload digest report sigs = .ok packed ∧
          parsePayload packed = some (digest,report,sigs.map AttributedOnchainSignature.signature) ∧
          ∀ digest' report' sigs', digest' < 2 ^ 256 → packPayload digest' report' sigs' = .ok packed →
            digest' = digest ∧ report' = report ∧
              sigs'.map AttributedOnchainSignature.signature = sigs.map AttributedOnchainSignature.signature := by
  obtain ⟨opts,size,hopts,hsize,hfits⟩ := size_of_accepted hformat haccepted
  obtain ⟨hcache,values,hvalues,hchecked⟩ := checked_of_checkEncodableValues hJ hformat hcached hopts hcheck
  obtain ⟨report,hreport,hlen⟩ := encodeEVMStreamlined_length cd hsize hspecimen hcache hvalues hchecked
  subst hlen
  refine ⟨opts,report,hopts,hreport,hsize,by omega,?_⟩
  intro digest sigs hdigest hcount hsigs
  have hfits' : report.length < 2 ^ 16 := by omega
  have hpack := packPayload_eq digest hfits' (by omega) hsigs
  have hparse := parsePayload_packPayload hdigest hfits' (by omega) hsigs hpack
  refine ⟨_,hpack,hparse,?_⟩
  intro digest' report' sigs' hdigest' hpack'
  obtain ⟨hreport',hcount',hsigs'⟩ := packPayload_eq_ok hpack'
  rw [parsePayload_packPayload hdigest' hreport' hcount' hsigs' hpack'] at hparse
  simpa only [Option.some.injEq,Prod.mk.injEq] using hparse

/-- A channel with a decimal and a timestamped decimal, whose time is not encoded. -/
def packedOpts : EVMStreamlinedOpts :=
  ⟨none,[[⟨['i','n','t','1','9','2'],none⟩],[⟨abiZeroBytes,none⟩,⟨['u','i','n','t','8'],none⟩]],0⟩

def packedText : JSONText :=
  let element (type : String) : JSONText := .object [("type",.string (ascii type))]
  .object [("abi",.array [element "int192",.array [element "bytes0",element "uint8"]])]

def packedLibs : Libs where
  json := { JSON.rejecting with
    decodeEVMStreamlined := fromTable [(packedText.bytes,packedOpts)]
    unmarshalEVMStreamlined := fromTable [(packedText.bytes,packedOpts)]
    unmarshalABIPayload := fromTable [(packedText.bytes,packedOpts.abi)] }
  decimalFromString := fromTable []
  sha256 := digest

def packedChannel : ChannelDefinition where
  reportFormat := .evmStreamlined
  streams := [⟨1,.median⟩,⟨2,.median⟩]
  opts := packedText.bytes
  tombstone := false
  source := 0
  disableNilStreamValues := false

def packedReport : ReportFields :=
  ⟨9,10,20,[some (.decimal ⟨-5,0⟩),some (.timestamped 7 (.decimal ⟨30,-1⟩))],false⟩

lemma readsStreamlined_packedLibs : packedLibs.json.ReadsStreamlined := by
  constructor
  · intro raw opts abi hopts habi
    have hopts' := mem_of_fromTable_eq_ok hopts
    have habi' := mem_of_fromTable_eq_ok habi
    rw [mem_singleton,Prod.mk.injEq] at hopts' habi'
    obtain ⟨rfl,rfl⟩ := hopts'
    exact ⟨rfl,habi'.2.symm⟩
  · intro opts h
    cases h

lemma packedChannel_accepted : AcceptedByCodec packedLibs rejectingExprs packedChannel := by decide +kernel

/-- 16 bytes of header, 24 of `int192`, none of `bytes0` and one of `uint8`. -/
theorem streamlined_packs_timestamped :
    AcceptedByCodec packedLibs rejectingExprs packedChannel ∧
      ∃ opts report, packedLibs.json.decodeEVMStreamlined packedChannel.opts = .ok opts ∧
        encodeEVMStreamlined packedLibs.json packedReport packedChannel (OptsCache.empty.set 9 packedText.bytes) = .ok report ∧
        streamlinedReportSize opts = .ok report.length ∧ report.length = 41 := by
  obtain ⟨opts,report,hopts,hreport,hsize,-⟩ :=
    @streamlined_packs packedLibs rejectingExprs packedChannel packedReport (OptsCache.empty.set 9 packedText.bytes)
      readsStreamlined_packedLibs rfl packedChannel_accepted rfl rfl (by decide)
  refine ⟨packedChannel_accepted,opts,report,hopts,hreport,hsize,?_⟩
  cases Except.ok.inj hopts
  exact (Except.ok.inj hsize).symm.trans rfl

end DataStreams
