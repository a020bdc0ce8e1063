import DataStreams.V31.Observation

/-! Framed payloads: a byte that names the codec, then the body. -/
namespace DataStreams.V31
def payloadCodecRaw : UInt8 := 0
def payloadCodecZstd : UInt8 := 1

/-- The limit of a value of the replicated state, raw and framed: two mebibytes. -/
def maxKVRecordBytes : ℕ := 2 * 1024 * 1024

def compressPayload (zstd : Bytes → Bytes) (raw : Bytes) (codec : UInt8) (what : String) : Except String (Option Bytes) :=
  if codec = payloadCodecRaw then .ok none
  else if codec = payloadCodecZstd then .ok (some (payloadCodecZstd :: zstd raw))
  else .error s!"unknown {what} codec {codec.toNat}"

/-- The shorter of the compressed and the raw form. -/
def shorterPayload (raw : Bytes) : Option Bytes → Bytes
  | none => payloadCodecRaw :: raw
  | some out => if out.length ≥ raw.length + 1 then payloadCodecRaw :: raw else out

def encodeFramedPayload (zstd : Bytes → Bytes) (raw : Bytes) (codec : UInt8) (maxRaw maxFramed : ℕ) (what : String) :
    Except String Bytes :=
  let maxRaw := if codec = payloadCodecRaw then min maxRaw (maxFramed - 1) else maxRaw
  if raw.length > maxRaw then .error s!"{what} too large: {raw.length} > {maxRaw} bytes"
  else do
    let compressed ← compressPayload zstd raw codec what
    let out := shorterPayload raw compressed
    if out.length > maxFramed then .error s!"framed {what} too large: {out.length} > {maxFramed} bytes"
    else .ok out

def encodeKVRecord (zstd : Bytes → Bytes) (raw : Bytes) (what : String) : Except String Bytes :=
  encodeFramedPayload zstd raw payloadCodecZstd maxKVRecordBytes maxKVRecordBytes what

def decodeKVRecord (W : WireLibs) (b : Bytes) (what : String) : Go Bytes := decodeFramedPayload W b maxKVRecordBytes what

/-- Bytes that are not empty and fit the decoder's memory are compressed to a frame that
declares their number, and decompressed to what they were. -/
structure ReadsZstd (W : WireLibs) (zstd : Bytes → Bytes) : Prop where
  size : ∀ raw ≠ [], raw.length ≤ maxObservationDecompressedBytes → W.zstdContentSize (zstd raw) = .ok (some raw.length)
  decode : ∀ raw ≠ [], raw.length ≤ maxObservationDecompressedBytes → W.zstdDecodeAll (zstd raw) = .ok raw

variable {W : WireLibs} {zstd : Bytes → Bytes} {raw b : Bytes} {maxOut : ℕ} {what : String}
lemma decodeFramedPayload_raw (hpos : 0 < maxOut) (h : raw.length ≤ maxOut) :
    decodeFramedPayload W (payloadCodecRaw :: raw) maxOut what = .ok raw := by
  rw [decodeFramedPayload,if_neg (by simp),if_neg hpos.ne']
  exact if_neg (not_lt.2 h)

lemma decodeFramedPayload_zstd (hz : ReadsZstd W zstd) (hne : raw ≠ []) (hmax : maxOut ≤ maxObservationDecompressedBytes)
    (h : raw.length ≤ maxOut) : decodeFramedPayload W (payloadCodecZstd :: zstd raw) maxOut what = .ok raw := by
  have hbody : decodeZstd W (zstd raw) maxOut what = .ok raw := by
    rw [decodeZstd,hz.size raw hne (h.trans hmax),Go.ok_bind]
    dsimp only
    rw [if_neg (not_lt.2 h),hz.decode raw hne (h.trans hmax),Go.ok_bind,if_neg (not_lt.2 h)]
  rw [decodeFramedPayload,if_neg (by simp),if_neg ((List.length_pos_iff.2 hne).trans_le h).ne']
  exact congrArg Go.ofExcept hbody

lemma encodeFramedPayload_eq_ok {maxRaw maxFramed : ℕ} :
    encodeFramedPayload zstd raw payloadCodecZstd maxRaw maxFramed what = .ok b ↔ raw.length ≤ maxRaw ∧
      b.length ≤ maxFramed ∧ shorterPayload raw (some (payloadCodecZstd :: zstd raw)) = b := by
  have hcodec : ¬ payloadCodecZstd = payloadCodecRaw := by decide
  rw [encodeFramedPayload]
  simp only [if_neg hcodec]
  by_cases hraw : raw.length > maxRaw
  · rw [if_pos hraw]
    exact iff_of_false nofun fun h => absurd h.1 (not_le.2 hraw)
  rw [if_neg hraw,compressPayload,if_neg hcodec,if_pos rfl,Go.ok_bind]
  constructor
  · intro h
    split_ifs at h with hframed
    cases h
    exact ⟨not_lt.1 hraw,not_lt.1 hframed,rfl⟩
  · rintro ⟨_,hframed,rfl⟩
    rw [if_neg (not_lt.2 hframed)]

lemma encodeKVRecord_eq_ok : encodeKVRecord zstd raw what = .ok b ↔ raw.length ≤ maxKVRecordBytes ∧
    b.length ≤ maxKVRecordBytes ∧ shorterPayload raw (some (payloadCodecZstd :: zstd raw)) = b :=
  encodeFramedPayload_eq_ok

lemma shorterPayload_ne_nil : shorterPayload raw (some (payloadCodecZstd :: zstd raw)) ≠ [] := by
  rw [shorterPayload]
  split_ifs
  · exact List.cons_ne_nil _ _
  · exact List.cons_ne_nil _ _

/-- What was framed is read back. No bytes at all are framed raw, whatever the encoder
makes of them. -/
lemma decodeFramedPayload_shorterPayload (hz : ReadsZstd W zstd) (hpos : 0 < maxOut)
    (hmax : maxOut ≤ maxObservationDecompressedBytes) (h : raw.length ≤ maxOut) :
    decodeFramedPayload W (shorterPayload raw (some (payloadCodecZstd :: zstd raw))) maxOut what = .ok raw := by
  rw [shorterPayload]
  split_ifs with hlong
  · exact decodeFramedPayload_raw hpos h
  · have hne : raw ≠ [] := by
      rintro rfl
      simp at hlong
    exact decodeFramedPayload_zstd hz hne hmax h

lemma decodeKVRecord_encodeKVRecord (hz : ReadsZstd W zstd) (h : encodeKVRecord zstd raw what = .ok b) (what' : String) :
    decodeKVRecord W b what' = .ok raw := by
  obtain ⟨hle,_,rfl⟩ := encodeKVRecord_eq_ok.1 h
  exact decodeFramedPayload_shorterPayload hz (by decide) (by decide) hle

/-- A record that leaves room for the codec byte is framed within the limit. -/
lemma encodeKVRecord_returns (h : raw.length < maxKVRecordBytes) : ∃ b, encodeKVRecord zstd raw what = .ok b := by
  refine ⟨_,encodeKVRecord_eq_ok.2 ⟨h.le,?_,rfl⟩⟩
  rw [shorterPayload]
  split_ifs with hlong
  · exact h
  · omega

end DataStreams.V31
