import PurcFetcher.Cache.RecordFile

/-!
# Ranges of a record file

`Data::subrange` takes a part of the data without a test whether the part lies in it.  The
functions that read a record are stated here once more with the test, and with an outcome of
their own for a range that is not in the file.  Where there is no such range they are the
functions that read a record.

The range of the header comes from the meta data as it is.  The range of the body is compared
with the size of the file, and always lies in the file if the range of the header does.
-/

namespace PurcFetcher.Cache

structure Range where
  offset : ℕ
  size : ℕ
  deriving DecidableEq

/-- The data of a file, whose size is a `size_t`. -/
structure FileData where
  data : Data
  size_lt : data.size < 2 ^ 64

def Range.Inside (range : Range) (file : FileData) : Prop :=
  range.offset + range.size ≤ file.data.size

instance (range : Range) (file : FileData) : Decidable (range.Inside file) :=
  inferInstanceAs (Decidable (_ ≤ _))

/-- A result, or the range that was asked for and does not lie in the file. -/
abbrev Access := Except Range

def FileData.subrange (file : FileData) (range : Range) : Access Data :=
  if range.Inside file then .ok (file.data.subrange range.offset range.size) else .error range

section

variable (sha1 : List UInt8 → Digest) (salt : List UInt8) (file : FileData)

/-- The meta data of the file with the right version, and where the header begins. -/
def versionedMetaData : Option (RecordMetaData × ℕ) :=
  if file.data.size = 0 then none
  else do
    let (metaData, decoder) ← decodeRecordMetaData sha1 ⟨file.data.bytes, 0, []⟩
    if metaData.cacheStorageVersion ≠ storageVersion then none
    else some (metaData, decoder.currentOffset)

def headerRange (metaData : RecordMetaData × ℕ) : Range :=
  ⟨metaData.2, metaData.1.headerSize.toNat⟩

/-- `decodeRecordHeader`. -/
def accessRecordHeader : Access (Option (RecordMetaData × ℕ × Data)) :=
  match versionedMetaData sha1 file with
  | none => .ok none
  | some metaData => do
    let headerData ← file.subrange (headerRange metaData)
    if metaData.1.headerHash ≠ computeSHA1 sha1 salt headerData then return none
    else return some (metaData.1, metaData.2, headerData)

/-- `readRecord`. -/
def accessRecord (key : Key) (now : WallTime) : Access (Option (Record × Digest)) := do
  match ← accessRecordHeader sha1 salt file with
  | none => return none
  | some (metaData, headerOffset, headerData) =>
    if ¬ metaData.key.equal key then return none
    else if now.lt metaData.timeStamp then return none
    else if metaData.isBodyInline then
      let bodyOffset := headerOffset + headerData.size
      if (bodyOffset + metaData.bodySize.toNat) % 2 ^ 64 ≠ file.data.size % 2 ^ 64 then
        return none
      else
        let bodyData ← file.subrange ⟨bodyOffset, metaData.bodySize.toNat⟩
        if metaData.bodyHash ≠ computeSHA1 sha1 salt bodyData then return none
        else
          return some (⟨metaData.key, metaData.timeStamp, headerData, bodyData⟩, metaData.bodyHash)
    else return some (⟨metaData.key, metaData.timeStamp, headerData, none⟩, metaData.bodyHash)

/-- The header that the meta data speaks of lies in the file. -/
def HeaderInside : Prop :=
  ∀ metaData ∈ versionedMetaData sha1 file, (headerRange metaData).Inside file

/-- Only ranges of the file are asked for, whichever record is looked for. -/
def OnlyInside : Prop :=
  accessRecordHeader sha1 salt file = .ok (decodeRecordHeader sha1 salt file.data) ∧
    ∀ key now, accessRecord sha1 salt file key now = .ok (readRecord sha1 salt key now file.data)

/-! ## The header -/

theorem decodeRecordHeader_eq :
    decodeRecordHeader sha1 salt file.data = (versionedMetaData sha1 file).bind fun metaData =>
        let headerData := file.data.subrange metaData.2 metaData.1.headerSize.toNat
        if metaData.1.headerHash ≠ computeSHA1 sha1 salt headerData then none
        else some (metaData.1, metaData.2, headerData) := by
  rw [decodeRecordHeader, versionedMetaData]
  split
  · rfl
  · cases decodeRecordMetaData sha1 ⟨file.data.bytes, 0, []⟩ with
    | none => rfl
    | some decoded => grind

variable {sha1 file}

theorem accessRecordHeader_of_inside (hinside : HeaderInside sha1 file) :
    accessRecordHeader sha1 salt file = .ok (decodeRecordHeader sha1 salt file.data) := by
  rw [accessRecordHeader, decodeRecordHeader_eq]
  cases hmetaData : versionedMetaData sha1 file with
  | none => rfl
  | some metaData =>
    have hheader := hinside metaData hmetaData
    dsimp only
    rw [FileData.subrange, if_pos hheader]
    exact (apply_ite Except.ok _ _ _).symm

theorem accessRecordHeader_of_outside {metaData : RecordMetaData × ℕ}
    (hmetaData : versionedMetaData sha1 file = some metaData)
    (houtside : ¬ (headerRange metaData).Inside file) :
    accessRecordHeader sha1 salt file = .error (headerRange metaData) := by
  rw [accessRecordHeader, hmetaData]
  dsimp only
  rw [FileData.subrange, if_neg houtside]
  rfl

/-! ## The body -/

theorem size_subrange {range : Range} (hinside : range.Inside file) (hdata : file.data.size ≠ 0) :
    (file.data.subrange range.offset range.size).size = range.size := by
  obtain ⟨data, hsize⟩ := file
  cases data with
  | none => exact absurd rfl hdata
  | some bytes =>
    have hle : range.offset + range.size ≤ bytes.length := hinside
    change ((bytes.drop range.offset).take range.size).length = range.size
    rw [List.length_take, List.length_drop]
    omega

theorem headerEnd_le (hinside : HeaderInside sha1 file) {metaData : RecordMetaData}
    {headerOffset : ℕ} {headerData : Data}
    (hdecoded : decodeRecordHeader sha1 salt file.data =
      some (metaData, headerOffset, headerData)) :
    headerOffset + headerData.size ≤ file.data.size := by
  rw [decodeRecordHeader_eq, Option.bind_eq_some_iff] at hdecoded
  obtain ⟨decoded, hmetaData, hheader⟩ := hdecoded
  have hrange := hinside decoded hmetaData
  have hnonempty : file.data.size ≠ 0 := by grind [versionedMetaData]
  dsimp only at hheader
  split at hheader
  · exact absurd hheader.symm (Option.some_ne_none _)
  · cases hheader
    calc decoded.2 + Data.size (Data.subrange file.data decoded.2 decoded.1.headerSize.toNat)
        = decoded.2 + decoded.1.headerSize.toNat :=
          congrArg (decoded.2 + ·) (size_subrange hrange hnonempty)
      _ ≤ file.data.size := hrange

theorem accessRecord_of_inside (hinside : HeaderInside sha1 file) (key : Key) (now : WallTime) :
    accessRecord sha1 salt file key now = .ok (readRecord sha1 salt key now file.data) := by
  rw [accessRecord, accessRecordHeader_of_inside salt hinside, readRecord]
  cases hdecoded : decodeRecordHeader sha1 salt file.data with
  | none => rfl
  | some decoded =>
    obtain ⟨metaData, headerOffset, headerData⟩ := decoded
    have hoffset := headerEnd_le salt hinside hdecoded
    change (if _ then _ else if _ then _ else if _ then _ else _) =
      Except.ok (if _ then _ else if _ then _ else if _ then _ else _)
    by_cases hkey : ¬ metaData.key.equal key
    · rw [if_pos hkey, if_pos hkey]
      rfl
    rw [if_neg hkey, if_neg hkey]
    by_cases hfuture : now.lt metaData.timeStamp = true
    · rw [if_pos hfuture, if_pos hfuture]
      rfl
    rw [if_neg hfuture, if_neg hfuture]
    by_cases hinline : metaData.isBodyInline = true
    · rw [if_pos hinline, if_pos hinline]
      by_cases hends : (headerOffset + headerData.size + metaData.bodySize.toNat) % 2 ^ 64 ≠
          file.data.size % 2 ^ 64
      · rw [if_pos hends, if_pos hends]
        rfl
      · -- A sum that wraps around ends before the body begins.
        have hinside :
            Range.Inside ⟨headerOffset + headerData.size, metaData.bodySize.toNat⟩ file := by
          have hsize := file.size_lt
          have hbody := metaData.bodySize.toNat_lt
          have hsum := not_not.1 hends
          dsimp only [Range.Inside]
          omega
        rw [if_neg hends, if_neg hends, FileData.subrange, if_pos hinside]
        exact (apply_ite Except.ok _ _ _).symm
    · rw [if_neg hinline, if_neg hinline]
      rfl

variable (sha1 file)

end

/-! ## A file that was cut off -/

/-- The file of a small record, cut off after the meta data. -/
def cutFile : FileData where
  data := some (encodeRecordMetaData (fun _ => .replicate 20 0) .wide
    (metaDataOf (fun _ => .replicate 20 0) [] (.sample 1 7) none)).buffer
  size_lt := by decide +kernel

end PurcFetcher.Cache
