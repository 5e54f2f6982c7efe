import PurcFetcher.Cache.Storage
import PurcFetcher.Wtf.Persistence

/-!
# Record files

A record file begins with the meta data of the record and a checksum of it.  The header
follows, and then the body, unless it is so large that it was stored as a blob.  The meta
data has the sizes and the salted SHA-1 digests of both.  A body that is not in the file
is taken from the blob if the digest of the blob is the expected one.

Nothing here depends on what SHA-1 computes: what is read is what was written, and equal
bytes have equal digests.
-/

namespace PurcFetcher.Cache

open Persistence List

/-! ## Data -/

namespace Data

def concatenate : Data → Data → Data
  | none, right => right
  | left, none => left
  | some left, some right => some (left ++ right)

/-- What `soup_buffer_new_subbuffer` makes of a range that lies in the buffer. -/
def subrange (data : Data) (offset size : ℕ) : Data :=
  data.map fun bytes => (bytes.drop offset).take size

theorem concatenate_some (left : List UInt8) (right : Data) :
    concatenate (some left) right = some (left ++ right.bytes) := by
  cases right with
  | none => exact congrArg some (append_nil left).symm
  | some => rfl

end Data

/-! ## Blobs -/

structure Blob where
  data : Data
  hash : Digest

/-- The blobs by their digests, and the links to them beside the record files. -/
structure BlobStorage where
  blobs : Finmap fun _ : Digest => List UInt8
  links : Finmap fun _ : Path => List UInt8

section

variable (sha1 : List UInt8 → Digest) (salt : List UInt8)

def computeSHA1 (data : Data) : Digest := sha1 (salt ++ data.bytes)

namespace BlobStorage

/-- `add`, when links can be made.  `mapped` tells whether `mapToFile` has made the
file. -/
def add (storage : BlobStorage) (path : Path) (data : Data) (mapped : Bool) :
    BlobStorage × Option Blob :=
  let hash := computeSHA1 sha1 salt data
  if data.size = 0 then (storage, some ⟨data, hash⟩)
  else
    let links := storage.links.erase path
    match storage.blobs.lookup hash with
    | some existing =>
      if existing = data.bytes then
        (⟨storage.blobs, links.insert path existing⟩, some ⟨some existing, hash⟩)
      else if mapped then
        (⟨(storage.blobs.erase hash).insert hash data.bytes, links.insert path data.bytes⟩,
          some ⟨some data.bytes, hash⟩)
      else (⟨storage.blobs.erase hash, links⟩, none)
    | none =>
      if mapped then
        (⟨storage.blobs.insert hash data.bytes, links.insert path data.bytes⟩,
          some ⟨some data.bytes, hash⟩)
      else (⟨storage.blobs, links⟩, none)

def get (storage : BlobStorage) (path : Path) : Blob :=
  let data := storage.links.lookup path
  ⟨data, computeSHA1 sha1 salt data⟩

/-- A blob that was added has the bytes and the digest of the data, and so has what is
found under its path. -/
theorem get_add {storage : BlobStorage} {path : Path} {data : Data} {mapped : Bool}
    {blob : Blob} (hlarge : data.size ≠ 0)
    (hblob : (storage.add sha1 salt path data mapped).2 = some blob) :
    blob.hash = computeSHA1 sha1 salt data ∧
      (storage.add sha1 salt path data mapped).1.get sha1 salt path =
        ⟨some data.bytes, computeSHA1 sha1 salt data⟩ := by
  rw [add.eq_def] at hblob ⊢
  simp only [hlarge, if_false] at hblob ⊢
  have hlinked (blobs : Finmap fun _ : Digest => List UInt8) :
      get sha1 salt ⟨blobs, (storage.links.erase path).insert path data.bytes⟩ path =
        ⟨some data.bytes, computeSHA1 sha1 salt data⟩ := by
    simp only [get, Finmap.lookup_insert]
    rfl
  split at hblob
  · grind
  · grind

end BlobStorage

/-! ## Meta data -/

/-- `Storage::version`. -/
def storageVersion : UInt32 := 16

structure RecordMetaData where
  cacheStorageVersion : UInt32
  key : Key
  timeStamp : WallTime
  headerHash : Digest
  headerSize : UInt64
  bodyHash : Digest
  bodySize : UInt64
  isBodyInline : Bool

/-- `Key::operator==`. -/
def Key.equal (left right : Key) : Bool :=
  left.hash = right.hash && left.partition = right.partition && left.type = right.type &&
    left.identifier = right.identifier && left.range = right.range

theorem Key.equal_self (key : Key) : key.equal key := by
  simp [equal]

variable (width : StringWidth)

/-- `Key::encode`. -/
def Key.encode (key : Key) (encoder : Encoder) : Encoder :=
  encoder.encodeString width key.partition
    |>.encodeString width key.type
    |>.encodeString width key.identifier
    |>.encodeString width key.range
    |>.encodeDigest key.hash
    |>.encodeDigest key.partitionHash

/-- `Key::decode`. -/
def Key.decode : Decode Key := do
  let partition ← decodeString
  let type ← decodeString
  let identifier ← decodeString
  let range ← decodeString
  let hash ← decodeDigest
  let partitionHash ← decodeDigest
  return ⟨partition, type, identifier, range, hash, partitionHash⟩

def encodeRecordMetaData (metaData : RecordMetaData) : Encoder :=
  Encoder.empty.encodeUInt32 metaData.cacheStorageVersion
    |> metaData.key.encode width
    |>.encodeDouble metaData.timeStamp.bits
    |>.encodeDigest metaData.headerHash
    |>.encodeUInt64 metaData.headerSize
    |>.encodeDigest metaData.bodyHash
    |>.encodeUInt64 metaData.bodySize
    |>.encodeBool metaData.isBodyInline
    |>.encodeChecksum sha1

/-- `decodeRecordMetaData` from the beginning of the file. -/
def decodeRecordMetaData : Decode RecordMetaData := do
  let cacheStorageVersion ← decodeUInt32
  let key ← Key.decode
  let timeStamp ← decodeDouble
  let headerHash ← decodeDigest
  let headerSize ← decodeUInt64
  let bodyHash ← decodeDigest
  let bodySize ← decodeUInt64
  let isBodyInline ← decodeBool
  verifyChecksum sha1
  return ⟨cacheStorageVersion, key, ⟨timeStamp⟩, headerHash, headerSize, bodyHash, bodySize,
    isBodyInline⟩

/-! ## Encoding -/

/-- The meta data of a record.  `blob` is what its body was stored as. -/
def metaDataOf (record : Record) (blob : Option Blob) : RecordMetaData where
  cacheStorageVersion := storageVersion
  key := record.key
  timeStamp := record.timeStamp
  headerHash := computeSHA1 sha1 salt record.header
  headerSize := .ofNat record.header.size
  bodyHash :=
    match blob with
    | some blob => blob.hash
    | none => computeSHA1 sha1 salt record.body
  bodySize := .ofNat record.body.size
  isBodyInline := blob.isNone

def encodeRecord (record : Record) (blob : Option Blob) : Data :=
  let metaData := metaDataOf sha1 salt record blob
  let encodedMetaData := encodeRecordMetaData sha1 width metaData
  let headerData := Data.concatenate (some encodedMetaData.buffer) record.header
  if metaData.isBodyInline then Data.concatenate headerData record.body else headerData

/-- What `dispatchWriteOperation` writes: the record file, and the blob of a body that is
larger than `maximumInlineBodySize`. -/
def writeRecord (maximumInlineBodySize : ℕ) (storage : BlobStorage) (record : Record)
    (mapped : Bool) : Data × BlobStorage :=
  if record.body.size > maximumInlineBodySize then
    let added := storage.add sha1 salt record.key.recordPath record.body mapped
    (encodeRecord sha1 salt width record added.2, added.1)
  else (encodeRecord sha1 salt width record none, storage)

/-! ## Decoding -/

/-- The meta data, the offset of the header and the header. -/
def decodeRecordHeader (fileData : Data) : Option (RecordMetaData × ℕ × Data) :=
  if fileData.size = 0 then none
  else do
    let (metaData, decoder) ← decodeRecordMetaData sha1 ⟨fileData.bytes, 0, []⟩
    if metaData.cacheStorageVersion ≠ storageVersion then none
    else
      let headerData := fileData.subrange decoder.currentOffset metaData.headerSize.toNat
      if metaData.headerHash ≠ computeSHA1 sha1 salt headerData then none
      else some (metaData, decoder.currentOffset, headerData)

/-- `readRecord`: the record, without a body that is not in the file, and the expected
digest of the body. -/
def readRecord (key : Key) (now : WallTime) (recordData : Data) : Option (Record × Digest) := do
  let (metaData, headerOffset, headerData) ← decodeRecordHeader sha1 salt recordData
  if ¬ metaData.key.equal key then none
  -- Sanity check against time stamps in future.
  else if now.lt metaData.timeStamp then none
  else if metaData.isBodyInline then
    let bodyOffset := headerOffset + headerData.size
    if (bodyOffset + metaData.bodySize.toNat) % 2 ^ 64 ≠ recordData.size % 2 ^ 64 then none
    else
      let bodyData := recordData.subrange bodyOffset metaData.bodySize.toNat
      if metaData.bodyHash ≠ computeSHA1 sha1 salt bodyData then none
      else some (⟨metaData.key, metaData.timeStamp, headerData, bodyData⟩, metaData.bodyHash)
  else some (⟨metaData.key, metaData.timeStamp, headerData, none⟩, metaData.bodyHash)

/-- `ReadOperation::finish` of a read that was not canceled: the record that the
completion handler is given. -/
def finishRead (result : Option (Record × Digest)) (resultBodyBlob : Blob) : Option Record :=
  match result with
  | none => none
  | some (record, expectedBodyHash) =>
    match record.body with
    | none =>
      if resultBodyBlob.hash = expectedBodyHash then
        some { record with body := resultBodyBlob.data }
      else none
    | some _ => some record

/-- A record is written, and then the file and the blob of its key are read. -/
def readBack (maximumInlineBodySize : ℕ) (storage : BlobStorage) (record : Record)
    (mapped : Bool) (now : WallTime) : Option Record :=
  let written := writeRecord sha1 salt width maximumInlineBodySize storage record mapped
  finishRead (readRecord sha1 salt record.key now written.1)
    (written.2.get sha1 salt record.key.recordPath)

/-! ## Reading back -/

/-- What the types of the source can hold: strings not longer than
`String::MaxLength`, and sizes that are a `size_t`. -/
structure Record.Representable (record : Record) : Prop where
  strings : ∀ text ∈ [record.key.partition, record.key.type, record.key.identifier,
    record.key.range], ∀ units, text = some units → units.length < 2 ^ 31
  header : record.header.size < 2 ^ 64
  body : record.body.size < 2 ^ 64

variable {record : Record}

section

variable (hrec : record.Representable)
include hrec

theorem Record.Representable.decodes (text : Text)
    (htext : text ∈ [record.key.partition, record.key.type, record.key.identifier,
      record.key.range]) (enc : Encoder) :
    Decodes decodeString text enc (enc.encodeString width text) := by
  apply Decodes.string
  intro units hunits
  have hlen := hrec.strings text htext units hunits
  omega

theorem decodes_key (enc : Encoder) :
    Decodes Key.decode record.key enc (record.key.encode width enc) := by
  refine Decodes.bind (hrec.decodes width record.key.partition (by simp) _) _ ?_
  refine Decodes.bind (hrec.decodes width record.key.type (by simp) _) _ ?_
  refine Decodes.bind (hrec.decodes width record.key.identifier (by simp) _) _ ?_
  refine Decodes.bind (hrec.decodes width record.key.range (by simp) _) _ ?_
  refine Decodes.bind (Decodes.digest _ record.key.hash) _ ?_
  exact Decodes.bind (Decodes.digest _ record.key.partitionHash) _ (Decodes.pure _ _)

theorem decodes_metaData (blob : Option Blob) :
    Decodes (decodeRecordMetaData sha1) (metaDataOf sha1 salt record blob) .empty
      (encodeRecordMetaData sha1 width (metaDataOf sha1 salt record blob)) := by
  refine Decodes.bind (Decodes.uint32 _ storageVersion) _ ?_
  refine Decodes.bind (decodes_key width hrec _) _ ?_
  refine Decodes.bind (Decodes.double _ record.timeStamp.bits) _ ?_
  refine Decodes.bind (Decodes.digest _ (computeSHA1 sha1 salt record.header)) _ ?_
  refine Decodes.bind (Decodes.uint64 _ (.ofNat record.header.size)) _ ?_
  refine Decodes.bind (Decodes.digest _ (metaDataOf sha1 salt record blob).bodyHash) _ ?_
  refine Decodes.bind (Decodes.uint64 _ (.ofNat record.body.size)) _ ?_
  refine Decodes.bind (Decodes.bool _ blob.isNone) _ ?_
  exact Decodes.bind (Decodes.checksum _ sha1) _ (Decodes.pure _ _)

end

theorem encodeRecord_eq (blob : Option Blob) :
    encodeRecord sha1 salt width record blob =
      some ((encodeRecordMetaData sha1 width (metaDataOf sha1 salt record blob)).buffer ++
        (record.header.bytes ++ if blob.isNone then record.body.bytes else [])) := by
  rw [encodeRecord, Data.concatenate_some]
  change (if blob.isNone then _ else _) = _
  cases blob with
  | none =>
    simp only [Option.isNone_none, if_true]
    rw [Data.concatenate_some, append_assoc]
  | some =>
    simp only [Option.isNone_some, Bool.false_eq_true, if_false]
    rw [append_nil]

theorem toNat_ofNat_size {data : Data} (hsize : data.size < 2 ^ 64) :
    (UInt64.ofNat data.size).toNat = data.bytes.length :=
  Nat.mod_eq_of_lt hsize

/-- The header of a record file is the header of the record. -/
theorem decodeRecordHeader_encodeRecord (hrec : record.Representable) (blob : Option Blob) :
    decodeRecordHeader sha1 salt (encodeRecord sha1 salt width record blob) =
      some (metaDataOf sha1 salt record blob,
        (encodeRecordMetaData sha1 width (metaDataOf sha1 salt record blob)).buffer.length,
        some record.header.bytes) := by
  have hdecodes := decodes_metaData sha1 salt width hrec blob
  rw [encodeRecord_eq]
  generalize hrest : (record.header.bytes ++ if blob.isNone then record.body.bytes else []) = rest
  generalize henc : encodeRecordMetaData sha1 width (metaDataOf sha1 salt record blob) =
    encoder at hdecodes ⊢
  have hmetaData := hdecodes.reads (encoder.buffer ++ rest) (prefix_append _ _)
  have hheader : ((encoder.buffer ++ rest).drop encoder.buffer.length).take
      (metaDataOf sha1 salt record blob).headerSize.toNat = record.header.bytes := by
    rw [drop_left, ← hrest]
    change List.take (UInt64.ofNat record.header.size).toNat _ = _
    rw [toNat_ofNat_size hrec.header, take_left]
  -- Without a byte there would be no version to decode.
  have hnonempty : Data.size (some (encoder.buffer ++ rest)) ≠ 0 := by
    intro hzero
    have hnil : encoder.buffer ++ rest = [] := length_eq_zero_iff.1 hzero
    rw [hnil] at hmetaData
    exact nomatch hmetaData
  rw [decodeRecordHeader, if_neg hnonempty]
  change (decodeRecordMetaData sha1 (Encoder.empty.reader (encoder.buffer ++ rest))).bind _ = _
  rw [hmetaData, Option.bind_some]
  simp only [Data.subrange, Option.map_some, Encoder.reader, hheader]
  have hversion : (metaDataOf sha1 salt record blob).cacheStorageVersion = storageVersion := rfl
  have hhash : (metaDataOf sha1 salt record blob).headerHash =
      computeSHA1 sha1 salt (some record.header.bytes) := rfl
  rw [if_neg (not_not.2 hversion), if_neg (not_not.2 hhash)]

variable {sha1 salt width}

/-- A record file with the body in it. -/
theorem readRecord_encodeRecord_inline (hrec : record.Representable) (now : WallTime) :
    readRecord sha1 salt record.key now (encodeRecord sha1 salt width record none) =
      if now.lt record.timeStamp then none
      else some (⟨record.key, record.timeStamp, some record.header.bytes,
        some record.body.bytes⟩, computeSHA1 sha1 salt record.body) := by
  have hbody := toNat_ofNat_size hrec.body
  rw [readRecord, decodeRecordHeader_encodeRecord sha1 salt width hrec, encodeRecord_eq]
  generalize encodeRecordMetaData sha1 width (metaDataOf sha1 salt record none) = encoder
  simp only [Option.isNone_none, if_true, ← append_assoc]
  have hsize : (encoder.buffer.length + Data.size (some record.header.bytes) +
      (UInt64.ofNat record.body.size).toNat) % 2 ^ 64 = Data.size (some
        (encoder.buffer ++ record.header.bytes ++ record.body.bytes)) % 2 ^ 64 := by
    rw [hbody]
    simp only [Data.size, Data.bytes, Option.getD_some, length_append]
  have hrange : Data.subrange (some (encoder.buffer ++ record.header.bytes ++ record.body.bytes))
      (encoder.buffer.length + Data.size (some record.header.bytes))
      (UInt64.ofNat record.body.size).toNat = some record.body.bytes := by
    have hoffset : encoder.buffer.length + Data.size (some record.header.bytes) =
        (encoder.buffer ++ record.header.bytes).length := length_append.symm
    rw [Data.subrange, Option.map_some, hbody, hoffset, drop_left, take_length]
  have hhash : computeSHA1 sha1 salt record.body =
      computeSHA1 sha1 salt (some record.body.bytes) := rfl
  change (if ¬ record.key.equal record.key then none
    else if now.lt record.timeStamp then none
    else if true = true then
      if (_ + Data.size _ + (UInt64.ofNat record.body.size).toNat) % _ ≠ _ then none
      else if computeSHA1 sha1 salt record.body ≠ computeSHA1 sha1 salt (Data.subrange _ _
          (UInt64.ofNat record.body.size).toNat) then none
      else some (Record.mk _ _ _ (Data.subrange _ _ (UInt64.ofNat record.body.size).toNat), _)
    else _) = _
  rw [if_neg (not_not.2 record.key.equal_self), if_pos rfl, if_neg (not_not.2 hsize), hrange,
    if_neg (not_not.2 hhash)]
  rfl

/-- A record is read back with the bytes of its header and its body, unless its time
stamp is in the future. -/
theorem readBack_eq (maximumInlineBodySize : ℕ) (storage : BlobStorage) (mapped : Bool)
    (now : WallTime) (hrec : record.Representable) :
    readBack sha1 salt width maximumInlineBodySize storage record mapped now =
      if now.lt record.timeStamp then none
      else some ⟨record.key, record.timeStamp, some record.header.bytes,
        some record.body.bytes⟩ := by
  have hinline (storage : BlobStorage) :
      finishRead (readRecord sha1 salt record.key now (encodeRecord sha1 salt width record none))
          (storage.get sha1 salt record.key.recordPath) =
        if now.lt record.timeStamp then none
        else some ⟨record.key, record.timeStamp, some record.header.bytes,
          some record.body.bytes⟩ := by
    rw [readRecord_encodeRecord_inline hrec]
    cases now.lt record.timeStamp <;> rfl
  rw [readBack, writeRecord]
  split
  · next hlarge =>
    have hsize : record.body.size ≠ 0 := Nat.ne_zero_of_lt hlarge
    dsimp only
    cases hblob : (storage.add sha1 salt record.key.recordPath record.body mapped).2 with
    | none => exact hinline _
    | some blob =>
      obtain ⟨hhash, hget⟩ := BlobStorage.get_add sha1 salt hsize hblob
      rw [readRecord, decodeRecordHeader_encodeRecord sha1 salt width hrec, hget]
      change finishRead (if ¬ record.key.equal record.key then none
        else if now.lt record.timeStamp then none
        else some (⟨record.key, record.timeStamp, some record.header.bytes, none⟩, blob.hash)) _ = _
      rw [if_neg (not_not.2 record.key.equal_self), hhash]
      cases now.lt record.timeStamp with
      | true => rfl
      | false => simp only [Bool.false_eq_true, if_false, finishRead, if_true]
  · exact hinline storage

end

/-- A record whose time stamp is not in the future when it is read is read back with its
key, its time stamp and the bytes of its header and its body, whether the body is in the
file or in a blob. -/
theorem written_record_reads_back (sha1 : List UInt8 → Digest) (salt : List UInt8)
    (width : StringWidth) (maximumInlineBodySize : ℕ) (storage : BlobStorage)
    (record : Record) (mapped : Bool) (now : WallTime) (hrecord : record.Representable)
    (hnow : now.lt record.timeStamp = false) :
    ∃ result,
      readBack sha1 salt width maximumInlineBodySize storage record mapped now =
          some result ∧
        result.key = record.key ∧ result.timeStamp = record.timeStamp ∧
        result.header.bytes = record.header.bytes ∧ result.body.bytes = record.body.bytes := by
  rw [readBack_eq _ _ _ _ hrecord, hnow]
  exact ⟨_, rfl, rfl, rfl, rfl, rfl⟩

theorem Record.sample_representable (type : UInt16) (byte : UInt8) (timeStamp : WallTime) :
    Record.Representable { Record.sample type byte with timeStamp := timeStamp } where
  strings := by grind [Record.sample]
  header := Nat.one_lt_two_pow (by decide)
  body := Nat.one_lt_two_pow (by decide)

/-- Strings that are never kept with one byte for each character. -/
def wideStrings : StringWidth := .wide

theorem written_record_reads_back_blob :
    ∃ result,
      readBack (fun _ => .replicate 20 0) [] wideStrings 0 ⟨∅, ∅⟩ (.sample 1 7) true ⟨1⟩ =
          some result ∧
        result.key = (Record.sample 1 7).key ∧
        result.timeStamp = (Record.sample 1 7).timeStamp ∧
        result.header.bytes = (Record.sample 1 7).header.bytes ∧
        result.body.bytes = (Record.sample 1 7).body.bytes :=
  written_record_reads_back _ _ _ _ _ _ _ _ (Record.sample_representable 1 7 ⟨0⟩) (by decide)

/-- A record with a time stamp of one second is read at zero seconds. -/
theorem future_record_is_not_read_back :
    Record.Representable { Record.sample 1 7 with timeStamp := ⟨0x3ff0000000000000⟩ } ∧
      ∀ sha1 salt width maximumInlineBodySize storage mapped,
        readBack sha1 salt width maximumInlineBodySize storage
          { Record.sample 1 7 with timeStamp := ⟨0x3ff0000000000000⟩ } mapped ⟨0⟩ = none := by
  have hrecord := Record.sample_representable 1 7 ⟨0x3ff0000000000000⟩
  refine ⟨hrecord, fun sha1 salt width maximumInlineBodySize storage mapped => ?_⟩
  rw [readBack_eq _ _ _ _ hrecord]
  exact if_pos (by decide)

end PurcFetcher.Cache
