import PurcFetcher.Core.BloomFilter
import PurcFetcher.Core.Bytes

/-!
# Keys and records of the network cache

A key carries its hash, and the hash names the record file: the file of a key lies in the
directory of its partition and type under the hash, and the blob of the body beside it.
-/

namespace PurcFetcher.Cache

/-- A `SHA1::Digest`. -/
abbrev Digest := Vector UInt8 20

abbrev Text := Option (List UInt16)

/-- A `Data`, null or its bytes. -/
abbrev Data := Option (List UInt8)

namespace Data

def bytes (data : Data) : List UInt8 := data.getD []

def size (data : Data) : ℕ := data.bytes.length

end Data

/-- The keys of one storage are made with one salt, so that equal partitions have equal
partition hashes. -/
structure Key where
  partition : Text
  type : Text
  identifier : Text
  range : Text
  hash : Digest
  partitionHash : Digest
  deriving DecidableEq

/-- The place of a record file in the records directory. -/
structure Path where
  partitionHash : Digest
  type : Text
  hash : Digest
  deriving DecidableEq

/-- `recordPathForKey`. -/
def Key.recordPath (key : Key) : Path := ⟨key.partitionHash, key.type, key.hash⟩

@[simp]
theorem Key.recordPath_hash (key : Key) : key.recordPath.hash = key.hash := rfl

/-- A time in seconds, the bits of a double. -/
structure WallTime where
  bits : UInt64
  deriving DecidableEq

namespace WallTime

def magnitude (time : WallTime) : ℕ := time.bits.toNat % 2 ^ 63

def isNaN (time : WallTime) : Bool := 0x7ff0000000000000 < time.magnitude

/-- Doubles that are not NaN are ordered as sign and magnitude. -/
def rank (time : WallTime) : ℤ :=
  if time.bits.toNat < 2 ^ 63 then time.magnitude else -time.magnitude

/-- `operator<`, which is false for NaN. -/
def lt (left right : WallTime) : Bool :=
  !left.isNaN && !right.isNaN && left.rank < right.rank

end WallTime

structure Record where
  key : Key
  timeStamp : WallTime
  header : Data
  body : Data
  deriving DecidableEq

/-- A small record of the key whose hash is the byte over and over. -/
def Record.sample (type : UInt16) (byte : UInt8) : Record where
  key := ⟨none, some [type], some [byte.toUInt16], none, .replicate 20 byte, .replicate 20 0⟩
  timeStamp := ⟨0⟩
  header := some [byte]
  body := some [byte]

/-! ## The contents filter, a `BloomFilter<18>` -/

def keyBits : ℕ := 18

/-- The two positions of a hash: its first two 32-bit words, cut to the table. -/
def keysFromHash (hash : Digest) : List ℕ :=
  [Bytes.ofLittleEndian (hash.toList.take 4) % 2 ^ keyBits,
    Bytes.ofLittleEndian ((hash.toList.drop 4).take 4) % 2 ^ keyBits]

abbrev ContentsFilter := BloomFilter.Table

namespace ContentsFilter

def add (filter : ContentsFilter) (hash : Digest) : ContentsFilter :=
  BloomFilter.add keysFromHash filter hash

def addAll (filter : ContentsFilter) (hashes : List Digest) : ContentsFilter :=
  BloomFilter.addAll keysFromHash filter hashes

def mayContain (filter : ContentsFilter) (hash : Digest) : Bool :=
  BloomFilter.mayContain keysFromHash filter hash

end ContentsFilter

end PurcFetcher.Cache
