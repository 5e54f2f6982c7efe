import PurcFetcher.Core.Bytes
import PurcFetcher.Wtf.Text

/-!
# Persistence coders

`WTF::Persistence::Encoder` appends the bytes of each value to its buffer and gives them
to a SHA-1 computation, after a number that stands for the type.  The digest at the end
is a checksum: the decoder computes its own on the way and compares the two.

`Decodes` says that a decoder reads what an encoder appended and arrives in the state
that belongs to the encoder's, with rules for sequences of values.
-/

namespace PurcFetcher.Persistence

open Bytes

/-- The buffer, and the bytes that were given to `m_sha1`. -/
structure Encoder where
  buffer : List UInt8
  hashed : List UInt8

/-- The buffer, the offset of the next byte, and the bytes that were given to `m_sha1`. -/
structure Decoder where
  buffer : List UInt8
  currentOffset : ℕ
  hashed : List UInt8

/-- A decoding function, without a result when it reports a failure. -/
abbrev Decode := StateT Decoder Option

/-! ## Type salts -/

def boolSalt : ℕ := 3
def uint32Salt : ℕ := 11
def uint64Salt : ℕ := 13
def doubleSalt : ℕ := 29
def dataSalt : ℕ := 101

def updateChecksum (typeSalt : ℕ) (bytes hashed : List UInt8) : List UInt8 :=
  hashed ++ littleEndian 4 typeSalt ++ bytes

/-! ## Encoding -/

namespace Encoder

def empty : Encoder := ⟨[], []⟩

/-- The common part of `encodeFixedLengthData` and `encodeNumber`. -/
def append (typeSalt : ℕ) (bytes : List UInt8) (encoder : Encoder) : Encoder :=
  ⟨encoder.buffer ++ bytes, updateChecksum typeSalt bytes encoder.hashed⟩

def encodeFixedLengthData (bytes : List UInt8) : Encoder → Encoder := append dataSalt bytes

def encodeNumber (typeSalt width value : ℕ) : Encoder → Encoder :=
  append typeSalt (littleEndian width value)

def encodeBool (value : Bool) : Encoder → Encoder := encodeNumber boolSalt 1 value.toNat

def encodeUInt32 (value : UInt32) : Encoder → Encoder :=
  encodeNumber uint32Salt 4 value.toNat

def encodeUInt64 (value : UInt64) : Encoder → Encoder :=
  encodeNumber uint64Salt 8 value.toNat

def encodeDouble (bits : UInt64) : Encoder → Encoder := encodeNumber doubleSalt 8 bits.toNat

def encodeDigest (digest : Vector UInt8 20) : Encoder → Encoder :=
  encodeFixedLengthData digest.toList

def encodeChecksum (sha1 : List UInt8 → Vector UInt8 20) (encoder : Encoder) : Encoder :=
  encodeDigest (sha1 encoder.hashed) encoder

end Encoder

/-- Which strings are kept with one byte for each character: only some of those without
a character above 255.  Two strings of one text, written at different offsets, may be kept in
different widths. -/
structure StringWidth where
  is8Bit : ℕ → List UInt16 → Bool
  fits : ∀ {offset units}, is8Bit offset units → ∀ unit ∈ units, unit.toNat < 256

/-- No string is kept with 8 bits per character. -/
def StringWidth.wide : StringWidth where
  is8Bit _ _ := false
  fits := nofun

/-- The length that stands for the null string. -/
def nullLength : UInt32 := 2 ^ 32 - 1

/-- The characters of a string, in the width it is kept in. -/
def Encoder.encodeStringText (is8Bit : Bool) (units : List UInt16) : Encoder → Encoder :=
  if is8Bit then encodeFixedLengthData (units.map (·.toUInt8))
  else encodeFixedLengthData (units.flatMap fun unit => littleEndian 2 unit.toNat)

/-- `Coder<String>::encode`. -/
def Encoder.encodeString (width : StringWidth) : Option (List UInt16) → Encoder → Encoder
  | none => encodeUInt32 nullLength
  | some units => fun encoder =>
    let is8Bit := width.is8Bit encoder.buffer.length units
    encoder.encodeUInt32 (.ofNat units.length) |>.encodeBool is8Bit
      |>.encodeStringText is8Bit units

/-! ## Decoding -/

/-- The common part of `decodeFixedLengthData` and `decodeNumber`. -/
def take (typeSalt size : ℕ) : Decode (List UInt8) := fun decoder =>
  if size ≤ decoder.buffer.length - decoder.currentOffset then
    let bytes := (decoder.buffer.drop decoder.currentOffset).take size
    some (bytes, { decoder with
      currentOffset := decoder.currentOffset + size
      hashed := updateChecksum typeSalt bytes decoder.hashed })
  else none

def decodeFixedLengthData (size : ℕ) : Decode (List UInt8) := take dataSalt size

def decodeNumber (typeSalt width : ℕ) : Decode ℕ := do
  let bytes ← take typeSalt width
  return ofLittleEndian bytes

def decodeBool : Decode Bool := do
  let value ← decodeNumber boolSalt 1
  return value ≠ 0

def decodeUInt32 : Decode UInt32 := do
  let value ← decodeNumber uint32Salt 4
  return .ofNat value

def decodeUInt64 : Decode UInt64 := do
  let value ← decodeNumber uint64Salt 8
  return .ofNat value

def decodeDouble : Decode UInt64 := do
  let value ← decodeNumber doubleSalt 8
  return .ofNat value

def decodeDigest : Decode (Vector UInt8 20) := do
  let bytes ← decodeFixedLengthData 20
  return .ofFn fun index => bytes.getD index 0

/-- The digest of what was read so far is the next value. -/
def verifyChecksum (sha1 : List UInt8 → Vector UInt8 20) : Decode Unit := do
  let decoder ← get
  let savedHash ← decodeDigest
  guard (sha1 decoder.hashed = savedHash)

/-- The characters of a buffer of two bytes each. -/
def unitsOfBytes : List UInt8 → List UInt16
  | low :: high :: rest => .ofNat (ofLittleEndian [low, high]) :: unitsOfBytes rest
  | _ => []

def decodeStringText (is8Bit : Bool) (length : ℕ) : Decode (Option (List UInt16)) :=
  if is8Bit then do
    let bytes ← decodeFixedLengthData length
    return some (bytes.map (·.toUInt16))
  else do
    let bytes ← decodeFixedLengthData (2 * length)
    return some (unitsOfBytes bytes)

/-- `Coder<String>::decode`. -/
def decodeString : Decode (Option (List UInt16)) := do
  let length ← decodeUInt32
  if length = nullLength then return none
  else do
    let is8Bit ← decodeBool
    decodeStringText is8Bit length.toNat

/-! ## Reading back -/

/-- The decoder that has read what the encoder has appended so far. -/
def Encoder.reader (encoder : Encoder) (file : List UInt8) : Decoder :=
  ⟨file, encoder.buffer.length, encoder.hashed⟩

/-- In every file that goes on after what the second encoder holds, a decoder that is
where the first one is reads the value and is then where the second one is. -/
structure Decodes {A : Type} (decode : Decode A) (value : A) (before after : Encoder) :
    Prop where
  grows : before.buffer <+: after.buffer
  reads : ∀ file, after.buffer <+: file →
    decode (before.reader file) = some (value, after.reader file)

namespace Decodes

variable {A B : Type} {decode : Decode A} {value : A} {before middle after : Encoder}

theorem pure (val : A) (enc : Encoder) : Decodes (Pure.pure val) val enc enc where
  grows := List.prefix_rfl
  reads _ _ := rfl

/-- What was encoded in two parts is decoded in two parts. -/
theorem bind (hfirst : Decodes decode value before middle) (rest : A → Decode B) {res : B}
    (hnext : Decodes (rest value) res middle after) :
    Decodes (decode >>= rest) res before after where
  grows := hfirst.grows.trans hnext.grows
  reads file hfile := by
    change (decode (before.reader file)).bind (fun res => rest res.1 res.2) = _
    rw [hfirst.reads file (hnext.grows.trans hfile), Option.bind_some]
    exact hnext.reads file hfile

theorem map (hdecodes : Decodes decode value before after) (f : A → B) :
    Decodes (decode >>= fun value => Pure.pure (f value)) (f value) before after :=
  hdecodes.bind _ (pure (f value) after)

theorem congr {other : A} (hdecodes : Decodes decode value before after)
    (heq : value = other) : Decodes decode other before after :=
  heq ▸ hdecodes

variable (encoder : Encoder)

theorem take (typeSalt : ℕ) (bytes : List UInt8) :
    Decodes (Persistence.take typeSalt bytes.length) bytes encoder
      (encoder.append typeSalt bytes) where
  grows := List.prefix_append _ _
  reads file hfile := by
    obtain ⟨rest, rfl⟩ := hfile
    have hroom : bytes.length ≤
        ((encoder.append typeSalt bytes).buffer ++ rest).length - encoder.buffer.length := by
      simp only [Encoder.append, List.length_append]
      omega
    have hbytes : (((encoder.append typeSalt bytes).buffer ++ rest).drop
        encoder.buffer.length).take bytes.length = bytes := by
      simp only [Encoder.append, List.append_assoc, List.drop_left, List.take_left]
    rw [Persistence.take]
    simp only [Encoder.reader, hroom, if_true, hbytes]
    simp only [Encoder.append, List.length_append]

/-- A number that fits is read back. -/
theorem number (typeSalt : ℕ) {width val : ℕ} (hval : val < 256 ^ width) :
    Decodes (decodeNumber typeSalt width) val encoder
      (encoder.encodeNumber typeSalt width val) := by
  have htake := take encoder typeSalt (littleEndian width val)
  rw [length_littleEndian] at htake
  exact (htake.map ofLittleEndian).congr (ofLittleEndian_littleEndian hval)

theorem bool (val : Bool) : Decodes decodeBool val encoder (encoder.encodeBool val) := by
  have hval : val.toNat < 256 ^ 1 := by cases val <;> decide
  have hnum := number encoder boolSalt hval
  refine (hnum.map fun val => decide (val ≠ 0)).congr ?_
  cases val <;> rfl

theorem uint32 (val : UInt32) : Decodes decodeUInt32 val encoder (encoder.encodeUInt32 val) :=
  ((number encoder uint32Salt val.toNat_lt).map UInt32.ofNat).congr UInt32.ofNat_toNat

theorem uint64 (val : UInt64) : Decodes decodeUInt64 val encoder (encoder.encodeUInt64 val) :=
  ((number encoder uint64Salt val.toNat_lt).map UInt64.ofNat).congr UInt64.ofNat_toNat

theorem double (bits : UInt64) : Decodes decodeDouble bits encoder (encoder.encodeDouble bits) :=
  ((number encoder doubleSalt bits.toNat_lt).map UInt64.ofNat).congr UInt64.ofNat_toNat

theorem digest (digest : Vector UInt8 20) :
    Decodes decodeDigest digest encoder (encoder.encodeDigest digest) := by
  have htake := take encoder dataSalt digest.toList
  rw [Vector.length_toList] at htake
  refine (htake.map fun bytes => Vector.ofFn fun idx => bytes.getD idx 0).congr ?_
  ext idx hindex
  simp

/-- The checksum is right. -/
theorem checksum (sha1 : List UInt8 → Vector UInt8 20) :
    Decodes (verifyChecksum sha1) () encoder (encoder.encodeChecksum sha1) where
  grows := (digest encoder (sha1 encoder.hashed)).grows
  reads file hfile := by
    have hdigest := (digest encoder (sha1 encoder.hashed)).reads file hfile
    change (decodeDigest (encoder.reader file)).bind (fun res =>
      (guard (sha1 encoder.hashed = res.1) : Decode Unit) res.2) = _
    rw [hdigest, Option.bind_some]
    simp only [guard, if_true]
    rfl

end Decodes

theorem unitsOfBytes_flatMap (units : List UInt16) :
    unitsOfBytes (units.flatMap fun unit => littleEndian 2 unit.toNat) = units := by
  induction units with
  | nil => rfl
  | cons unit units ih =>
    have hunit : ofLittleEndian (littleEndian 2 unit.toNat) = unit.toNat :=
      ofLittleEndian_littleEndian unit.toNat_lt
    change UInt16.ofNat (ofLittleEndian (littleEndian 2 unit.toNat)) ::
      unitsOfBytes (units.flatMap fun unit => littleEndian 2 unit.toNat) = unit :: units
    rw [hunit, ih, UInt16.ofNat_toNat]

theorem Decodes.stringText (enc : Encoder) {is8Bit : Bool} {units : List UInt16}
    (hsmall : is8Bit → ∀ unit ∈ units, unit.toNat < 256) :
    Decodes (decodeStringText is8Bit units.length) (some units) enc
      (enc.encodeStringText is8Bit units) := by
  cases is8Bit with
  | true =>
    have htake := take enc dataSalt (units.map (·.toUInt8))
    rw [List.length_map] at htake
    refine (htake.map fun bytes => some (bytes.map (·.toUInt16))).congr ?_
    exact congrArg some (Text.latin1_characters8 (hsmall rfl))
  | false =>
    have htake := take enc dataSalt (units.flatMap fun unit => littleEndian 2 unit.toNat)
    have hlen : (units.flatMap fun unit => littleEndian 2 unit.toNat).length =
        2 * units.length := by
      simp [List.length_flatMap, mul_comm]
    rw [hlen] at htake
    refine (htake.map fun bytes => some (unitsOfBytes bytes)).congr ?_
    rw [unitsOfBytes_flatMap]

/-- A string whose length is not the one of the null string is read back. -/
theorem Decodes.string (enc : Encoder) (width : StringWidth) {string : Option (List UInt16)}
    (hlen : ∀ units, string = some units → units.length < 2 ^ 32 - 1) :
    Decodes decodeString string enc (enc.encodeString width string) := by
  cases string with
  | none =>
    refine (Decodes.uint32 enc nullLength).bind _ ?_
    exact Decodes.pure none _
  | some units =>
    have hsmall := hlen units rfl
    have hnat : (UInt32.ofNat units.length).toNat = units.length := Nat.mod_eq_of_lt (by omega)
    have hnull : UInt32.ofNat units.length ≠ nullLength := by
      intro heq
      have hlast : nullLength.toNat = 2 ^ 32 - 1 := rfl
      rw [heq, hlast] at hnat
      omega
    refine (Decodes.uint32 enc (.ofNat units.length)).bind _ ?_
    rw [if_neg hnull]
    refine (Decodes.bool _ (width.is8Bit enc.buffer.length units)).bind _ ?_
    rw [hnat]
    exact Decodes.stringText _ width.fits

end PurcFetcher.Persistence
