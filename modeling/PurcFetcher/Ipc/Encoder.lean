import PurcFetcher.Core.Bytes

/-!
# The message encoder

`IPC::Encoder` appends every scalar and every block of characters at the next
offset of its buffer that is a multiple of the alignment, and fills the gap with
zeros.
-/

namespace PurcFetcher.Ipc

open Bytes

/-- The first `m_bufferSize` bytes of the buffer of an encoder. -/
abbrev Buffer := List UInt8

namespace Encoder

/-- `grow`: the buffer up to where the caller writes. -/
def grow (buffer : Buffer) (alignment : ℕ) : Buffer :=
  buffer ++ List.replicate (roundUp buffer.length alignment - buffer.length) 0

/-- `encodeFixedLengthData`. -/
def encodeFixedLengthData (data : List UInt8) (alignment : ℕ) (buffer : Buffer) : Buffer :=
  grow buffer alignment ++ data

/-- `encode` of an unsigned number of `width` bytes, which is also its alignment. -/
def encodeNumber (width value : ℕ) (buffer : Buffer) : Buffer :=
  encodeFixedLengthData (littleEndian width value) width buffer

def encodeBool (value : Bool) (buffer : Buffer) : Buffer :=
  encodeNumber 1 value.toNat buffer

/-- `encodeVariableLengthByteArray`. -/
def encodeVariableLengthByteArray (data : List UInt8) (buffer : Buffer) : Buffer :=
  encodeFixedLengthData data 1 (encodeNumber 8 data.length buffer)

/-- The buffer of a new encoder: the message flags, of which none is set, the name
of the message and the identifier of its destination. -/
def encodeHeader (messageName : UInt16) (destinationID : UInt64) : Buffer :=
  encodeNumber 8 destinationID.toNat (encodeNumber 2 messageName.toNat (encodeNumber 1 0 []))

/-! ## Offsets -/

theorem length_grow (buf : Buffer) {align : ℕ} (hpos : 0 < align) :
    (grow buf align).length = roundUp buf.length align := by
  have hle := le_roundUp buf.length hpos
  rw [grow, List.length_append, List.length_replicate]
  omega

theorem length_encodeFixedLengthData (data : List UInt8) {align : ℕ}
    (hpos : 0 < align) (buf : Buffer) :
    (encodeFixedLengthData data align buf).length = roundUp buf.length align + data.length := by
  rw [encodeFixedLengthData, List.length_append, length_grow buf hpos]

theorem prefix_encodeFixedLengthData (data : List UInt8) (align : ℕ) (buf : Buffer) :
    buf <+: encodeFixedLengthData data align buf := by
  rw [encodeFixedLengthData, grow, List.append_assoc]
  exact List.prefix_append _ _

theorem length_encodeHeader (msgName : UInt16) (destID : UInt64) :
    (encodeHeader msgName destID).length = 16 := by
  simp [encodeHeader, encodeNumber, length_encodeFixedLengthData, roundUp]

end Encoder

end PurcFetcher.Ipc
