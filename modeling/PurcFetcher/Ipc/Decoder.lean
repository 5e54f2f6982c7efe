import PurcFetcher.Ipc.Encoder

/-!
# The message decoder

`IPC::Decoder` walks over a buffer in memory with a pointer that is moved to the
next multiple of an alignment before each read.  The pointer is null once a read
was refused.  Every `memcpy` from the buffer is recorded with its address and its
length.
-/

namespace PurcFetcher.Ipc

open Bytes

universe u

/-- The members of a decoder, the memory it points into and the reads it made. -/
structure Decoder where
  memory : ℕ → UInt8
  buffer : ℕ
  bufferPos : ℕ
  bufferEnd : ℕ
  reads : List (ℕ × ℕ)

/-- A decoding function: `none` when it reports a failure. -/
def Decode (A : Type u) := Decoder → Option A × Decoder

instance : Monad Decode where
  pure value := fun decoder => (some value, decoder)
  bind first next := fun decoder =>
    match first decoder with
    | (none, decoder) => (none, decoder)
    | (some value, decoder) => next value decoder

section Bind

variable {A B : Type u} {first : Decode A} {next : A → Decode B} {decoder middle : Decoder}

theorem bind_of_some {val : A} (hfirst : first decoder = (some val, middle)) :
    (first >>= next) decoder = next val middle := by
  change (match first decoder with
    | (none, decoder) => (none, decoder)
    | (some val, decoder) => next val decoder) = _
  rw [hfirst]

theorem bind_of_none (hfirst : first decoder = (none, middle)) :
    (first >>= next) decoder = (none, middle) := by
  change (match first decoder with
    | (none, decoder) => (none, decoder)
    | (some val, decoder) => next val decoder) = _
  rw [hfirst]

end Bind

namespace Decoder

abbrev Block (size : ℕ) := { bytes : List UInt8 // bytes.length = size }

def fail {A : Type u} : Decode A := fun decoder => (none, decoder)

/-- `markInvalid` before a failure is reported. -/
def failInvalid {A : Type u} : Decode A := fun decoder =>
  (none, { decoder with bufferPos := 0 })

def isValid (decoder : Decoder) : Bool :=
  decoder.bufferPos != 0

/-- `roundUpToAlignment` of a pointer: the sum is taken in 64 bits, and clearing
the low bits rounds it down to a multiple of the power of two. -/
def roundUpToAlignment (pointer alignment : ℕ) : ℕ :=
  (pointer + alignment - 1) % 2 ^ 64 / alignment * alignment

def alignedBufferIsLargeEnoughToContain
    (alignedPosition bufferStart bufferEnd size : ℕ) : Bool :=
  alignedPosition ≤ bufferEnd && bufferStart ≤ alignedPosition && size ≤ bufferEnd - alignedPosition

/-- The private `bufferIsLargeEnoughToContain`. -/
def hasRoom (decoder : Decoder) (alignment size : ℕ) : Bool :=
  alignedBufferIsLargeEnoughToContain (roundUpToAlignment decoder.bufferPos alignment)
    decoder.buffer decoder.bufferEnd size

/-- `bufferIsLargeEnoughToContain<T>`, which refuses a number of elements whose size
does not fit into a `size_t`. -/
def bufferIsLargeEnoughToContain (decoder : Decoder) (elementSize alignment numElements : ℕ) :
    Bool :=
  if (2 ^ 64 - 1) / elementSize < numElements then false
  else decoder.hasRoom alignment (numElements * elementSize)

def alignBufferPosition (alignment size : ℕ) : Decode Unit := fun decoder =>
  if decoder.hasRoom alignment size then
    (some (), { decoder with bufferPos := roundUpToAlignment decoder.bufferPos alignment })
  else failInvalid decoder

def bytesAt (memory : ℕ → UInt8) (address size : ℕ) : Block size :=
  ⟨(List.range size).map fun index => memory (address + index), by simp⟩

/-- `memcpy` from the position, and the advance over what was copied. -/
def copyBytes (size : ℕ) : Decode (Block size) := fun decoder =>
  (some (bytesAt decoder.memory decoder.bufferPos size),
    { decoder with
        bufferPos := decoder.bufferPos + size
        reads := decoder.reads ++ [(decoder.bufferPos, size)] })

def decodeFixedLengthData (size alignment : ℕ) : Decode (Block size) := do
  alignBufferPosition alignment size
  copyBytes size

/-- `decode` of an unsigned number of `width` bytes. -/
def decodeNumber (width : ℕ) : Decode ℕ := do
  let bytes ← decodeFixedLengthData width width
  pure (ofLittleEndian bytes.1)

def decodeBool : Decode Bool := do
  let value ← decodeNumber 1
  pure (value != 0)

/-- `decodeVariableLengthByteArray`.  The reference it gives out covers the bytes,
which are taken to be read with it. -/
def decodeVariableLengthByteArray : Decode (List UInt8) := do
  let size ← decodeNumber 8
  let bytes ← decodeFixedLengthData size 1
  pure bytes.1

/-- The constructor: a decoder of `size` bytes at `address`, which must be a multiple
of `alignof(uint64_t)`. -/
def start (memory : ℕ → UInt8) (address size : ℕ) : Decoder :=
  { memory, buffer := address
    bufferPos := if address % 8 = 0 then address else 0
    bufferEnd := address + size, reads := [] }

/-- The flags, the name and the destination that the constructor decodes.  Both the
flags and the name must be valid. -/
def decodeHeader (isValidOptionSet isValidEnum : ℕ → Bool) : Decode (ℕ × ℕ × ℕ) := do
  let flags ← decodeNumber 1
  if isValidOptionSet flags then
    let messageName ← decodeNumber 2
    if isValidEnum messageName then
      let destinationID ← decodeNumber 8
      pure (flags, messageName, destinationID)
    else fail
  else fail

end Decoder

end PurcFetcher.Ipc
