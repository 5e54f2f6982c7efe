import PurcFetcher.Ipc.Message

/-!
# Records of the DOM cache

A `SharedBuffer` travels as its size and its bytes, and the size zero also stands for no
buffer.  `RefPtr<SharedBuffer>`, `Ref<SharedBuffer>` and the body of a
`DOMCacheEngine::Record` are coded with the same two functions.
-/

namespace PurcFetcher.Ipc

open Decoder Encoder

namespace Layout

def char : Layout :=
  { size := 1, alignmentLog := 0, pos := by decide, small := by decide,
    alignmentLog_lt := by decide }

def int64 : Layout :=
  { size := 8, alignmentLog := 3, pos := by decide, small := by decide,
    alignmentLog_lt := by decide }

end Layout

/-! ## Shared buffers -/

structure SharedBuffer where
  segments : List (List UInt8)

namespace SharedBuffer

def bytes (buffer : SharedBuffer) : List UInt8 := buffer.segments.flatten

def size (buffer : SharedBuffer) : ℕ := buffer.bytes.length

end SharedBuffer

/-- Each segment is appended; `none` is the null pointer. -/
def encodeSharedBuffer (buffer : Option SharedBuffer) (output : Buffer) : Buffer :=
  let bufferSize := (buffer.map SharedBuffer.size).getD 0
  let sized := encodeNumber 8 bufferSize output
  if bufferSize = 0 then sized
  else
    ((buffer.map SharedBuffer.segments).getD []).foldl
      (fun output segment => encodeFixedLengthData segment 1 output) sized

/-- A test that fails without `markInvalid`. -/
def testRoom (numElements : ℕ) : Decode Unit := fun decoder =>
  if decoder.bufferIsLargeEnoughToContain 1 1 numElements then (some (), decoder)
  else fail decoder

/-- `Vector<uint8_t>::grow` ends the process for `2 ^ 32` bytes or more. -/
def decodeSharedBuffer : Decode (Option SharedBuffer) := do
  let bufferSize ← decodeNumber 8
  if bufferSize = 0 then pure none
  else
    testRoom bufferSize
    if VectorTraits.canGrow { elementSize := 1 } bufferSize then
      let data ← decodeFixedLengthData bufferSize 1
      pure (some ⟨[data.1]⟩)
    else fail

/-- `ArgumentCoder<Ref<SharedBuffer>>::decode`. -/
def decodeRefSharedBuffer : Decode SharedBuffer := do
  let buffer ← decodeSharedBuffer
  match buffer with
  | some buffer => pure buffer
  | none => fail

/-! ## Form data -/

/-- The bytes of a form, the name, start, length and modification time of a file, or the URL
of a blob. -/
def elementTypes : Fin 3 → Type
  | 0 => List (Block 1)
  | 1 => StringValue × Block 8 × Block 8 × Option (Block 8)
  | 2 => StringValue

def elementCoders : ∀ type, Coder (elementTypes type)
  | 0 => .arithmeticVector .char
  | 1 => .pair .string (.pair (.arithmetic .int64) (.pair (.arithmetic .int64)
      (.optional (.arithmetic .int64))))
  | 2 => .string

structure FormData where
  alwaysStream : Bool
  boundary : List (Block 1)
  elements : List (Variant elementTypes id)
  identifier : Block 8
  containsPasswordData : Bool

namespace FormData

/-- What follows `m_alwaysStream`. -/
def coder : Coder (List (Block 1) × List (Variant elementTypes id) × Block 8) :=
  .pair (.arithmeticVector .char)
    (.pair (.vector { elementSize := 48 } (.variant (by decide) id elementCoders))
      (.arithmetic .int64))

/-- `m_containsPasswordData` is not encoded. -/
def encode (form : FormData) (output : Buffer) : Buffer :=
  coder.encode (form.boundary, form.elements, form.identifier) (encodeBool form.alwaysStream output)

def decode : Decode FormData := do
  let alwaysStream ← decodeBool
  let (boundary, elements, identifier) ← coder.decode
  pure ⟨alwaysStream, boundary, elements, identifier, false⟩

end FormData

/-! ## Records -/

namespace DOMCacheEngine

inductive ResponseBody
  | null
  | formData (form : FormData)
  | sharedBuffer (buffer : SharedBuffer)

/-- `FetchHeaders::Guard`, which has five values. -/
abbrev isValidGuard (value : Block 4) : Bool := Bytes.ofLittleEndian value.1 < 5

abbrev Guard := { value : Block 4 // isValidGuard value = true }

structure Record (Request Options Response : Type) where
  identifier : Block 8
  updateResponseCounter : Block 8
  requestHeadersGuard : Guard
  request : Request
  options : Options
  referrer : StringValue
  responseHeadersGuard : Guard
  response : Response
  responseBody : ResponseBody
  responseBodySize : Block 8

/-- The coders of `ResourceRequest`, `FetchOptions` and `ResourceResponse`. -/
structure Coders (Request Options Response : Type) where
  request : Coder Request
  options : Coder Options
  response : Coder Response

namespace ResponseBody

def encode : ResponseBody → Buffer → Buffer
  | sharedBuffer buffer, output => encodeSharedBuffer (some buffer) (encodeBool true output)
  | formData form, output => form.encode (encodeBool true (encodeBool false output))
  | null, output => encodeBool false (encodeBool false output)

def decode : Decode ResponseBody := do
  let hasSharedBufferBody ← decodeBool
  if hasSharedBufferBody then do
    let buffer ← decodeSharedBuffer
    pure ((buffer.map sharedBuffer).getD null)
  else do
    let hasFormDataBody ← decodeBool
    if hasFormDataBody then do
      let form ← FormData.decode
      pure (formData form)
    else pure null

/-- The same kind of body with the same bytes, or with the same elements. -/
def Same : ResponseBody → ResponseBody → Prop
  | null, null => True
  | formData form, formData other => form.elements = other.elements
  | sharedBuffer buffer, sharedBuffer other => buffer.bytes = other.bytes
  | _, _ => False

/-- What the coders of the body write is shorter than they can read. -/
def Fits : ResponseBody → Prop
  | null => True
  | formData form => FormData.coder.Fits (form.boundary, form.elements, form.identifier)
  | sharedBuffer buffer => buffer.size < 2 ^ 32

def IsEmptyBuffer : ResponseBody → Prop
  | sharedBuffer buffer => buffer.size = 0
  | _ => False

/-- What the other process makes of the body. -/
def received : ResponseBody → ResponseBody
  | null => null
  | formData form => formData { form with containsPasswordData := false }
  | sharedBuffer buffer => if buffer.size = 0 then null else sharedBuffer ⟨[buffer.bytes]⟩

end ResponseBody

variable {Request Options Response : Type}

namespace Record

/-- The fields before the body, in the order in which they are encoded. -/
abbrev Fields (Request Options Response : Type) :=
  Block 8 × Guard × Request × Options × StringValue × Guard × Response × Block 8 × Block 8

def fields (record : Record Request Options Response) : Fields Request Options Response :=
  (record.identifier, record.requestHeadersGuard, record.request, record.options, record.referrer,
    record.responseHeadersGuard, record.response, record.updateResponseCounter,
    record.responseBodySize)

def coder (coders : Coders Request Options Response) : Coder (Fields Request Options Response) :=
  let guard : Coder Guard := .enumeration .word isValidGuard
  let uint64 : Coder (Block 8) := .arithmetic .int64
  .pair uint64 (.pair guard (.pair coders.request (.pair coders.options (.pair .string
    (.pair guard (.pair coders.response (.pair uint64 uint64)))))))

def encode (coders : Coders Request Options Response) (record : Record Request Options Response)
    (output : Buffer) : Buffer :=
  record.responseBody.encode ((coder coders).encode record.fields output)

def decode (coders : Coders Request Options Response) :
    Decode (Record Request Options Response) := do
  let (identifier, requestHeadersGuard, request, options, referrer, responseHeadersGuard,
    response, updateResponseCounter, responseBodySize) ← (coder coders).decode
  let responseBody ← ResponseBody.decode
  pure ⟨identifier, updateResponseCounter, requestHeadersGuard, request, options, referrer,
    responseHeadersGuard, response, responseBody, responseBodySize⟩

/-- The records are equal, apart from how the bytes of a buffer are held. -/
def Same (record other : Record Request Options Response) : Prop :=
  record.fields = other.fields ∧ record.responseBody.Same other.responseBody

def Fits (coders : Coders Request Options Response) (record : Record Request Options Response) :
    Prop :=
  (coder coders).Fits record.fields ∧ record.responseBody.Fits

end Record

end DOMCacheEngine

/-! ## What is read back -/

variable {start : ℕ}

theorem encodeFixedLengthData_one (data : List UInt8) (buf : Buffer) :
    encodeFixedLengthData data 1 buf = buf ++ data := by
  simp [encodeFixedLengthData, grow, Bytes.roundUp]

theorem foldl_encodeFixedLengthData (segments : List (List UInt8)) (buf : Buffer) :
    segments.foldl (fun output segment => encodeFixedLengthData segment 1 output) buf =
      encodeFixedLengthData segments.flatten 1 buf := by
  induction segments generalizing buf with
  | nil => simp [encodeFixedLengthData_one]
  | cons segment segments ih => grind [encodeFixedLengthData_one]

theorem reads_testRoom {A : Type} {val : A} {rest : Decode A} {count : ℕ} {before after : Buffer}
    (hmarks : Reads start (requireRoom 1 1 count >>= fun _ => rest) val before after) :
    Reads start (testRoom count >>= fun _ => rest) val before after := by
  refine ⟨hmarks.1, fun dec whole hreading hwhole => ?_⟩
  obtain ⟨next, hrun, hnext⟩ := hmarks.2 dec whole hreading hwhole
  refine ⟨next, ?_, hnext⟩
  by_cases hroom : dec.bufferIsLargeEnoughToContain 1 1 count = true
  · have hrequired : requireRoom 1 1 count dec = (some (), dec) := if_pos hroom
    have htest : testRoom count dec = (some (), dec) := if_pos hroom
    rw [bind_of_some hrequired] at hrun
    rw [bind_of_some htest, hrun]
  · have hrequired : requireRoom 1 1 count dec = failInvalid dec := if_neg hroom
    rw [bind_of_none hrequired] at hrun
    cases hrun

theorem reads_sharedBuffer (hstart : 8 ∣ start) (buf : SharedBuffer)
    (hfits : buf.size < 2 ^ 32) (output : Buffer) :
    Reads start decodeSharedBuffer (if buf.size = 0 then none else some ⟨[buf.bytes]⟩) output
      (encodeSharedBuffer (some buf) output) := by
  have hsize := Reads.number (by decide : 8 ∣ 8) hstart (hfits.trans (by norm_num)) output
  have hgrows : VectorTraits.canGrow { elementSize := 1 } buf.size = true := by
    simp only [VectorTraits.canGrow, VectorTraits.expandCapacity, Bool.or_eq_true]
    exact .inr (by rw [if_pos (by omega)]; rfl)
  rw [encodeSharedBuffer]
  dsimp only [Option.map_some, Option.getD_some]
  apply Reads.bind hsize
  rw [if_pos hgrows]
  split
  · exact Reads.pure _ _
  · rw [foldl_encodeFixedLengthData]
    apply reads_testRoom
    apply Reads.requireRoom Nat.one_pos Nat.one_pos (one_dvd _) (one_dvd _) (Nat.mul_one _).symm
      List.prefix_rfl
    exact Reads.bind (Reads.fixedLengthData Nat.one_pos (one_dvd _) (one_dvd _)
      ⟨buf.bytes, rfl⟩ _) (Reads.pure _ _)

theorem FormData.supported (hstart : 8 ∣ start) : FormData.coder.Supported start := by
  have hint64 : Layout.int64.alignment ∣ start := hstart
  have hchar : Layout.char.alignment ∣ start := one_dvd start
  refine ⟨hchar, ⟨Function.injective_id, fun type => ?_⟩, hint64⟩
  match type with
  | 0 => exact hchar
  | 1 => exact ⟨trivial, hint64, hint64, hint64⟩
  | 2 => exact trivial

namespace DOMCacheEngine

theorem reads_responseBody (hstart : 8 ∣ start) (body : ResponseBody) (hfits : body.Fits)
    (output : Buffer) :
    Reads start ResponseBody.decode body.received output (body.encode output) := by
  cases body with
  | null =>
    exact Reads.bind (Reads.bool hstart false output)
      (Reads.bind (Reads.bool hstart false _) (Reads.pure _ _))
  | formData form =>
    exact Reads.bind (Reads.bool hstart false output) (Reads.bind (Reads.bool hstart true _)
      (Reads.bind (Reads.bind (Reads.bool hstart form.alwaysStream _) (Reads.bind
        (Coder.reads hstart _ (FormData.supported hstart) _ hfits _) (Reads.pure _ _)))
          (Reads.pure _ _)))
  | sharedBuffer buf =>
    apply Reads.bind (Reads.bool hstart true output)
    apply Reads.bind (reads_sharedBuffer hstart buf hfits _)
    rw [ResponseBody.received]
    split <;> exact Reads.pure _ _

variable {Request Options Response : Type} {coders : Coders Request Options Response}

theorem reads_record (hstart : 8 ∣ start) (hcoders : (Record.coder coders).Supported start)
    (record : Record Request Options Response) (hfits : record.Fits coders) (output : Buffer) :
    Reads start (Record.decode coders)
      { record with responseBody := record.responseBody.received } output
      (record.encode coders output) :=
  Reads.bind (Coder.reads hstart _ hcoders _ hfits.1 output)
    (Reads.bind (reads_responseBody hstart _ hfits.2 _) (Reads.pure _ _))

theorem received_same_iff (body : ResponseBody) :
    body.received.Same body ↔ ¬ body.IsEmptyBuffer := by
  cases body with
  | null => exact iff_of_true trivial not_false
  | formData => exact iff_of_true rfl not_false
  | sharedBuffer =>
    rw [ResponseBody.received, ResponseBody.IsEmptyBuffer]
    split
    · next hempty => exact iff_of_false not_false (not_not.2 hempty)
    · next hsome => exact iff_of_true (List.append_nil _) hsome

def sampleCoders : Coders StringValue StringValue StringValue := ⟨.string, .string, .string⟩

def sampleRecord (responseBody : ResponseBody) : Record StringValue StringValue StringValue where
  identifier := ⟨.replicate 8 1, rfl⟩
  updateResponseCounter := ⟨.replicate 8 0, rfl⟩
  requestHeadersGuard := ⟨⟨[2, 0, 0, 0], rfl⟩, rfl⟩
  request := .characters8 [1] (by decide)
  options := .null
  referrer := .null
  responseHeadersGuard := ⟨⟨[4, 0, 0, 0], rfl⟩, rfl⟩
  response := .characters8 [2] (by decide)
  responseBody := responseBody
  responseBodySize := ⟨.replicate 8 0, rfl⟩

def decoderOf (bytes : List UInt8) : Decoder :=
  .start (fun pointer => bytes.getD (pointer - 8) 0) 8 bytes.length

theorem sample_supported : (Record.coder sampleCoders).Supported 8 := by
  simp only [Record.coder, sampleCoders, Coder.Supported]
  decide

theorem sample_fits {body : ResponseBody} (hfits : body.Fits) :
    (sampleRecord body).Fits sampleCoders := by
  simp only [Record.Fits, Record.coder, sampleCoders, sampleRecord, Record.fields, Coder.Fits,
    true_and]
  exact hfits

end DOMCacheEngine

end PurcFetcher.Ipc
