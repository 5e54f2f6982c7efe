import PurcFetcher.Ipc.Decoder

/-!
# Argument coders

`ArgumentCoder<T>` says how the values of a type are written and read.  The types
are those that the templates build from arithmetic types, enumerations and strings.
-/

namespace PurcFetcher.Ipc

open Decoder Encoder

/-! ## Values -/

/-- `sizeof` and `alignof` of an arithmetic type. -/
structure Layout where
  size : ℕ
  alignmentLog : ℕ
  pos : 0 < size
  small : size < 2 ^ 64
  alignmentLog_lt : alignmentLog < 64

namespace Layout

def alignment (layout : Layout) : ℕ := 2 ^ layout.alignmentLog

theorem alignment_pos (layout : Layout) : 0 < layout.alignment := Nat.two_pow_pos _

def word : Layout :=
  { size := 4, alignmentLog := 2, pos := by decide, small := by decide,
    alignmentLog_lt := by decide }

end Layout

/-- `StringImpl::MaxLength`. -/
def maxLength : ℕ := 2147483647

/-- `StringImpl::maxInternalLength`, with a `StringImpl` of 24 bytes: the longest string
that is allocated together with its characters. -/
def maxInternalLength (characterSize : ℕ) : ℕ :=
  min maxLength ((4294967295 - 24) / characterSize)

/-- `String`.  A string without characters has 8-bit ones. -/
inductive StringValue
  | null
  | characters8 (characters : List UInt8) (bounded : characters.length ≤ maxLength)
  | characters16 (characters : List UInt16) (nonempty : characters ≠ [])
      (bounded : characters.length ≤ maxLength)

/-- The entries of a `HashMap` in the order in which they are iterated.  `isValidKey`
and `equal` are those of its key traits and hash. -/
structure HashMap {K : Type} (isValidKey : K → Bool) (equal : K → K → Bool) (V : Type) where
  entries : List (K × V)
  valid : ∀ entry ∈ entries, isValidKey entry.1 = true
  distinct : entries.Pairwise fun left right => equal left.1 right.1 = false

/-- `Variant`: the alternatives have types out of `types`, which are distinct. -/
abbrev Variant {count last : ℕ} (types : Fin count → Type)
    (alternative : Fin (last + 1) → Fin count) :=
  (index : Fin (last + 1)) × types (alternative index)

namespace HashMap

variable {K V : Type} {isValidKey : K → Bool} {equal : K → K → Bool}

def empty : HashMap isValidKey equal V :=
  { entries := [], valid := by simp, distinct := List.Pairwise.nil }

/-- `isValidKey` and `add(..).isNewEntry` in the loop of the decoder: `none` when
one of them is false. -/
def addNew (map : HashMap isValidKey equal V) (key : K) (value : V) :
    Option (HashMap isValidKey equal V) :=
  if hnew : isValidKey key = true ∧ ∀ entry ∈ map.entries, equal entry.1 key = false then
    some
      { entries := map.entries ++ [(key, value)]
        valid := by
          intro entry hentry
          rw [List.mem_append, List.mem_singleton] at hentry
          cases hentry with
          | inl hmem => exact map.valid entry hmem
          | inr heq => exact heq ▸ hnew.1
        distinct := by
          rw [List.pairwise_append]
          refine ⟨map.distinct, List.pairwise_singleton _ _, ?_⟩
          intro entry hentry other hother
          rw [List.mem_singleton] at hother
          exact hother ▸ hnew.2 entry hentry }
  else none

end HashMap

namespace Variant

variable {count last : ℕ} {types : Fin count → Type} {alternative : Fin (last + 1) → Fin count}

/-- The converting constructor, which takes the first alternative of the type. -/
def construct (index : Fin (last + 1)) (value : types (alternative index)) :
    Variant types alternative :=
  match hfind : (List.finRange (last + 1)).find? fun other =>
      alternative other = alternative index with
  | some other =>
    ⟨other, cast (by
      have hsame := List.find?_some hfind
      rw [decide_eq_true_eq] at hsame
      rw [hsame]) value⟩
  | none => ⟨index, value⟩

end Variant

/-! ## Coders -/

/-- What the growth of a `Vector<T, inlineCapacity, CrashOnOverflow, minCapacity>` depends on. -/
structure VectorTraits where
  elementSize : ℕ
  inlineCapacity : ℕ := 0
  minCapacity : ℕ := 16

namespace VectorTraits

variable (traits : VectorTraits)

/-- The new capacity, or `none` where `allocateBuffer` ends the process. -/
def expandCapacity (capacity newMinCapacity : ℕ) : Option ℕ :=
  let newCapacity := max newMinCapacity (max traits.minCapacity (capacity + capacity / 4 + 1))
  if newCapacity ≤ (2 ^ 32 - 1) / traits.elementSize then some newCapacity else none

/-- The capacity after as many calls of `append`. -/
def capacityAfter : ℕ → Option ℕ
  | 0 => some traits.inlineCapacity
  | size + 1 =>
    (capacityAfter size).bind fun capacity =>
      if size ≠ capacity then some capacity else traits.expandCapacity capacity (size + 1)

theorem isSome_capacityAfter_of_add {size : ℕ} (count : ℕ)
    (hgrows : (traits.capacityAfter (size + count)).isSome) :
    (traits.capacityAfter size).isSome := by
  induction count with
  | zero => exact hgrows
  | succ count ih => exact ih (Option.isSome_of_isSome_bind hgrows)

/-- `grow` of an empty vector does not end the process. -/
def canGrow (size : ℕ) : Bool :=
  size ≤ traits.inlineCapacity || (traits.expandCapacity traits.inlineCapacity size).isSome

end VectorTraits

/-- The types that have an argument coder. -/
inductive Coder : Type → Type 1
  | arithmetic (layout : Layout) : Coder (Block layout.size)
  | enumeration (layout : Layout) (isValidEnum : Block layout.size → Bool) :
      Coder { value : Block layout.size // isValidEnum value = true }
  | string : Coder StringValue
  | cString : Coder (Option (List UInt8))
  | dataReference : Coder (List UInt8)
  | optional {A : Type} (value : Coder A) : Coder (Option A)
  /-- `Monostate`, and the empty tuple at the end of every tuple. -/
  | monostate : Coder Unit
  /-- `std::pair`, and a tuple of a first element and the others. -/
  | pair {A B : Type} (first : Coder A) (second : Coder B) : Coder (A × B)
  /-- A vector of an arithmetic type. -/
  | arithmeticVector (layout : Layout) : Coder (List (Block layout.size))
  /-- A vector of any other type. -/
  | vector {A : Type} (traits : VectorTraits) (element : Coder A) : Coder (List A)
  | hashMap {K V : Type} (isValidKey : K → Bool) (equal : K → K → Bool) (key : Coder K)
      (value : Coder V) : Coder (HashMap isValidKey equal V)
  | hashSet {K : Type} (isValidKey : K → Bool) (equal : K → K → Bool) (key : Coder K) :
      Coder (HashMap isValidKey equal Unit)
  | variant {count last : ℕ} {types : Fin count → Type}
      (small : last < 2 ^ 32) (alternative : Fin (last + 1) → Fin count)
      (coders : ∀ type, Coder (types type)) : Coder (Variant types alternative)
  | expected {V E : Type} (value : Coder V) (error : Coder E) : Coder (V ⊕ E)

/-! ## Encoding -/

/-- `std::numeric_limits<uint32_t>::max()`, which marks a null string. -/
def nullMarker : ℕ := 2 ^ 32 - 1

def encodeString : StringValue → Buffer → Buffer
  | .null, buffer => encodeNumber 4 nullMarker buffer
  | .characters8 characters _, buffer =>
    encodeFixedLengthData characters 1 (encodeBool true (encodeNumber 4 characters.length buffer))
  | .characters16 characters _ _, buffer =>
    encodeFixedLengthData
      (characters.flatMap fun character => Bytes.littleEndian 2 character.toNat) 2
      (encodeBool false (encodeNumber 4 characters.length buffer))

/-- The length of a `CString` is cut to 32 bits. -/
def encodeCString : Option (List UInt8) → Buffer → Buffer
  | none, buffer => encodeNumber 4 nullMarker buffer
  | some bytes, buffer =>
    encodeFixedLengthData (bytes.take (bytes.length % 2 ^ 32)) 1
      (encodeNumber 4 (bytes.length % 2 ^ 32) buffer)

namespace Coder

/-- `ArgumentCoder<T>::encode`. -/
def encode : {A : Type} → Coder A → A → Buffer → Buffer
  | _, arithmetic layout, value, buffer => encodeFixedLengthData value.1 layout.alignment buffer
  | _, enumeration layout _, value, buffer =>
    encodeFixedLengthData value.1.1 layout.alignment buffer
  | _, string, value, buffer => encodeString value buffer
  | _, cString, value, buffer => encodeCString value buffer
  | _, dataReference, value, buffer => encodeVariableLengthByteArray value buffer
  | _, optional _, none, buffer => encodeBool false buffer
  | _, optional coder, some value, buffer => coder.encode value (encodeBool true buffer)
  | _, monostate, _, buffer => buffer
  | _, pair first second, value, buffer => second.encode value.2 (first.encode value.1 buffer)
  | _, arithmeticVector layout, values, buffer =>
    encodeFixedLengthData (values.flatMap Subtype.val) layout.alignment
      (encodeNumber 8 values.length buffer)
  | _, vector _ element, values, buffer =>
    values.foldl (fun buffer value => element.encode value buffer)
      (encodeNumber 8 values.length buffer)
  | _, hashMap _ _ key value, map, buffer =>
    map.entries.foldl (fun buffer entry => value.encode entry.2 (key.encode entry.1 buffer))
      (encodeNumber 4 map.entries.length buffer)
  | _, hashSet _ _ key, set, buffer =>
    set.entries.foldl (fun buffer entry => key.encode entry.1 buffer)
      (encodeNumber 8 set.entries.length buffer)
  | _, variant _ alternative coders, value, buffer =>
    (coders (alternative value.1)).encode value.2 (encodeNumber 4 value.1 buffer)
  | _, expected value _, .inl result, buffer => value.encode result (encodeBool true buffer)
  | _, expected _ error, .inr reason, buffer => error.encode reason (encodeBool false buffer)

end Coder

/-! ## Decoding -/

/-- `markInvalid` after a failure. -/
def orInvalid {A : Type} (run : Decode A) : Decode A := fun decoder =>
  match run decoder with
  | (none, decoder) => failInvalid decoder
  | (some value, decoder) => (some value, decoder)

/-- The blocks of `size` bytes that follow one another in `bytes`. -/
def splitBlocks (size : ℕ) : (count : ℕ) → (bytes : List UInt8) →
    bytes.length = count * size → List (Block size)
  | 0, _, _ => []
  | count + 1, bytes, hlength =>
    ⟨bytes.take size, by rw [List.length_take, hlength, Nat.succ_mul]; omega⟩ ::
      splitBlocks size count (bytes.drop size) (by
        rw [List.length_drop, hlength, Nat.succ_mul]
        omega)

/-- The test that all callers make before they allocate. -/
def requireRoom (elementSize alignment numElements : ℕ) : Decode Unit := fun decoder =>
  if decoder.bufferIsLargeEnoughToContain elementSize alignment numElements then
    (some (), decoder)
  else failInvalid decoder

/-- The decoding of a vector of an arithmetic type.  `isInBounds<size_t>` always holds
for a `size_t` of 64 bits. -/
def decodeArithmeticVector (layout : Layout) : Decode (List (Block layout.size)) := do
  let size ← orInvalid (decodeNumber 8)
  requireRoom layout.size layout.alignment size
  if VectorTraits.canGrow { elementSize := layout.size } size then
    let bytes ← orInvalid (decodeFixedLengthData (size * layout.size) layout.alignment)
    pure (splitBlocks layout.size size bytes.1 bytes.2)
  else fail

/-- `decodeStringText<LChar>`.  `String::createUninitialized` ends the process for a
length above `maxInternalLength`. -/
def decodeStringText8 (length : ℕ) : Decode StringValue := do
  requireRoom 1 1 length
  if hlength : length ≤ maxInternalLength 1 then
    let bytes ← decodeFixedLengthData length 1
    pure (.characters8 bytes.1 (by
      rw [bytes.2]
      exact hlength.trans (min_le_left _ _)))
  else fail

theorem length_splitBlocks (size count : ℕ) (bytes : List UInt8)
    (hlen : bytes.length = count * size) :
    (splitBlocks size count bytes hlen).length = count := by
  induction count generalizing bytes with
  | zero => rfl
  | succ count ih => rw [splitBlocks, List.length_cons, ih]

def characterOf (bytes : Block 2) : UInt16 :=
  UInt16.ofNat (Bytes.ofLittleEndian bytes.1)

/-- `decodeStringText<UChar>`.  A string of length zero is the empty 8-bit one. -/
def decodeStringText16 (length : ℕ) : Decode StringValue := do
  requireRoom 2 2 length
  if hlength : length ≤ maxInternalLength 2 then
    let bytes ← decodeFixedLengthData (length * 2) 2
    if hempty : length = 0 then pure (.characters8 [] (Nat.zero_le _))
    else
      pure (.characters16 ((splitBlocks 2 length bytes.1 bytes.2).map characterOf)
        (by
          rw [Ne, List.map_eq_nil_iff, ← List.length_eq_zero_iff, length_splitBlocks]
          exact hempty)
        (by
          rw [List.length_map, length_splitBlocks]
          exact hlength.trans (min_le_left _ _)))
  else fail

def decodeString : Decode StringValue := do
  let length ← decodeNumber 4
  if length = nullMarker then pure .null
  else
    let is8Bit ← decodeBool
    if is8Bit then decodeStringText8 length else decodeStringText16 length

def decodeCString : Decode (Option (List UInt8)) := do
  let length ← decodeNumber 4
  if length = nullMarker then pure none
  else
    requireRoom 1 1 length
    let bytes ← decodeFixedLengthData length 1
    pure (some bytes.1)

/-- The loop of `VectorArgumentCoder<false, T>::decode` after `size` rounds.  It ends, with the
process, where the vector cannot grow. -/
def decodeElements {A : Type} (traits : VectorTraits) (element : Decode A) :
    ℕ → ℕ → Decode (List A)
  | 0, _ => pure []
  | count + 1, size => do
    let first ← element
    if (traits.capacityAfter (size + 1)).isSome then
      let rest ← decodeElements traits element count (size + 1)
      pure (first :: rest)
    else fail

section Maps

variable {K V : Type} {isValidKey : K → Bool} {equal : K → K → Bool}

/-- The entry that is added to a map, or `markInvalid`. -/
def addEntry (map : HashMap isValidKey equal V) (entry : K × V) :
    Decode (HashMap isValidKey equal V) :=
  match map.addNew entry.1 entry.2 with
  | some map => pure map
  | none => failInvalid

/-- The loop of the decoding of a `HashMap`, and of a `HashSet`. -/
def decodeEntries (entry : Decode (K × V)) :
    ℕ → HashMap isValidKey equal V → Decode (HashMap isValidKey equal V)
  | 0, map => pure map
  | count + 1, map => do
    let next ← entry
    let map ← addEntry map next
    decodeEntries entry count map

end Maps

/-- The alternative that `VariantCoder<last, Types...>::decode` takes: the indices are
compared from the last one down, and the first alternative is taken without a
comparison. -/
def variantIndex (index : ℕ) : (last : ℕ) → Fin (last + 1)
  | 0 => Fin.last 0
  | last + 1 => if index = last + 1 then Fin.last (last + 1) else (variantIndex index last).castSucc

namespace Coder

/-- `ArgumentCoder<T>::decode`. -/
def decode : {A : Type} → Coder A → Decode A
  | _, arithmetic layout => decodeFixedLengthData layout.size layout.alignment
  | _, enumeration layout isValidEnum => do
    let value ← decodeFixedLengthData layout.size layout.alignment
    if hvalid : isValidEnum value = true then pure ⟨value, hvalid⟩ else fail
  | _, string => decodeString
  | _, cString => decodeCString
  | _, dataReference => decodeVariableLengthByteArray
  | _, optional coder => do
    let isEngaged ← decodeBool
    if isEngaged then do
      let value ← coder.decode
      pure (some value)
    else pure none
  | _, monostate => pure ()
  | _, pair first second => do
    let left ← first.decode
    let right ← second.decode
    pure (left, right)
  | _, arithmeticVector layout => decodeArithmeticVector layout
  | _, vector traits element => do
    let size ← decodeNumber 8
    decodeElements traits element.decode size 0
  | _, hashMap _ _ key value => do
    let size ← decodeNumber 4
    decodeEntries (do
      let key ← key.decode
      let value ← value.decode
      pure (key, value)) size HashMap.empty
  | _, hashSet _ _ key => do
    let size ← decodeNumber 8
    decodeEntries (do
      let key ← key.decode
      pure (key, ())) size HashMap.empty
  | _, @variant _ last _ _ alternative coders => do
    let index ← decodeNumber 4
    let value ← (coders (alternative (variantIndex index last))).decode
    pure (Variant.construct (variantIndex index last) value)
  | _, expected value error => do
    let hasValue ← decodeBool
    if hasValue then do
      let result ← value.decode
      pure (.inl result)
    else do
      let reason ← error.decode
      pure (.inr reason)

end Coder

/-! ## Messages -/

/-- A value that is encoded with the coder of its type. -/
structure Argument : Type 1 where
  type : Type
  coder : Coder type
  value : type

def encodeArguments (arguments : List Argument) (buffer : Buffer) : Buffer :=
  arguments.foldl (fun buffer argument => argument.coder.encode argument.value buffer) buffer

/-- The calls of `decode` for the types of the arguments, up to the first failure. -/
def decodeArguments : List ((A : Type) × Coder A) → Decode (List ((A : Type) × A))
  | [], decoder => (some [], decoder)
  | ⟨_, coder⟩ :: rest, decoder =>
    match coder.decode decoder with
    | (none, decoder) => (none, decoder)
    | (some value, decoder) =>
      match decodeArguments rest decoder with
      | (none, decoder) => (none, decoder)
      | (some values, decoder) => (some (⟨_, value⟩ :: values), decoder)

end PurcFetcher.Ipc
