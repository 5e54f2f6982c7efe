import PurcFetcher.Ipc.ArgumentCoders

/-!
# Decoding what was encoded

The encoder aligns offsets in its buffer and the decoder addresses in memory.  They
agree on every alignment that divides the address of the decoder's buffer.  Under
this condition each decoder reads back what its encoder appended and stops where the
encoder stopped, which `Reads` states for one value and its rules for sequences of
them.
-/

namespace PurcFetcher.Ipc

open Bytes Decoder Encoder

/-! ## A decoder in the middle of a buffer -/

/-- The decoder stands at an offset of a buffer that memory holds. -/
structure Reading (start : ℕ) (decoder : Decoder) (whole : List UInt8) (offset : ℕ) :
    Prop where
  buffer : decoder.buffer = start
  holds : ∀ index (hindex : index < whole.length), decoder.memory (start + index) = whole[index]
  position : decoder.bufferPos = start + offset
  ends : decoder.bufferEnd = start + whole.length
  fits : start + whole.length < 2 ^ 64

/-- `run` gives `value` on what lies between the two buffers. -/
def Reads {A : Type} (start : ℕ) (run : Decode A) (value : A) (before after : Buffer) : Prop :=
  before <+: after ∧
    ∀ decoder whole, Reading start decoder whole before.length → after <+: whole →
      ∃ next, run decoder = (some value, next) ∧ Reading start next whole after.length

theorem roundUpToAlignment_eq {pointer align : ℕ} (hpos : 0 < align)
    (hdvd : align ∣ 2 ^ 64) (hsmall : roundUp pointer align < 2 ^ 64) :
    roundUpToAlignment pointer align = roundUp pointer align := by
  have hle := le_roundUp pointer hpos
  have hnext : roundUp pointer align + align ≤ 2 ^ 64 := by
    obtain ⟨multiple, hmultiple⟩ := hdvd
    rw [hmultiple, mul_comm align, roundUp] at hsmall
    rw [hmultiple, roundUp, ← Nat.succ_mul, mul_comm align]
    exact Nat.mul_le_mul_right _ (Nat.lt_of_mul_lt_mul_right hsmall)
  rw [roundUpToAlignment, Nat.mod_eq_of_lt (by omega), roundUp]

namespace Reads

variable {A B : Type} {start : ℕ}

theorem pure (val : A) (buf : Buffer) : Reads start (Pure.pure val) val buf buf :=
  ⟨List.prefix_rfl, fun dec _ hreading _ => ⟨dec, rfl, hreading⟩⟩

variable {value : A} {after : Buffer} {align : ℕ}

theorem bind {first : Decode A} {next : A → Decode B} {res : B} {before middle : Buffer}
    (hfirst : Reads start first value before middle)
    (hnext : Reads start (next value) res middle after) :
    Reads start (first >>= next) res before after := by
  refine ⟨hfirst.1.trans hnext.1, fun dec whole hreading hwhole => ?_⟩
  obtain ⟨second, hrun, hsecond⟩ := hfirst.2 dec whole hreading (hnext.1.trans hwhole)
  obtain ⟨third, hrest, hthird⟩ := hnext.2 second whole hsecond hwhole
  exact ⟨third, (bind_of_some hrun).trans hrest, hthird⟩

theorem hasRoom {dec : Decoder} {whole buf data : List UInt8} (hpos : 0 < align)
    (hdvd : align ∣ 2 ^ 64) (hstart : align ∣ start)
    (hreading : Reading start dec whole buf.length)
    (hwhole : encodeFixedLengthData data align buf <+: whole) :
    dec.hasRoom align data.length = true ∧
      roundUpToAlignment dec.bufferPos align = start + (grow buf align).length := by
  have hlen := hwhole.length_le
  rw [encodeFixedLengthData, List.length_append, length_grow buf hpos] at hlen
  have hfits := hreading.fits
  have hround := roundUp_add hstart hpos buf.length
  have haligned : roundUpToAlignment dec.bufferPos align = start + roundUp buf.length align := by
    rw [hreading.position, roundUpToAlignment_eq hpos hdvd (by omega), hround]
  rw [Decoder.hasRoom, haligned, hreading.buffer, hreading.ends, length_grow buf hpos]
  refine ⟨?_, rfl⟩
  simp only [alignedBufferIsLargeEnoughToContain, Bool.and_eq_true, decide_eq_true_eq]
  omega

/-- The rule for `encodeFixedLengthData`. -/
theorem fixedLengthData {size : ℕ} (hpos : 0 < align) (hdvd : align ∣ 2 ^ 64)
    (hstart : align ∣ start) (data : Block size) (buf : Buffer) :
    Reads start (decodeFixedLengthData size align) data buf
      (encodeFixedLengthData data.1 align buf) := by
  refine ⟨prefix_encodeFixedLengthData _ _ _, fun dec whole hreading hwhole => ?_⟩
  obtain ⟨hroom, haligned⟩ := hasRoom hpos hdvd hstart hreading hwhole
  rw [data.2] at hroom
  obtain ⟨rest, hrest⟩ := hwhole
  have hbytes : bytesAt dec.memory (start + (grow buf align).length) size = data := by
    apply Subtype.ext
    apply List.ext_getElem
    · rw [(bytesAt _ _ _).2, data.2]
    · intro idx hleft hright
      have hidx : (grow buf align).length + idx < whole.length := by
        rw [← hrest, encodeFixedLengthData, List.length_append, List.length_append]
        omega
      have hbyte := hreading.holds _ hidx
      simp only [bytesAt, List.getElem_map, List.getElem_range]
      rw [add_assoc, hbyte]
      simp [← hrest, encodeFixedLengthData, List.getElem_append_right, List.getElem_append_left,
        hright]
  refine ⟨{ dec with
      bufferPos := start + (grow buf align).length + size
      reads := dec.reads ++ [(start + (grow buf align).length, size)] }, ?_, ?_⟩
  · have halign : alignBufferPosition align size dec =
        (some (), { dec with bufferPos := start + (grow buf align).length }) := by
      rw [alignBufferPosition, if_pos hroom, haligned]
    rw [decodeFixedLengthData, bind_of_some halign, copyBytes, hbytes]
  · refine { hreading with position := ?_ }
    rw [encodeFixedLengthData, List.length_append, data.2, ← add_assoc]

theorem number {width val : ℕ} (hwidth : width ∣ 8) (hstart : 8 ∣ start)
    (hval : val < 256 ^ width) (buf : Buffer) :
    Reads start (decodeNumber width) val buf (encodeNumber width val buf) := by
  have hpos : 0 < width := Nat.pos_of_dvd_of_pos hwidth (by decide)
  have hdvd : width ∣ 2 ^ 64 := hwidth.trans (by norm_num)
  have hbytes := fixedLengthData hpos hdvd (hwidth.trans hstart)
    ⟨littleEndian width val, length_littleEndian width val⟩ buf
  have hres : Reads start (decodeNumber width) (ofLittleEndian (littleEndian width val))
      buf (encodeNumber width val buf) := Reads.bind hbytes (Reads.pure _ _)
  rwa [ofLittleEndian_littleEndian hval] at hres

theorem bool (hstart : 8 ∣ start) (val : Bool) (buf : Buffer) :
    Reads start decodeBool val buf (encodeBool val buf) := by
  have hnum := number (by decide : 1 ∣ 8) hstart (by cases val <;> decide : val.toNat < 256 ^ 1) buf
  have hres : Reads start decodeBool (val.toNat != 0) buf (encodeBool val buf) :=
    Reads.bind hnum (Reads.pure _ _)
  cases val <;> exact hres

theorem requireRoom {elementSize count : ℕ} {rest : Decode A} {buf : Buffer} {data : List UInt8}
    (helement : 0 < elementSize) (hpos : 0 < align) (hdvd : align ∣ 2 ^ 64)
    (hstart : align ∣ start) (hdata : data.length = count * elementSize)
    (hafter : encodeFixedLengthData data align buf <+: after)
    (hrest : Reads start rest value buf after) :
    Reads start (Ipc.requireRoom elementSize align count >>= fun _ => rest) value buf
      after := by
  refine ⟨hrest.1, fun dec whole hreading hwhole => ?_⟩
  obtain ⟨hroom, -⟩ := hasRoom hpos hdvd hstart hreading (hafter.trans hwhole)
  have hcount : count ≤ (2 ^ 64 - 1) / elementSize := by
    have hlen := (hafter.trans hwhole).length_le
    have hfits := hreading.fits
    rw [encodeFixedLengthData, List.length_append, hdata] at hlen
    rw [Nat.le_div_iff_mul_le helement]
    omega
  have htest : Ipc.requireRoom elementSize align count dec = (some (), dec) := by
    rw [Ipc.requireRoom, bufferIsLargeEnoughToContain, if_neg (not_lt.2 hcount), ← hdata,
      if_pos hroom]
  obtain ⟨next, hrun, hnext⟩ := hrest.2 dec whole hreading hwhole
  exact ⟨next, (bind_of_some htest).trans hrun, hnext⟩

theorem orInvalid {run : Decode A} {before : Buffer} (hrun : Reads start run value before after) :
    Reads start (Ipc.orInvalid run) value before after := by
  refine ⟨hrun.1, fun dec whole hreading hwhole => ?_⟩
  obtain ⟨next, heq, hnext⟩ := hrun.2 dec whole hreading hwhole
  refine ⟨next, ?_, hnext⟩
  rw [Ipc.orInvalid, heq]

theorem elements {traits : VectorTraits} {element : Decode A} {encode : A → Buffer → Buffer}
    (values : List A) {size : ℕ} (hgrows : (traits.capacityAfter (size + values.length)).isSome)
    (helement : ∀ value ∈ values, ∀ buf,
      Reads start element value buf (encode value buf)) (buf : Buffer) :
    Reads start (decodeElements traits element values.length size) values buf
      (values.foldl (fun buf value => encode value buf) buf) := by
  induction values generalizing buf size with
  | nil => exact Reads.pure _ _
  | cons value rest ih =>
    rw [List.length_cons, Nat.add_comm rest.length, ← Nat.add_assoc] at hgrows
    have hfirst := helement value List.mem_cons_self buf
    have hrest := ih hgrows (fun other hother => helement other (List.mem_cons_of_mem _ hother))
      (encode value buf)
    refine Reads.bind hfirst ?_
    rw [if_pos (traits.isSome_capacityAfter_of_add rest.length hgrows)]
    exact Reads.bind hrest (Reads.pure _ _)

section Maps

variable {K V : Type} {isValidKey : K → Bool} {equal : K → K → Bool}

/-- The rule for the entries of a map, of which those before `rest` have been read. -/
theorem entries {entry : Decode (K × V)} {encode : K × V → Buffer → Buffer}
    {whole : HashMap isValidKey equal V} (rest : List (K × V))
    (hentry : ∀ value ∈ rest, ∀ buf, Reads start entry value buf (encode value buf))
    (map : HashMap isValidKey equal V) (hwhole : map.entries ++ rest = whole.entries)
    (buf : Buffer) :
    Reads start (decodeEntries entry rest.length map) whole buf
      (rest.foldl (fun buf value => encode value buf) buf) := by
  induction rest generalizing map buf with
  | nil =>
    rw [List.append_nil] at hwhole
    have hsame : map = whole := by
      cases map
      cases whole
      congr
    rw [hsame]
    exact Reads.pure _ _
  | cons value rest ih =>
    have hfirst := hentry value List.mem_cons_self buf
    have hrest := ih fun other hother => hentry other (List.mem_cons_of_mem _ hother)
    have hvalid : isValidKey value.1 = true := by
      apply whole.valid value
      rw [← hwhole]
      simp
    have hdistinct := whole.distinct
    rw [← hwhole, List.pairwise_append] at hdistinct
    have hnew : isValidKey value.1 = true ∧ ∀ other ∈ map.entries, equal other.1 value.1 = false :=
      ⟨hvalid, fun other hother => hdistinct.2.2 other hother value List.mem_cons_self⟩
    obtain ⟨next, hnext, hadd⟩ : ∃ next : HashMap isValidKey equal V,
        next.entries ++ rest = whole.entries ∧
          ∀ buf, Reads start (addEntry map value) next buf buf := by
      rw [addEntry, HashMap.addNew, dif_pos hnew]
      exact ⟨_, (List.append_assoc _ _ _).trans hwhole, Reads.pure _⟩
    exact Reads.bind hfirst (Reads.bind (hadd _) (hrest next hnext _))

end Maps

end Reads

theorem splitBlocks_flatMap {size : ℕ} (values : List (Block size))
    (hlen : (values.flatMap Subtype.val).length = values.length * size) :
    splitBlocks size values.length (values.flatMap Subtype.val) hlen = values := by
  induction values with
  | nil => rfl
  | cons value rest ih => grind [splitBlocks]

theorem variantIndex_val {last : ℕ} (idx : Fin (last + 1)) : variantIndex idx.val last = idx := by
  induction last with
  | zero => exact (Fin.fin_one_eq_zero idx).symm
  | succ last ih =>
    rw [variantIndex]
    split_ifs with hlast
    · exact Fin.ext hlast.symm
    · have hlt : idx.val < last + 1 := by omega
      have hrest := congrArg Fin.castSucc (ih ⟨idx.val, hlt⟩)
      exact hrest.trans (Fin.ext rfl)

theorem Variant.construct_of_injective {count last : ℕ} {types : Fin count → Type}
    {alternative : Fin (last + 1) → Fin count} (hinjective : Function.Injective alternative)
    (idx : Fin (last + 1)) (val : types (alternative idx)) :
    Variant.construct idx val = ⟨idx, val⟩ := by
  rw [Variant.construct]
  split
  · grind
  · rfl

/-! ## Types and values -/

namespace Coder

/-- The alignments of a type divide the address of the buffer, and the alternatives of
its variants are of distinct types. -/
def Supported (start : ℕ) : {A : Type} → Coder A → Prop
  | _, arithmetic layout => layout.alignment ∣ start
  | _, enumeration layout _ => layout.alignment ∣ start
  | _, string => True
  | _, cString => True
  | _, dataReference => True
  | _, optional value => value.Supported start
  | _, monostate => True
  | _, pair first second => first.Supported start ∧ second.Supported start
  | _, arithmeticVector layout => layout.alignment ∣ start
  | _, vector _ element => element.Supported start
  | _, hashMap _ _ key value => key.Supported start ∧ value.Supported start
  | _, hashSet _ _ key => key.Supported start
  | _, variant _ alternative coders =>
    Function.Injective alternative ∧ ∀ type, (coders type).Supported start
  | _, expected value error => value.Supported start ∧ error.Supported start

/-- The sizes of a value: fewer than `2 ^ 32` elements of each container, one less for
a `CString`, and no 16-bit string and no vector that is longer than one can be allocated. -/
def Fits : {A : Type} → Coder A → A → Prop
  | _, arithmetic _, _ => True
  | _, enumeration _ _, _ => True
  | _, string, .null => True
  | _, string, .characters8 _ _ => True
  | _, string, .characters16 characters _ _ => characters.length ≤ maxInternalLength 2
  | _, cString, none => True
  | _, cString, some bytes => bytes.length < 2 ^ 32 - 1
  | _, dataReference, bytes => bytes.length < 2 ^ 32
  | _, optional _, none => True
  | _, optional coder, some value => coder.Fits value
  | _, monostate, _ => True
  | _, pair first second, value => first.Fits value.1 ∧ second.Fits value.2
  | _, arithmeticVector layout, values =>
    values.length < 2 ^ 32 ∧ VectorTraits.canGrow { elementSize := layout.size } values.length
  | _, vector traits element, values =>
    values.length < 2 ^ 32 ∧ (traits.capacityAfter values.length).isSome ∧
      ∀ value ∈ values, element.Fits value
  | _, hashMap _ _ key value, map =>
    map.entries.length < 2 ^ 32 ∧ ∀ entry ∈ map.entries, key.Fits entry.1 ∧ value.Fits entry.2
  | _, hashSet _ _ key, set => set.entries.length < 2 ^ 32 ∧ ∀ entry ∈ set.entries, key.Fits entry.1
  | _, variant _ alternative coders, value => (coders (alternative value.1)).Fits value.2
  | _, expected value _, .inl result => value.Fits result
  | _, expected _ error, .inr reason => error.Fits reason

end Coder

section Values

variable {start : ℕ}

theorem Layout.alignment_dvd (layout : Layout) : layout.alignment ∣ 2 ^ 64 :=
  pow_dvd_pow 2 layout.alignmentLog_lt.le

theorem reads_arithmetic (layout : Layout) (hstart : layout.alignment ∣ start)
    (val : Block layout.size) (buf : Buffer) :
    Reads start (decodeFixedLengthData layout.size layout.alignment) val buf
      (encodeFixedLengthData val.1 layout.alignment buf) :=
  Reads.fixedLengthData layout.alignment_pos layout.alignment_dvd hstart val buf

theorem characterOf_littleEndian (char : UInt16) :
    characterOf ⟨littleEndian 2 char.toNat, length_littleEndian _ _⟩ = char := by
  rw [characterOf, ofLittleEndian_littleEndian char.toNat_lt]
  exact UInt16.ofNat_toNat

theorem map_characterOf_splitBlocks (chars : List UInt16)
    (hlen : (chars.flatMap fun char => littleEndian 2 char.toNat).length = chars.length * 2) :
    (splitBlocks 2 chars.length (chars.flatMap fun char => littleEndian 2 char.toNat) hlen).map
        characterOf = chars := by
  induction chars with
  | nil => rfl
  | cons char rest ih => grind [splitBlocks, characterOf_littleEndian]

theorem length_ne_nullMarker {len : ℕ} (hbounded : len ≤ maxLength) :
    len ≠ nullMarker ∧ len < 256 ^ 4 := by
  rw [maxLength] at hbounded
  rw [nullMarker]
  omega

variable (hstart : 8 ∣ start)
include hstart

theorem reads_string (val : StringValue)
    (hfits : Coder.string.Fits val) (buf : Buffer) :
    Reads start decodeString val buf (encodeString val buf) := by
  have hfour : (4 : ℕ) ∣ 8 := by decide
  have hmarker : nullMarker < 256 ^ 4 := by decide
  cases val with
  | null =>
    apply Reads.bind (Reads.number hfour hstart hmarker buf)
    exact Reads.pure _ _
  | characters8 chars hbounded =>
    obtain ⟨hne, hsmall⟩ := length_ne_nullMarker hbounded
    apply Reads.bind (Reads.number hfour hstart hsmall buf)
    rw [if_neg hne]
    apply Reads.bind (Reads.bool hstart true _)
    have hinternal : chars.length ≤ maxInternalLength 1 := hbounded
    apply Reads.requireRoom Nat.one_pos Nat.one_pos (one_dvd _) (one_dvd _)
      (Nat.mul_one _).symm List.prefix_rfl
    rw [dif_pos hinternal]
    exact Reads.bind (Reads.fixedLengthData Nat.one_pos (one_dvd _) (one_dvd _) ⟨chars, rfl⟩ _)
      (Reads.pure _ _)
  | characters16 chars hnonempty hbounded =>
    obtain ⟨hne, hsmall⟩ := length_ne_nullMarker hbounded
    apply Reads.bind (Reads.number hfour hstart hsmall buf)
    rw [if_neg hne]
    apply Reads.bind (Reads.bool hstart false _)
    have htwo : 2 ∣ start := (by decide : 2 ∣ 8).trans hstart
    have hlen : (chars.flatMap fun char =>
        littleEndian 2 char.toNat).length = chars.length * 2 := by
      simp [List.length_flatMap]
    have hempty : ¬ chars.length = 0 := by rwa [List.length_eq_zero_iff]
    have hinternal : chars.length ≤ maxInternalLength 2 := hfits
    apply Reads.requireRoom (by decide) (by decide) (by decide) htwo hlen List.prefix_rfl
    rw [dif_pos hinternal]
    apply Reads.bind (Reads.fixedLengthData (by decide : 0 < 2) (by decide : 2 ∣ 2 ^ 64) htwo
      ⟨chars.flatMap fun char => littleEndian 2 char.toNat, hlen⟩ _)
    simp only [dif_neg hempty, map_characterOf_splitBlocks]
    exact Reads.pure _ _

theorem reads_cString (val : Option (List UInt8))
    (hfits : Coder.cString.Fits val) (buf : Buffer) :
    Reads start decodeCString val buf (encodeCString val buf) := by
  have hfour : (4 : ℕ) ∣ 8 := by decide
  have hmarker : nullMarker < 256 ^ 4 := by decide
  cases val with
  | none =>
    apply Reads.bind (Reads.number hfour hstart hmarker buf)
    exact Reads.pure _ _
  | some bytes =>
    rw [Coder.Fits] at hfits
    have hlen : bytes.length % 2 ^ 32 = bytes.length := Nat.mod_eq_of_lt (by omega)
    have hne : bytes.length ≠ nullMarker := by
      rw [nullMarker]
      omega
    have hsmall : bytes.length < 256 ^ 4 := by omega
    have hbytes : ∀ buf, Reads start (decodeFixedLengthData bytes.length 1)
        (⟨bytes, rfl⟩ : Block bytes.length) buf (encodeFixedLengthData bytes 1 buf) :=
      Reads.fixedLengthData Nat.one_pos (one_dvd _) (one_dvd _) ⟨bytes, rfl⟩
    rw [encodeCString, hlen, List.take_length]
    apply Reads.bind (Reads.number hfour hstart hsmall buf)
    rw [if_neg hne]
    apply Reads.requireRoom Nat.one_pos Nat.one_pos (one_dvd _) (one_dvd _)
      (Nat.mul_one _).symm List.prefix_rfl
    exact Reads.bind (hbytes _) (Reads.pure _ _)

theorem reads_arithmeticVector (layout : Layout)
    (hlayout : layout.alignment ∣ start) (values : List (Block layout.size))
    (hfits : (Coder.arithmeticVector layout).Fits values) (buf : Buffer) :
    Reads start (decodeArithmeticVector layout) values buf
      ((Coder.arithmeticVector layout).encode values buf) := by
  have hlen : (values.flatMap Subtype.val).length = values.length * layout.size := by
    clear hfits
    induction values with
    | nil => simp
    | cons value rest ih =>
      rw [List.flatMap_cons, List.length_append, ih, value.2, List.length_cons]
      ring
  have hsmall : values.length < 256 ^ 8 := hfits.1.trans (by norm_num)
  have hbytes := fun buf => Reads.fixedLengthData layout.alignment_pos layout.alignment_dvd
    hlayout ⟨values.flatMap Subtype.val, hlen⟩ buf
  apply Reads.bind (Reads.orInvalid (Reads.number (by decide) hstart hsmall buf))
  apply Reads.requireRoom layout.pos layout.alignment_pos layout.alignment_dvd hlayout hlen
    List.prefix_rfl
  rw [if_pos hfits.2]
  apply Reads.bind (Reads.orInvalid (hbytes _))
  rw [splitBlocks_flatMap values hlen]
  exact Reads.pure _ _

/-- Every coder reads back what it wrote, by induction over the type. -/
theorem Coder.reads {A : Type} (coder : Coder A)
    (hsupported : coder.Supported start) (val : A) (hfits : coder.Fits val)
    (buf : Buffer) :
    Reads start coder.decode val buf (coder.encode val buf) := by
  induction coder generalizing buf with
  | arithmetic layout => exact reads_arithmetic layout hsupported val buf
  | enumeration layout =>
    apply Reads.bind (reads_arithmetic layout hsupported val.1 buf)
    rw [dif_pos val.2]
    exact Reads.pure _ _
  | string => exact reads_string hstart val hfits buf
  | cString => exact reads_cString hstart val hfits buf
  | dataReference =>
    have hsmall : val.length < 256 ^ 8 := hfits.trans (by norm_num)
    exact Reads.bind (Reads.number (by decide) hstart hsmall buf) (Reads.bind
      (Reads.fixedLengthData Nat.one_pos (one_dvd _) (one_dvd _) ⟨val, rfl⟩ _) (Reads.pure _ _))
  | optional coder ih =>
    cases val with
    | none => exact Reads.bind (Reads.bool hstart false buf) (Reads.pure _ _)
    | some val =>
      exact Reads.bind (Reads.bool hstart true buf)
        (Reads.bind (ih hsupported val hfits _) (Reads.pure _ _))
  | monostate => exact Reads.pure _ _
  | pair first second ihfirst ihsecond =>
    exact Reads.bind (ihfirst hsupported.1 val.1 hfits.1 buf)
      (Reads.bind (ihsecond hsupported.2 val.2 hfits.2 _) (Reads.pure _ _))
  | arithmeticVector layout => exact reads_arithmeticVector hstart layout hsupported val hfits buf
  | vector traits element ih =>
    have hsmall : val.length < 256 ^ 8 := hfits.1.trans (by norm_num)
    apply Reads.bind (Reads.number (by decide) hstart hsmall buf)
    apply Reads.elements _ ((Nat.zero_add _).symm ▸ hfits.2.1)
    intro other hother buf
    exact ih hsupported other (hfits.2.2 other hother) buf
  | hashMap isValidKey equal key mapped ihkey ihmapped =>
    have hsmall : val.entries.length < 256 ^ 4 := hfits.1.trans_eq (by norm_num)
    apply Reads.bind (Reads.number (by decide) hstart hsmall buf)
    apply Reads.entries val.entries _ HashMap.empty rfl
    intro entry hentry buf
    obtain ⟨hkey, hmapped⟩ := hfits.2 entry hentry
    exact Reads.bind (ihkey hsupported.1 entry.1 hkey buf)
      (Reads.bind (ihmapped hsupported.2 entry.2 hmapped _) (Reads.pure _ _))
  | hashSet isValidKey equal key ih =>
    have hsmall : val.entries.length < 256 ^ 8 := hfits.1.trans (by norm_num)
    apply Reads.bind (Reads.number (by decide) hstart hsmall buf)
    apply Reads.entries val.entries _ HashMap.empty rfl
    intro entry hentry buf
    exact Reads.bind (ih hsupported entry.1 (hfits.2 entry hentry) buf) (Reads.pure _ _)
  | variant small alternative coders ih =>
    have hsmall : val.1.val < 256 ^ 4 := by omega
    apply Reads.bind (Reads.number (by decide) hstart hsmall buf)
    rw [variantIndex_val]
    apply Reads.bind (ih _ (hsupported.2 _) val.2 hfits _)
    rw [Variant.construct_of_injective hsupported.1]
    exact Reads.pure _ _
  | expected res error ihresult iherror =>
    cases val with
    | inl val =>
      exact Reads.bind (Reads.bool hstart true buf)
        (Reads.bind (ihresult hsupported.1 val hfits _) (Reads.pure _ _))
    | inr reason =>
      exact Reads.bind (Reads.bool hstart false buf)
        (Reads.bind (iherror hsupported.2 reason hfits _) (Reads.pure _ _))

end Values

end PurcFetcher.Ipc
