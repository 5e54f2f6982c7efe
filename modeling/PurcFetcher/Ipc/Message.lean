import PurcFetcher.Ipc.RoundTrip

/-!
# Decoding a message

A message is the header and its arguments.  Decoding it gives the arguments back and
ends at the end of the buffer, except for four kinds of arguments: a `CString` whose
length is the mark of the null one, a 16-bit string that is too long to be allocated,
a type with an alignment that the buffer does not have, and a variant with two
alternatives of one type.
-/

namespace PurcFetcher.Ipc

open Bytes List Decoder Encoder

def encodeMessage (messageName : UInt16) (destinationID : UInt64) (arguments : List Argument) :
    Buffer :=
  encodeArguments arguments (encodeHeader messageName destinationID)

/-- Memory holds the bytes at an address below the end of memory. -/
def HoldsAt (memory : ℕ → UInt8) (address : ℕ) (bytes : List UInt8) : Prop :=
  address + bytes.length < 2 ^ 64 ∧
    ∀ index (hindex : index < bytes.length), memory (address + index) = bytes[index]

/-- A message that is decoded from a buffer at `address`, which is aligned to eight
bytes, has a valid header and the arguments that were encoded, and the decoder ends at
its end. -/
def RoundTrips (address : ℕ) (arguments : List Argument) : Prop :=
  ∀ (memory : ℕ → UInt8) (messageName : UInt16) (destinationID : UInt64)
    (isValidOptionSet isValidEnum : ℕ → Bool),
    isValidOptionSet 0 = true → isValidEnum messageName.toNat = true → 8 ∣ address →
    HoldsAt memory address (encodeMessage messageName destinationID arguments) →
      ∃ opened last, decodeHeader isValidOptionSet isValidEnum
            (Decoder.start memory address
              (encodeMessage messageName destinationID arguments).length) =
          (some (0, messageName.toNat, destinationID.toNat), opened) ∧
        opened.isValid = true ∧
        decodeArguments (arguments.map fun argument => ⟨argument.type, argument.coder⟩) opened =
          (some (arguments.map fun argument => ⟨argument.type, argument.value⟩), last) ∧
        last.bufferPos = address + (encodeMessage messageName destinationID arguments).length

/-! ## The header -/

section Header

variable {start : ℕ}

theorem reads_header (hstart : 8 ∣ start) {isValidOptionSet isValidEnum : ℕ → Bool}
    (hflags : isValidOptionSet 0 = true) {msgName : UInt16}
    (hname : isValidEnum msgName.toNat = true) (destID : UInt64) :
    Reads start (decodeHeader isValidOptionSet isValidEnum) (0, msgName.toNat, destID.toNat) []
      (encodeHeader msgName destID) := by
  have hzero : 0 < 256 ^ 1 := by decide
  apply Reads.bind (Reads.number (by decide) hstart hzero [])
  rw [if_pos hflags]
  apply Reads.bind (Reads.number (by decide) hstart msgName.toNat_lt _)
  rw [if_pos hname]
  exact Reads.bind (Reads.number (by decide) hstart destID.toNat_lt _) (Reads.pure _ _)

theorem reading_start {memory : ℕ → UInt8} {address : ℕ} {bytes : List UInt8}
    (haddress : 8 ∣ address) (hholds : HoldsAt memory address bytes) :
    Reading address (Decoder.start memory address bytes.length) bytes 0 :=
  { buffer := rfl
    holds := hholds.2
    position := if_pos (Nat.mod_eq_zero_of_dvd haddress)
    ends := rfl
    fits := hholds.1 }

end Header

/-! ## The arguments -/

variable {address : ℕ}

theorem prefix_encodeArguments (args : List Argument) (haddress : 8 ∣ address)
    (hsupported : ∀ arg ∈ args, arg.coder.Supported address)
    (hfits : ∀ arg ∈ args, arg.coder.Fits arg.value) (buf : Buffer) :
    buf <+: encodeArguments args buf := by
  induction args generalizing buf with
  | nil => exact prefix_rfl
  | cons arg rest ih =>
    have hfirst := arg.coder.reads haddress (hsupported arg mem_cons_self)
      arg.value (hfits arg mem_cons_self) buf
    exact hfirst.1.trans (ih (fun other hother => hsupported other (mem_cons_of_mem _ hother))
      (fun other hother => hfits other (mem_cons_of_mem _ hother)) _)

theorem decodeArguments_encodeArguments (haddress : 8 ∣ address) (args : List Argument)
    (hsupported : ∀ arg ∈ args, arg.coder.Supported address)
    (hfits : ∀ arg ∈ args, arg.coder.Fits arg.value) {buf : Buffer}
    {dec : Decoder} {whole : List UInt8}
    (hreading : Reading address dec whole buf.length)
    (hwhole : encodeArguments args buf <+: whole) :
    ∃ last,
      decodeArguments (args.map fun arg => ⟨arg.type, arg.coder⟩) dec =
        (some (args.map fun arg => ⟨arg.type, arg.value⟩), last) ∧
      Reading address last whole (encodeArguments args buf).length := by
  induction args generalizing buf dec with
  | nil => exact ⟨dec, rfl, hreading⟩
  | cons arg rest ih =>
    have hrestSupported : ∀ other ∈ rest, other.coder.Supported address :=
      fun other hother => hsupported other (mem_cons_of_mem _ hother)
    have hrestFits : ∀ other ∈ rest, other.coder.Fits other.value :=
      fun other hother => hfits other (mem_cons_of_mem _ hother)
    have hfirst := arg.coder.reads haddress (hsupported arg mem_cons_self)
      arg.value (hfits arg mem_cons_self) buf
    have hleads := prefix_encodeArguments rest haddress hrestSupported hrestFits
      (arg.coder.encode arg.value buf)
    obtain ⟨middle, hrun, hmiddle⟩ := hfirst.2 dec whole hreading (hleads.trans hwhole)
    obtain ⟨last, hlast, hend⟩ := ih hrestSupported hrestFits hmiddle hwhole
    refine ⟨last, ?_, hend⟩
    simp only [map_cons, decodeArguments, hrun, hlast]

/-- Arguments of supported types and sizes are decoded as they were encoded. -/
theorem roundTrips_of_supported {address : ℕ} {arguments : List Argument}
    (hsupported : ∀ argument ∈ arguments, argument.coder.Supported address)
    (hfits : ∀ argument ∈ arguments, argument.coder.Fits argument.value) :
    RoundTrips address arguments := by
  intro memory messageName destinationID isValidOptionSet isValidEnum hflags hname haddress hholds
  have hheader := reads_header haddress hflags hname destinationID
  have hleads := prefix_encodeArguments arguments haddress hsupported hfits
    (encodeHeader messageName destinationID)
  obtain ⟨opened, hopen, hreading⟩ := hheader.2 _ _ (reading_start haddress hholds) hleads
  obtain ⟨last, hlast, hend⟩ := decodeArguments_encodeArguments haddress arguments hsupported
    hfits hreading prefix_rfl
  refine ⟨opened, last, hopen, ?_, hlast, hend.position⟩
  rw [isValid, hreading.position, length_encodeHeader, bne_iff_ne]
  omega

/-- `uint32_t`. -/
def unsignedInt : Layout := .word

theorem roundTrips_of_supported_pair : RoundTrips 8
      [⟨_, .pair (.vector { elementSize := 8 } .string) (.optional (.arithmetic unsignedInt)),
        ([.null], some ⟨[1, 2, 3, 4], rfl⟩)⟩] := by
  apply roundTrips_of_supported
  · simp only [forall_mem_singleton, Coder.Supported]
    decide
  · simp only [forall_mem_singleton, Coder.Fits]
    decide

/-! ## Arguments that are not decoded as they were encoded -/

theorem holdsAt_getD {bytes : List UInt8} (hfits : address + bytes.length < 2 ^ 64) :
    HoldsAt (fun pointer => bytes.getD (pointer - address) 0) address bytes := by
  refine ⟨hfits, fun idx hidx => ?_⟩
  simp [hidx]

/-- The decoder of one argument after the header of a message. -/
theorem RoundTrips.decodes {arg : Argument} (hroundTrips : RoundTrips address [arg])
    (haddress : 8 ∣ address) (hleads : encodeHeader 0 0 <+: encodeMessage 0 0 [arg])
    (hfits : address + (encodeMessage 0 0 [arg]).length < 2 ^ 64) :
    ∃ opened,
      Reading address opened (encodeMessage 0 0 [arg]) (encodeHeader 0 0).length ∧
        (arg.coder.decode opened).1 = some arg.value := by
  have hholds := holdsAt_getD hfits
  have hheader : Reads address (decodeHeader (fun _ => true) (fun _ => true))
      (0, (0 : UInt16).toNat, (0 : UInt64).toNat) [] (encodeHeader 0 0) :=
    reads_header haddress rfl rfl 0
  obtain ⟨opened, hopen, hreading⟩ := hheader.2 _ _ (reading_start haddress hholds) hleads
  obtain ⟨other, last, hother, -, hdecode, -⟩ :=
    hroundTrips _ 0 0 (fun _ => true) (fun _ => true) rfl rfl haddress hholds
  rw [hopen] at hother
  cases hother
  refine ⟨opened, hreading, ?_⟩
  simp only [map_cons, map_nil, decodeArguments] at hdecode
  cases hrun : arg.coder.decode opened with
  | mk res => grind

theorem not_roundTrips_cString {bytes : List UInt8} (hlen : bytes.length = 2 ^ 32 - 1) :
    ¬ RoundTrips 8 [⟨_, .cString, some bytes⟩] := by
  intro hroundTrips
  have hencode : encodeMessage 0 0 [⟨_, .cString, some bytes⟩] =
      encodeFixedLengthData bytes 1 (encodeNumber 4 nullMarker (encodeHeader 0 0)) := by
    have hmod : bytes.length % 2 ^ 32 = bytes.length := Nat.mod_eq_of_lt (by omega)
    change encodeCString (some bytes) (encodeHeader 0 0) = _
    rw [encodeCString, hmod, take_length, hlen]
    rfl
  have hnum : encodeNumber 4 nullMarker (encodeHeader 0 0) <+:
      encodeMessage 0 0 [⟨_, .cString, some bytes⟩] := by
    rw [hencode]
    exact prefix_encodeFixedLengthData _ _ _
  have hlenMsg : (encodeMessage 0 0 [⟨_, .cString, some bytes⟩]).length < 2 ^ 33 := by
    rw [hencode, length_encodeFixedLengthData _ Nat.one_pos, encodeNumber,
      length_encodeFixedLengthData _ (by decide), length_encodeHeader, length_littleEndian,
      hlen]
    decide
  obtain ⟨opened, hreading, hval⟩ := hroundTrips.decodes (by decide)
    ((prefix_encodeFixedLengthData _ _ _).trans hnum) (by omega)
  have hmarker : nullMarker < 256 ^ 4 := by decide
  have hnull : Reads 8 decodeCString none (encodeHeader 0 0)
      (encodeNumber 4 nullMarker (encodeHeader 0 0)) := by
    apply Reads.bind (Reads.number (by decide) (by decide) hmarker _)
    exact Reads.pure _ _
  obtain ⟨next, hrun, -⟩ := hnull.2 opened _ hreading hnum
  rw [Coder.decode, hrun] at hval
  cases hval

/-- `long double`, of 16 bytes with an alignment of 16. -/
def longDouble : Layout :=
  { size := 16, alignmentLog := 4, pos := by decide, small := by decide,
    alignmentLog_lt := by decide }

theorem not_roundTrips_longDouble :
    ¬ RoundTrips 8 [⟨_, .arithmetic longDouble, ⟨List.replicate 16 0, rfl⟩⟩] := by
  intro hroundTrips
  obtain ⟨opened, hreading, hval⟩ := hroundTrips.decodes (by decide)
    (prefix_encodeFixedLengthData _ _ _) (by decide)
  have hroom : opened.hasRoom 16 16 = false := by
    rw [hasRoom, hreading.position, hreading.buffer, hreading.ends]
    decide
  have hrun : alignBufferPosition 16 16 opened = failInvalid opened := by
    rw [alignBufferPosition, hroom]
    rfl
  have hnone : decodeFixedLengthData 16 16 opened = failInvalid opened := bind_of_none hrun
  have hdecode : Coder.decode (.arithmetic longDouble) opened = failInvalid opened := hnone
  rw [hdecode] at hval
  cases hval

/-- `Variant<uint32_t, uint32_t>`. -/
def sameVariant : Coder (Variant (fun _ : Fin 1 => Block 4) fun _ : Fin 2 => 0) :=
  .variant (by decide) _ fun _ => .arithmetic unsignedInt

theorem not_roundTrips_variant :
    ¬ RoundTrips 8 [⟨_, sameVariant, ⟨1, List.replicate 4 0, rfl⟩⟩] := by
  intro hroundTrips
  have hreads : Reads 8 sameVariant.decode ⟨0, replicate 4 0, rfl⟩ (encodeHeader 0 0)
      (encodeMessage 0 0 [⟨_, sameVariant, ⟨1, replicate 4 0, rfl⟩⟩]) := by
    have hone : 1 < 256 ^ 4 := by decide
    exact Reads.bind (Reads.number (by decide) (by decide) hone _)
      (Reads.bind (reads_arithmetic unsignedInt (by decide) ⟨replicate 4 0, rfl⟩ _)
        (Reads.pure _ _))
  obtain ⟨opened, hreading, hval⟩ := hroundTrips.decodes (by decide) hreads.1 (by decide)
  obtain ⟨next, hrun, -⟩ := hreads.2 opened _ hreading prefix_rfl
  rw [hrun, Option.some.injEq] at hval
  exact absurd (congrArg Sigma.fst hval) (by decide)

theorem decodeStringText16_of_long {len : ℕ} (hlong : maxInternalLength 2 < len)
    (dec : Decoder) : (decodeStringText16 len dec).1 = none := by
  rw [decodeStringText16]
  by_cases hroom : dec.bufferIsLargeEnoughToContain 2 2 len = true
  · have htest : requireRoom 2 2 len dec = (some (), dec) := by
      rw [requireRoom, if_pos hroom]
    rw [bind_of_some htest, dif_neg (not_le.2 hlong)]
    rfl
  · have htest : requireRoom 2 2 len dec = failInvalid dec := by
      rw [requireRoom, if_neg hroom]
    rw [bind_of_none htest]

theorem not_roundTrips_string16 {chars : List UInt16} (hnonempty : chars ≠ [])
    (hbounded : chars.length ≤ maxLength)
    (hlong : maxInternalLength 2 < chars.length) :
    ¬ RoundTrips 8 [⟨_, .string, .characters16 chars hnonempty hbounded⟩] := by
  intro hroundTrips
  obtain ⟨hne, hsmall⟩ := length_ne_nullMarker hbounded
  have hfirst := Reads.number (by decide : 4 ∣ 8) (by decide : 8 ∣ 8) hsmall (encodeHeader 0 0)
  have hsecond := Reads.bool (by decide : 8 ∣ 8) false
    (encodeNumber 4 chars.length (encodeHeader 0 0))
  have htext : encodeBool false (encodeNumber 4 chars.length (encodeHeader 0 0)) <+:
      encodeMessage 0 0 [⟨_, .string, .characters16 chars hnonempty hbounded⟩] :=
    prefix_encodeFixedLengthData _ _ _
  have hlenMsg : (encodeMessage 0 0
      [⟨_, .string, .characters16 chars hnonempty hbounded⟩]).length < 2 ^ 33 := by
    change (encodeFixedLengthData _ 2 _).length < _
    rw [length_encodeFixedLengthData _ (by decide), encodeBool, encodeNumber, encodeNumber,
      length_encodeFixedLengthData _ (by decide), length_encodeFixedLengthData _ (by decide),
      length_encodeHeader, length_littleEndian, length_littleEndian]
    rw [maxLength] at hbounded
    simp [length_flatMap, roundUp]
    omega
  obtain ⟨opened, hreading, hval⟩ := hroundTrips.decodes (by decide)
    (hfirst.1.trans (hsecond.1.trans htext)) (by omega)
  obtain ⟨second, hnum, hreadingSecond⟩ := hfirst.2 opened _ hreading (hsecond.1.trans htext)
  obtain ⟨third, hbool, -⟩ := hsecond.2 second _ hreadingSecond htext
  have hdecode : Coder.decode .string opened = decodeStringText16 chars.length third := by
    rw [Coder.decode, decodeString, bind_of_some hnum, if_neg hne, bind_of_some hbool]
    rfl
  rw [hdecode, decodeStringText16_of_long hlong] at hval
  cases hval

/-- Four messages of one argument that are not decoded as they were encoded. -/
theorem message_changes :
    (¬ RoundTrips 8 [⟨_, .cString, some (List.replicate (2 ^ 32 - 1) 0)⟩]) ∧
    (¬ RoundTrips 8 [⟨_, .arithmetic longDouble, ⟨List.replicate 16 0, rfl⟩⟩]) ∧
    (¬ RoundTrips 8 [⟨_, sameVariant, ⟨1, List.replicate 4 0, rfl⟩⟩]) ∧
    ¬ RoundTrips 8
      [⟨_, .string, .characters16 (List.replicate maxLength 0)
        (mt (List.replicate_eq_nil_iff _).1 (by decide)) List.length_replicate.le⟩] := by
  refine ⟨not_roundTrips_cString length_replicate, not_roundTrips_longDouble,
    not_roundTrips_variant, not_roundTrips_string16 _ _ ?_⟩
  rw [length_replicate]
  decide

end PurcFetcher.Ipc
