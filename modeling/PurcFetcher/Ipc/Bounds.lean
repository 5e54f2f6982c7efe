import PurcFetcher.Ipc.ArgumentCoders

/-!
# Decoding what a peer sent

Whatever the bytes are, the decoder reads only inside its buffer, stays inside it
while its calls succeed, and refuses every further byte once it is invalid.  `Safe`
states this for one decoding function; its rules follow the structure of the
decoders.
-/

namespace PurcFetcher.Ipc

open Decoder

/-- The buffer is somewhere in memory, the position is null or inside it, and so was
every read. -/
structure Sound (decoder : Decoder) : Prop where
  nonnull : 0 < decoder.buffer
  ends : decoder.bufferEnd < 2 ^ 64
  position : decoder.bufferPos = 0 ∨
    decoder.buffer ≤ decoder.bufferPos ∧ decoder.bufferPos ≤ decoder.bufferEnd
  reads : ∀ read ∈ decoder.reads, decoder.buffer ≤ read.1 ∧ read.1 + read.2 ≤ decoder.bufferEnd

/-- What a decoding function does to a sound decoder.  A function that needs a byte
refuses an invalid decoder. -/
structure Safe {A : Type} (needsByte : Prop) (run : Decode A) : Prop where
  sound : ∀ decoder, Sound decoder → Sound (run decoder).2
  same : ∀ decoder, (run decoder).2.buffer = decoder.buffer ∧
    (run decoder).2.bufferEnd = decoder.bufferEnd
  sticky : ∀ decoder, Sound decoder → decoder.bufferPos = 0 → (run decoder).2.bufferPos = 0
  refuses : needsByte → ∀ decoder, Sound decoder → decoder.bufferPos = 0 → (run decoder).1 = none
  keeps : ∀ decoder, Sound decoder → decoder.bufferPos ≠ 0 → (run decoder).1.isSome = true →
    (run decoder).2.bufferPos ≠ 0

namespace Safe

variable {A B : Type} {needs other : Prop}

theorem weaken {run : Decode A} (hsafe : Safe needs run) (himp : other → needs) :
    Safe other run :=
  { hsafe with refuses := fun hother => hsafe.refuses (himp hother) }

theorem pure (val : A) : Safe False (Pure.pure val : Decode A) where
  sound _ hsound := hsound
  same _ := ⟨rfl, rfl⟩
  sticky _ _ hnull := hnull
  refuses hfalse := hfalse.elim
  keeps _ _ hvalid _ := hvalid

theorem fail : Safe True (Decoder.fail : Decode A) where
  sound _ hsound := hsound
  same _ := ⟨rfl, rfl⟩
  sticky _ _ hnull := hnull
  refuses _ _ _ _ := rfl
  keeps _ _ hvalid _ := hvalid

theorem failInvalid : Safe True (Decoder.failInvalid : Decode A) where
  sound _ hsound := { hsound with position := Or.inl rfl }
  same _ := ⟨rfl, rfl⟩
  sticky _ _ _ := rfl
  refuses _ _ _ _ := rfl
  keeps _ _ _ hsome := by cases hsome

theorem bind {first : Decode A} {next : A → Decode B} (hfirst : Safe needs first)
    (hnext : ∀ val, Safe other (next val)) : Safe (needs ∨ other) (first >>= next) := by
  have hcases : ∀ dec, ((first dec).1 = none ∧
      (first >>= next) dec = (none, (first dec).2)) ∨
      ∃ val, (first dec).1 = some val ∧ (first >>= next) dec = next val (first dec).2 := by
    intro dec
    cases hrun : first dec with
    | mk res =>
      cases res with
      | none => exact Or.inl ⟨rfl, bind_of_none hrun⟩
      | some val => exact Or.inr ⟨val, rfl, bind_of_some hrun⟩
  refine ⟨fun dec hsound => ?_, fun dec => ?_, fun dec hsound hnull => ?_,
    fun hneeds dec hsound hnull => ?_, fun dec hsound hvalid hsome => ?_⟩
  · have hmiddle := hfirst.sound dec hsound
    obtain ⟨-, hrun⟩ | ⟨val, -, hrun⟩ := hcases dec
    · rw [hrun]
      exact hmiddle
    · rw [hrun]
      exact (hnext val).sound _ hmiddle
  · have hmiddle := hfirst.same dec
    obtain ⟨-, hrun⟩ | ⟨val, -, hrun⟩ := hcases dec
    · rw [hrun]
      exact hmiddle
    · rw [hrun]
      exact ⟨((hnext val).same _).1.trans hmiddle.1, ((hnext val).same _).2.trans hmiddle.2⟩
  · have hmiddle := hfirst.sticky dec hsound hnull
    obtain ⟨-, hrun⟩ | ⟨val, -, hrun⟩ := hcases dec
    · rw [hrun]
      exact hmiddle
    · rw [hrun]
      exact (hnext val).sticky _ (hfirst.sound dec hsound) hmiddle
  · obtain ⟨-, hrun⟩ | ⟨val, hval, hrun⟩ := hcases dec
    · rw [hrun]
    · rw [hrun]
      cases hneeds with
      | inl hneeds =>
        rw [hfirst.refuses hneeds dec hsound hnull] at hval
        cases hval
      | inr hother =>
        exact (hnext val).refuses hother _ (hfirst.sound dec hsound)
          (hfirst.sticky dec hsound hnull)
  · obtain ⟨-, hrun⟩ | ⟨val, hval, hrun⟩ := hcases dec
    · rw [hrun] at hsome
      cases hsome
    · rw [hrun] at hsome ⊢
      have hmiddle := hfirst.keeps dec hsound hvalid (by rw [hval]; rfl)
      exact (hnext val).keeps _ (hfirst.sound dec hsound) hmiddle hsome

theorem needsFirst {first : Decode A} {next : A → Decode B} (hfirst : Safe True first)
    (hnext : ∀ val, Safe False (next val)) : Safe True (first >>= next) :=
  (hfirst.bind hnext).weaken Or.inl

theorem ite {cond : Prop} [Decidable cond] {left right : Decode A}
    (hleft : Safe needs left) (hright : Safe needs right) :
    Safe needs (if cond then left else right) := by
  split_ifs
  · exact hleft
  · exact hright

/-! ### Reads -/

variable {align : ℕ}

theorem hasRoom_of_null {dec : Decoder} (size : ℕ) (hpos : 0 < align)
    (hsmall : align < 2 ^ 64) (hsound : Sound dec) (hnull : dec.bufferPos = 0) :
    dec.hasRoom align size = false := by
  have hnonnull := hsound.nonnull
  rw [hasRoom, hnull, roundUpToAlignment, Nat.zero_add, Nat.mod_eq_of_lt (by omega),
    Nat.div_eq_of_lt (by omega), Nat.zero_mul, alignedBufferIsLargeEnoughToContain]
  simp
  omega

/-- The only place where bytes of the buffer are read. -/
theorem fixedLengthData (size : ℕ) (hpos : 0 < align) (hsmall : align < 2 ^ 64) :
    Safe True (decodeFixedLengthData size align) := by
  have hcases : ∀ dec : Decoder,
      (dec.hasRoom align size = false ∧
        decodeFixedLengthData size align dec = Decoder.failInvalid dec) ∨
      dec.hasRoom align size = true ∧ decodeFixedLengthData size align dec = copyBytes size
            { dec with bufferPos := roundUpToAlignment dec.bufferPos align } := by
    intro dec
    by_cases hroom : dec.hasRoom align size = true
    · have halign : alignBufferPosition align size dec = (some (),
          { dec with bufferPos := roundUpToAlignment dec.bufferPos align }) :=
        if_pos hroom
      exact Or.inr ⟨hroom, bind_of_some halign⟩
    · have halign : alignBufferPosition align size dec = Decoder.failInvalid dec :=
        if_neg hroom
      exact Or.inl ⟨Bool.eq_false_of_not_eq_true hroom, bind_of_none halign⟩
  have hinside : ∀ dec : Decoder, dec.hasRoom align size = true →
      dec.buffer ≤ roundUpToAlignment dec.bufferPos align ∧
        roundUpToAlignment dec.bufferPos align + size ≤ dec.bufferEnd := by
    intro dec hroom
    simp only [hasRoom, alignedBufferIsLargeEnoughToContain, Bool.and_eq_true,
      decide_eq_true_eq] at hroom
    omega
  have hnull : ∀ dec, Sound dec → dec.bufferPos = 0 →
      decodeFixedLengthData size align dec = Decoder.failInvalid dec := by
    intro dec hsound hpos0
    have hroom := hasRoom_of_null size hpos hsmall hsound hpos0
    obtain ⟨-, hrun⟩ | ⟨htrue, -⟩ := hcases dec
    · exact hrun
    · rw [hroom] at htrue
      cases htrue
  refine ⟨fun dec hsound => ?_, fun dec => ?_, fun dec hsound hzero => ?_,
    fun _ dec hsound hzero => ?_, fun dec hsound _ hsome => ?_⟩
  · obtain ⟨-, hrun⟩ | ⟨hroom, hrun⟩ := hcases dec
    · rw [hrun]
      exact failInvalid.sound (A := Unit) dec hsound
    · obtain ⟨hstart, hend⟩ := hinside dec hroom
      rw [hrun]
      refine { hsound with position := Or.inr ⟨?_, hend⟩, reads := ?_ }
      · exact hstart.trans (Nat.le_add_right _ _)
      · intro read hread
        rw [copyBytes, List.mem_append, List.mem_singleton] at hread
        cases hread with
        | inl hold => exact hsound.reads read hold
        | inr hnew => exact hnew ▸ ⟨hstart, hend⟩
  · obtain ⟨-, hrun⟩ | ⟨-, hrun⟩ := hcases dec <;> rw [hrun] <;> exact ⟨rfl, rfl⟩
  · rw [hnull dec hsound hzero]
    rfl
  · rw [hnull dec hsound hzero]
    rfl
  · obtain ⟨-, hrun⟩ | ⟨hroom, hrun⟩ := hcases dec
    · rw [hrun] at hsome
      cases hsome
    · have hstart := (hinside dec hroom).1
      have hnonnull := hsound.nonnull
      rw [hrun]
      change roundUpToAlignment dec.bufferPos align + size ≠ 0
      omega

theorem number {width : ℕ} (hpos : 0 < width) (hsmall : width < 2 ^ 64) :
    Safe True (decodeNumber width) :=
  (fixedLengthData width hpos hsmall).needsFirst fun _ => pure _

theorem bool : Safe True decodeBool := (number (by decide) (by decide)).needsFirst fun _ => pure _

theorem requireRoom (elementSize numElements : ℕ) (hpos : 0 < align)
    (hsmall : align < 2 ^ 64) :
    Safe True (Ipc.requireRoom elementSize align numElements) := by
  have hcases : ∀ dec : Decoder,
      Ipc.requireRoom elementSize align numElements dec = Decoder.failInvalid dec ∨
      dec.hasRoom align (numElements * elementSize) = true ∧
        Ipc.requireRoom elementSize align numElements dec = (some (), dec) := by
    intro dec
    by_cases henough : dec.bufferIsLargeEnoughToContain elementSize align numElements = true
    · grind [bufferIsLargeEnoughToContain, Ipc.requireRoom]
    · exact Or.inl (if_neg henough)
  have hnull : ∀ dec, Sound dec → dec.bufferPos = 0 →
      Ipc.requireRoom elementSize align numElements dec =
        Decoder.failInvalid dec := by
    intro dec hsound hzero
    obtain hrun | ⟨hroom, -⟩ := hcases dec
    · exact hrun
    · rw [hasRoom_of_null _ hpos hsmall hsound hzero] at hroom
      cases hroom
  refine ⟨fun dec hsound => ?_, fun dec => ?_, fun dec hsound hzero => ?_,
    fun _ dec hsound hzero => ?_, fun dec hsound hvalid hsome => ?_⟩
  · obtain hrun | ⟨-, hrun⟩ := hcases dec
    · rw [hrun]
      exact failInvalid.sound (A := Unit) dec hsound
    · rw [hrun]
      exact hsound
  · obtain hrun | ⟨-, hrun⟩ := hcases dec <;> rw [hrun] <;> exact ⟨rfl, rfl⟩
  · rw [hnull dec hsound hzero]
    rfl
  · rw [hnull dec hsound hzero]
    rfl
  · obtain hrun | ⟨-, hrun⟩ := hcases dec
    · rw [hrun] at hsome
      cases hsome
    · rw [hrun]
      exact hvalid

theorem orInvalid {run : Decode A} (hsafe : Safe needs run) : Safe needs (Ipc.orInvalid run) := by
  have hcases : ∀ dec, ((run dec).1 = none ∧
      Ipc.orInvalid run dec = Decoder.failInvalid (run dec).2) ∨
      Ipc.orInvalid run dec = run dec := by
    intro dec
    rw [Ipc.orInvalid]
    rcases run dec with ⟨_ | val, middle⟩
    · exact Or.inl ⟨rfl, rfl⟩
    · exact Or.inr rfl
  refine ⟨fun dec hsound => ?_, fun dec => ?_, fun dec hsound hzero => ?_,
    fun hneeds dec hsound hzero => ?_, fun dec hsound hvalid hsome => ?_⟩
  · obtain ⟨-, hrun⟩ | hrun := hcases dec <;> rw [hrun]
    · exact failInvalid.sound (A := A) _ (hsafe.sound dec hsound)
    · exact hsafe.sound dec hsound
  · obtain ⟨-, hrun⟩ | hrun := hcases dec <;> rw [hrun] <;> exact hsafe.same dec
  · obtain ⟨-, hrun⟩ | hrun := hcases dec <;> rw [hrun]
    · rfl
    · exact hsafe.sticky dec hsound hzero
  · obtain ⟨-, hrun⟩ | hrun := hcases dec <;> rw [hrun]
    · rfl
    · exact hsafe.refuses hneeds dec hsound hzero
  · obtain ⟨-, hrun⟩ | hrun := hcases dec <;> rw [hrun] at hsome ⊢
    · cases hsome
    · exact hsafe.keeps dec hsound hvalid hsome

theorem elements (traits : VectorTraits) {element : Decode A} (helement : Safe False element)
    (count size : ℕ) : Safe False (decodeElements traits element count size) := by
  induction count generalizing size with
  | zero => exact pure _
  | succ count ih =>
    exact (helement.bind fun _ => ite (((ih _).bind fun _ => pure _).weaken Or.inl)
      (fail.weaken False.elim)).weaken Or.inl

section Maps

variable {K V : Type} {isValidKey : K → Bool} {equal : K → K → Bool}

theorem addEntry (map : HashMap isValidKey equal V) (entry : K × V) :
    Safe False (Ipc.addEntry map entry) := by
  rw [Ipc.addEntry]
  split
  · exact pure _
  · exact failInvalid.weaken False.elim

theorem entries {entry : Decode (K × V)} (hentry : Safe False entry) (count : ℕ)
    (map : HashMap isValidKey equal V) : Safe False (decodeEntries entry count map) := by
  induction count generalizing map with
  | zero => exact pure _
  | succ count ih =>
    exact (hentry.bind fun next => ((addEntry map next).bind fun map => ih map).weaken
      Or.inl).weaken Or.inl

end Maps

/-! ### Strings and vectors -/

theorem stringText8 (len : ℕ) : Safe False (decodeStringText8 len) := by
  refine (Safe.bind (requireRoom 1 len (by decide) (by decide)) fun _ => ?_).weaken Or.inr
  split_ifs
  · exact ((fixedLengthData len (by decide) (by decide)).needsFirst fun _ => pure _).weaken
      False.elim
  · exact fail.weaken False.elim

theorem stringText16 (len : ℕ) : Safe False (decodeStringText16 len) := by
  have hbytes := fixedLengthData (len * 2) (by decide : 0 < 2) (by decide : 2 < 2 ^ 64)
  refine (Safe.bind (requireRoom 2 len (by decide) (by decide)) fun _ => ?_).weaken Or.inr
  by_cases hlen : len ≤ maxInternalLength 2
  · rw [dif_pos hlen]
    refine (hbytes.needsFirst fun _ => ?_).weaken False.elim
    by_cases hempty : len = 0
    · rw [dif_pos hempty]
      exact pure _
    · rw [dif_neg hempty]
      exact pure _
  · rw [dif_neg hlen]
    exact fail.weaken False.elim

theorem string : Safe True decodeString :=
  (number (by decide) (by decide)).needsFirst fun _ =>
    ite (pure _) ((bool.needsFirst fun _ => ite (stringText8 _) (stringText16 _)).weaken False.elim)

theorem cString : Safe True decodeCString :=
  (number (by decide) (by decide)).needsFirst fun len =>
    ite (pure _) (((requireRoom 1 len (by decide) (by decide)).needsFirst fun _ =>
      ((fixedLengthData len (by decide) (by decide)).needsFirst fun _ => pure _).weaken
        False.elim).weaken False.elim)

theorem dataReference : Safe True decodeVariableLengthByteArray :=
  (number (by decide) (by decide)).needsFirst fun size =>
    ((fixedLengthData size (by decide) (by decide)).needsFirst fun _ => pure _).weaken False.elim

end Safe

theorem Layout.alignment_lt (layout : Layout) : layout.alignment < 2 ^ 64 :=
  Nat.pow_lt_pow_right (by decide) layout.alignmentLog_lt

theorem Safe.arithmeticVector (layout : Layout) : Safe True (decodeArithmeticVector layout) :=
  (Safe.number (by decide) (by decide)).orInvalid.needsFirst fun size =>
    ((Safe.requireRoom layout.size size layout.alignment_pos layout.alignment_lt).needsFirst
      fun _ => Safe.ite (((Safe.fixedLengthData (size * layout.size) layout.alignment_pos
        layout.alignment_lt).orInvalid.needsFirst fun _ => Safe.pure _).weaken False.elim)
          (Safe.fail.weaken False.elim)).weaken False.elim

/-! ## Coders -/

namespace Coder

/-- The encoding of every value of the type has at least one byte. -/
def needsByte : {A : Type} → Coder A → Bool
  | _, monostate => false
  | _, pair first second => first.needsByte || second.needsByte
  | _, _ => true

theorem safe {A : Type} (coder : Coder A) : Safe (coder.needsByte = true) coder.decode := by
  induction coder with
  | arithmetic layout =>
    exact (Safe.fixedLengthData layout.size layout.alignment_pos layout.alignment_lt).weaken
      fun _ => trivial
  | enumeration layout isValidEnum =>
    have hbytes := Safe.fixedLengthData layout.size layout.alignment_pos layout.alignment_lt
    refine (hbytes.needsFirst fun val => ?_).weaken fun _ => trivial
    by_cases hvalid : isValidEnum val = true
    · rw [dif_pos hvalid]
      exact Safe.pure _
    · rw [dif_neg hvalid]
      exact Safe.fail.weaken False.elim
  | string => exact Safe.string.weaken fun _ => trivial
  | cString => exact Safe.cString.weaken fun _ => trivial
  | dataReference => exact Safe.dataReference.weaken fun _ => trivial
  | optional val ih =>
    refine (Safe.bool.needsFirst fun _ => ?_).weaken fun _ => trivial
    exact Safe.ite ((ih.bind fun _ => Safe.pure _).weaken False.elim) (Safe.pure _)
  | monostate => exact (Safe.pure ()).weaken Bool.false_ne_true
  | pair first second ihfirst ihsecond =>
    refine (ihfirst.bind fun _ => ihsecond.bind fun _ => Safe.pure _).weaken fun hneeds => ?_
    rw [needsByte, Bool.or_eq_true] at hneeds
    exact hneeds.imp_right Or.inl
  | arithmeticVector layout => exact (Safe.arithmeticVector layout).weaken fun _ => trivial
  | vector traits element ih =>
    refine ((Safe.number (by decide) (by decide)).needsFirst fun size => ?_).weaken fun _ => trivial
    exact Safe.elements traits (ih.weaken False.elim) size 0
  | hashMap isValidKey equal key val ihkey ihvalue =>
    refine ((Safe.number (by decide) (by decide)).needsFirst fun size => ?_).weaken fun _ => trivial
    apply Safe.entries
    exact (ihkey.bind fun _ => ihvalue.bind fun _ => Safe.pure _).weaken False.elim
  | hashSet isValidKey equal key ih =>
    refine ((Safe.number (by decide) (by decide)).needsFirst fun size => ?_).weaken fun _ => trivial
    apply Safe.entries
    exact (ih.bind fun _ => Safe.pure _).weaken False.elim
  | variant small alternative coders ih =>
    refine ((Safe.number (by decide) (by decide)).needsFirst fun idx => ?_).weaken fun _ => trivial
    exact ((ih _).bind fun _ => Safe.pure _).weaken False.elim
  | expected val error ihvalue iherror =>
    refine (Safe.bool.needsFirst fun _ => ?_).weaken fun _ => trivial
    exact Safe.ite ((ihvalue.bind fun _ => Safe.pure _).weaken False.elim)
      ((iherror.bind fun _ => Safe.pure _).weaken False.elim)

end Coder

/-! ## Sequences of calls -/

/-- A call of `decode`: whether its type needs a byte, whether it succeeded, and the
decoder after it. -/
structure Call where
  needsByte : Bool
  succeeded : Bool
  decoder : Decoder

/-- All calls in turn, whether those before succeeded or not. -/
def runCalls : List ((A : Type) × Coder A) → Decoder → List Call
  | [], _ => []
  | ⟨_, coder⟩ :: rest, decoder =>
    { needsByte := coder.needsByte, succeeded := (coder.decode decoder).1.isSome,
      decoder := (coder.decode decoder).2 } :: runCalls rest (coder.decode decoder).2

/-- Every read of the calls lies in the buffer; after a successful call for a type that
needs a byte so does the position; and no such call succeeds after a call that left
the decoder invalid. -/
structure CallsSafe (buffer bufferEnd : ℕ) (calls : List Call) : Prop where
  reads : ∀ call ∈ calls, ∀ read ∈ call.decoder.reads, buffer ≤ read.1 ∧ read.1 + read.2 ≤ bufferEnd
  position : ∀ call ∈ calls, call.needsByte = true → call.succeeded = true →
    buffer ≤ call.decoder.bufferPos ∧ call.decoder.bufferPos ≤ bufferEnd
  sticky : calls.Pairwise fun earlier later =>
    earlier.decoder.bufferPos = 0 → later.needsByte = true → later.succeeded = false

theorem runCalls_of_null {dec : Decoder} (hsound : Sound dec)
    (hnull : dec.bufferPos = 0) (coders : List ((A : Type) × Coder A)) :
    ∀ call ∈ runCalls coders dec, call.needsByte = true → call.succeeded = false := by
  induction coders generalizing dec with
  | nil => simp [runCalls]
  | cons typed rest ih =>
    obtain ⟨type, coder⟩ := typed
    have hsafe := coder.safe
    intro call hcall hneeds
    rw [runCalls, List.mem_cons] at hcall
    cases hcall with
    | inl hfirst =>
      subst hfirst
      rw [hsafe.refuses hneeds dec hsound hnull]
      rfl
    | inr hrest =>
      exact ih (hsafe.sound dec hsound) (hsafe.sticky dec hsound hnull) call hrest hneeds

theorem callsSafe_runCalls {dec : Decoder} (hsound : Sound dec)
    (coders : List ((A : Type) × Coder A)) :
    CallsSafe dec.buffer dec.bufferEnd (runCalls coders dec) := by
  induction coders generalizing dec with
  | nil => exact ⟨by simp [runCalls], by simp [runCalls], List.Pairwise.nil⟩
  | cons typed rest ih =>
    obtain ⟨type, coder⟩ := typed
    have hsafe := coder.safe
    have hnext := hsafe.sound dec hsound
    obtain ⟨hbuf, hend⟩ := hsafe.same dec
    have hrest := ih hnext
    rw [hbuf, hend] at hrest
    refine ⟨List.forall_mem_cons.2 ⟨?_, hrest.reads⟩,
      List.forall_mem_cons.2 ⟨?_, hrest.position⟩, List.pairwise_cons.2 ⟨?_, hrest.sticky⟩⟩
    · intro read hread
      rw [← hbuf, ← hend]
      exact hnext.reads read hread
    · intro hneeds hsucceeded
      have hvalid : dec.bufferPos ≠ 0 := by
        intro hnull
        have hnone := hsafe.refuses hneeds dec hsound hnull
        rw [hnone] at hsucceeded
        cases hsucceeded
      have hpos := hnext.position.resolve_left (hsafe.keeps dec hsound hvalid hsucceeded)
      rwa [hbuf, hend] at hpos
    · grind [runCalls_of_null]

theorem safe_decodeHeader (isValidOptionSet isValidEnum : ℕ → Bool) :
    Safe True (decodeHeader isValidOptionSet isValidEnum) :=
  (Safe.number (by decide) (by decide)).needsFirst fun _ =>
    Safe.ite (((Safe.number (by decide) (by decide)).needsFirst fun _ =>
      Safe.ite (((Safe.number (by decide) (by decide)).needsFirst fun _ => Safe.pure _).weaken
        False.elim) (Safe.fail.weaken False.elim)).weaken False.elim)
      (Safe.fail.weaken False.elim)

theorem sound_start (memory : ℕ → UInt8) {address size : ℕ} (hnonnull : 0 < address)
    (hfits : address + size < 2 ^ 64) : Sound (Decoder.start memory address size) where
  nonnull := hnonnull
  ends := hfits
  position := by grind [Decoder.start]
  reads := by simp [Decoder.start]

/-- Every sequence of calls on a message, of whatever bytes it consists, is safe. -/
theorem message_callsSafe (memory : ℕ → UInt8) (address size : ℕ) (hnonnull : 0 < address)
    (hfits : address + size < 2 ^ 64) (isValidOptionSet isValidEnum : ℕ → Bool)
    (coders : List ((A : Type) × Coder A)) :
    CallsSafe address (address + size)
      (runCalls coders
        (decodeHeader isValidOptionSet isValidEnum
          (Decoder.start memory address size)).2) := by
  have hheader := safe_decodeHeader isValidOptionSet isValidEnum
  have hsound := hheader.sound _ (sound_start memory hnonnull hfits)
  have hcalls := callsSafe_runCalls hsound coders
  rwa [(hheader.same _).1, (hheader.same _).2] at hcalls

theorem message_callsSafe_strings : CallsSafe 4096 4128
      (runCalls [⟨_, .string⟩, ⟨_, .vector { elementSize := 8 } .cString⟩]
        (decodeHeader (fun _ => true) (fun _ => true)
          (Decoder.start (fun _ => 1) 4096 32)).2) :=
  message_callsSafe (fun _ => 1) 4096 32 (by decide) (by decide) _ _ _

end PurcFetcher.Ipc
