import PurcFetcher.Core.Utf16
import PurcFetcher.Wtf.Text

/-!
# Strings as UTF-8

`String::utf8` in its lenient mode, translated from `StringImpl.cpp` and
`UTF8Conversion.cpp`.  A surrogate without its partner becomes U+FFFD, except for a lead
surrogate at the end of the string, which is written as it is.  Text that can be written in
UTF-16 is converted to its UTF-8 encoding, and an ASCII character to one byte wherever it
stands.
-/

namespace PurcFetcher.Text

open List

def isSurrogateLead (unit : UChar) : Bool :=
  decide (0xD800 ≤ unit.toNat) && decide (unit.toNat ≤ 0xDBFF)

def isSurrogateTrail (unit : UChar) : Bool :=
  decide (0xDC00 ≤ unit.toNat) && decide (unit.toNat ≤ 0xDFFF)

/-- `U16_SURROGATE_OFFSET`. -/
def surrogateOffset : ℕ := 0xD800 * 0x400 + 0xDC00 - 0x10000

/-- `U16_GET_SUPPLEMENTARY`. -/
def supplementary (lead trail : UChar) : ℕ :=
  lead.toNat * 0x400 + trail.toNat - surrogateOffset

/-- `U8_APPEND` of a code point that is no surrogate. -/
def appendCodePoint (codePoint : ℕ) : List LChar :=
  String.utf8EncodeChar (Char.ofNat codePoint)

def replacementCharacter : ℕ := 0xFFFD

def putUTF8Triple (unit : UChar) : List LChar :=
  [.ofNat (0xE0 + unit.toNat / 0x1000), .ofNat (0x80 + unit.toNat / 0x40 % 0x40),
    .ofNat (0x80 + unit.toNat % 0x40)]

/-- One code unit that is not the first of a pair. -/
def appendUnit (unit : UChar) : List LChar :=
  appendCodePoint
    (if isSurrogateLead unit || isSurrogateTrail unit then replacementCharacter else unit.toNat)

/-- The lenient loop; `final` is what the caller writes for a lead surrogate at the end. -/
def convertUTF16ToUTF8 (final : UChar → List LChar) : Str → List LChar
  | [] => []
  | [unit] => if isSurrogateLead unit then final unit else appendUnit unit
  | unit :: next :: rest =>
    if isSurrogateLead unit && isSurrogateTrail next then
      appendCodePoint (supplementary unit next) ++ convertUTF16ToUTF8 final rest
    else appendUnit unit ++ convertUTF16ToUTF8 final (next :: rest)

/-- What `StringImpl::utf8Impl` leaves in its buffer. -/
def utf8Impl (text : Str) : List LChar :=
  convertUTF16ToUTF8 putUTF8Triple text

/-- `String::utf8`.  A string that may need more than the buffer holds fails an assertion
that is kept in release builds. -/
def utf8 (text : Str) : Option (List LChar) :=
  if maxLength / 3 < text.length then none else some (utf8Impl text)

/-! ## Code points -/

variable {codePoint : ℕ} {byte : LChar}

theorem toNat_ofNat_of_valid
    (hvalid : codePoint < 0xD800 ∨ 0xDFFF < codePoint ∧ codePoint < 0x110000) :
    (Char.ofNat codePoint).toNat = codePoint := by
  rw [Char.ofNat, dif_pos hvalid]
  exact Char.toNat_ofNatAux hvalid

theorem appendCodePoint_of_ascii (hascii : codePoint < 128) :
    appendCodePoint codePoint = [UInt8.ofNat codePoint] := by
  have hval := toNat_ofNat_of_valid (Or.inl (show codePoint < 0xD800 by omega))
  have hsize : (Char.ofNat codePoint).utf8Size = 1 := by
    rw [Char.utf8Size_eq_one_iff]
    change (Char.ofNat codePoint).toNat ≤ 127
    omega
  rw [appendCodePoint, String.utf8EncodeChar_eq_singleton hsize]
  change [UInt8.ofNat (Char.ofNat codePoint).toNat] = _
  rw [hval]

theorem appendCodePoint_ne_nil (codePoint : ℕ) : appendCodePoint codePoint ≠ [] := by
  simp [appendCodePoint]

theorem le_of_mem_appendCodePoint (hhigh : 128 ≤ codePoint)
    (hvalid : codePoint < 0xD800 ∨ 0xDFFF < codePoint ∧ codePoint < 0x110000)
    (hbyte : byte ∈ appendCodePoint codePoint) : 128 ≤ byte.toNat := by
  by_contra hascii
  have hval := Utf8.toNat_eq_of_mem_encodeChar hbyte (not_le.1 hascii)
  rw [toNat_ofNat_of_valid hvalid] at hval
  omega

/-! ## What the loop writes -/

theorem appendUnit_of_ascii {unit : UChar} (hascii : unit.toNat < 128) :
    appendUnit unit = [unit.toUInt8] := by
  have hplain : (isSurrogateLead unit || isSurrogateTrail unit) = false := by
    grind [isSurrogateLead, isSurrogateTrail]
  rw [appendUnit, hplain, if_neg Bool.false_ne_true, appendCodePoint_of_ascii hascii]
  rfl

theorem le_of_mem_appendUnit {unit : UChar} (hhigh : 128 ≤ unit.toNat)
    (hbyte : byte ∈ appendUnit unit) : 128 ≤ byte.toNat := by
  rw [appendUnit] at hbyte
  split_ifs at hbyte with hsurrogate
  · refine le_of_mem_appendCodePoint ?_ ?_ hbyte <;> norm_num [replacementCharacter]
  · refine le_of_mem_appendCodePoint hhigh ?_ hbyte
    have hbound := unit.toNat_lt
    simp only [isSurrogateLead, isSurrogateTrail, Bool.or_eq_true, Bool.and_eq_true,
      decide_eq_true_eq] at hsurrogate
    omega

theorem surrogateOffset_eq : surrogateOffset = 0x35FDC00 := by
  norm_num [surrogateOffset]

section Loop

variable (final : UChar → List LChar)

variable {unit : UChar}

theorem convert_cons_of_not_lead (hlead : isSurrogateLead unit = false) (rest : Str) :
    convertUTF16ToUTF8 final (unit :: rest) = appendUnit unit ++ convertUTF16ToUTF8 final rest := by
  cases rest <;> simp [convertUTF16ToUTF8, hlead]

theorem convert_of_ascii (hascii : unit.toNat < 128) (rest : Str) :
    convertUTF16ToUTF8 final (unit :: rest) = unit.toUInt8 :: convertUTF16ToUTF8 final rest := by
  have hlead : isSurrogateLead unit = false := by
    simp only [isSurrogateLead, Bool.and_eq_false_iff, decide_eq_false_iff_not]
    omega
  rw [convert_cons_of_not_lead final hlead, appendUnit_of_ascii hascii]
  rfl

theorem convert_append_of_ascii {text : Str} (hascii : ∀ unit ∈ text, unit.toNat < 128)
    (rest : Str) :
    convertUTF16ToUTF8 final (text ++ rest) =
      characters8 text ++ convertUTF16ToUTF8 final rest := by
  induction text with
  | nil => rfl
  | cons unit text ih =>
    obtain ⟨hunit, htext⟩ := forall_mem_cons.1 hascii
    rw [cons_append, convert_of_ascii final hunit, ih htext]
    rfl

theorem convert_append_cons_of_ascii (text : Str) (hascii : unit.toNat < 128) (rest : Str) :
    convertUTF16ToUTF8 final (text ++ unit :: rest) =
      convertUTF16ToUTF8 appendUnit text ++ unit.toUInt8 :: convertUTF16ToUTF8 final rest := by
  have htrail : isSurrogateTrail unit = false := by
    simp only [isSurrogateTrail, Bool.and_eq_false_iff, decide_eq_false_iff_not]
    omega
  induction text using twoStepInduction with
  | nil => exact convert_of_ascii final hascii rest
  | singleton last => grind [convertUTF16ToUTF8, convert_of_ascii]
  | cons_cons first second text ih ihNext =>
    rw [cons_append, cons_append, convertUTF16ToUTF8, convertUTF16ToUTF8]
    split_ifs with hpair
    · rw [ih, append_assoc]
    · rw [← cons_append, ihNext second, append_assoc]

end Loop

end PurcFetcher.Text
