import Mathlib

/-!
# UTF-8 byte lists

Lean's own UTF-8 encoder and its strict decoder, restated on byte lists.  A byte
list is well formed when it is the encoding of a list of characters.
-/

namespace PurcFetcher.Utf8

open List

def encode (text : List Char) : List UInt8 :=
  text.flatMap String.utf8EncodeChar

/-- The first character of a byte list, when the list begins with a well-formed
sequence. -/
def next? (bytes : List UInt8) : Option Char :=
  bytes.toByteArray.utf8DecodeChar? 0

/-- The text that a byte list encodes, if it is well formed. -/
def decode? (bytes : List UInt8) : Option (List Char) :=
  bytes.toByteArray.utf8Decode?.map Array.toList

/-- A text is read back from its bytes. -/
@[simp]
theorem decode?_encode (text : List Char) : decode? (encode text) = some text := by
  have hdecode := utf8Decode?_utf8Encode (l := text)
  rw [utf8Encode, ← encode] at hdecode
  rw [decode?, hdecode]
  simp

variable {text : List Char}

/-- Only the bytes of a text are decoded to it. -/
theorem decode?_eq_some_iff {bytes : List UInt8} :
    decode? bytes = some text ↔ bytes = encode text := by
  constructor
  · intro hdecode
    have hvalid : bytes.toByteArray.IsValidUTF8 := by
      rw [← ByteArray.isSome_utf8Decode?_iff]
      rw [decode?, Option.map_eq_some_iff] at hdecode
      obtain ⟨chars, hchars, -⟩ := hdecode
      rw [hchars, Option.isSome_some]
    obtain ⟨other, hother⟩ := hvalid
    have hbytes : bytes = encode other := by
      have hlist := congrArg (fun array => array.data.toList) hother
      simpa [utf8Encode, encode] using hlist
    rw [hbytes, decode?_encode, Option.some.injEq] at hdecode
    rw [hbytes, hdecode]
  · rintro rfl
    exact decode?_encode text

@[simp]
theorem encode_nil : encode [] = [] := rfl

theorem encode_append (left right : List Char) :
    encode (left ++ right) = encode left ++ encode right :=
  flatMap_append

variable (char : Char)

theorem encode_cons (text : List Char) :
    encode (char :: text) = String.utf8EncodeChar char ++ encode text := by
  simp [encode]

theorem encode_singleton : encode [char] = String.utf8EncodeChar char := by
  simp [encode]

@[simp]
theorem next?_encode_cons (text : List Char) : next? (encode (char :: text)) = some char :=
  utf8DecodeChar?_utf8Encode_cons

theorem encode_ne_nil (htext : text ≠ []) : encode text ≠ [] := by
  cases text with
  | nil => exact absurd rfl htext
  | cons => simp [encode_cons, String.utf8EncodeChar_ne_nil]

theorem length_le_length_encode (text : List Char) : text.length ≤ (encode text).length := by
  induction text with
  | nil => simp
  | cons char =>
    have hpos := char.utf8Size_pos
    rw [encode_cons, length_append, String.length_utf8EncodeChar, length_cons]
    omega

/-- A byte below 128 stands for itself only. -/
theorem toNat_eq_of_mem_encodeChar {char : Char} {byte : UInt8}
    (hbyte : byte ∈ String.utf8EncodeChar char) (hascii : byte.toNat < 128) :
    char.toNat = byte.toNat := by
  have hval : char.toNat = char.val.toNat := rfl
  rw [String.utf8EncodeChar] at hbyte
  split_ifs at hbyte <;>
    simp only [mem_cons, not_mem_nil, or_false] at hbyte
  · rw [hbyte, UInt8.toNat_ofNat']
    omega
  · obtain rfl | rfl := hbyte
    all_goals
      rw [UInt8.toNat_ofNat'] at hascii
      omega
  · obtain rfl | rfl | rfl := hbyte
    all_goals
      rw [UInt8.toNat_ofNat'] at hascii
      omega
  · obtain rfl | rfl | rfl | rfl := hbyte
    all_goals
      rw [UInt8.toNat_ofNat'] at hascii
      omega

/-- An ASCII character is no byte of another one. -/
theorem not_mem_encode {char : Char} (hascii : char.toNat < 128) (hfree : char ∉ text) :
    UInt8.ofNat char.toNat ∉ encode text := by
  have hbyte : (UInt8.ofNat char.toNat).toNat = char.toNat := by
    rw [UInt8.toNat_ofNat']
    omega
  intro hmem
  rw [encode, mem_flatMap] at hmem
  obtain ⟨other, hother, hencoded⟩ := hmem
  have heq := toNat_eq_of_mem_encodeChar hencoded (by omega)
  rw [hbyte] at heq
  exact hfree (Char.toNat_inj.1 heq ▸ hother)

end PurcFetcher.Utf8
