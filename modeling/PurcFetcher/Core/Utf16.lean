import PurcFetcher.Core.Utf8

/-!
# UTF-16 code units

The UTF-16 encoding of a text, and its relation to UTF-8: widening every UTF-8
byte to a code unit gives the UTF-16 encoding of the text exactly when the text
is ASCII, since every other character takes more bytes than code units.
-/

namespace PurcFetcher.Utf16

open List

def encodeChar (char : Char) : List UInt16 :=
  if char.toNat < 0x10000 then [UInt16.ofNat char.toNat]
  else
    [UInt16.ofNat (0xD800 + (char.toNat - 0x10000) / 0x400),
      UInt16.ofNat (0xDC00 + (char.toNat - 0x10000) % 0x400)]

def encode (text : List Char) : List UInt16 :=
  text.flatMap encodeChar

def IsASCII (text : List Char) : Prop :=
  ∀ char ∈ text, char.toNat < 128

instance (text : List Char) : Decidable (IsASCII text) :=
  decidable_of_iff ((text.all fun char => char.toNat < 128) = true) (by simp [IsASCII])

@[simp]
theorem encode_nil : encode [] = [] := rfl

variable (char : Char)

theorem encode_cons (text : List Char) :
    encode (char :: text) = encodeChar char ++ encode text := by
  simp [encode]

theorem encodeChar_ne_nil : encodeChar char ≠ [] := by
  rw [encodeChar]
  split_ifs <;> exact cons_ne_nil _ _

theorem encode_append (left right : List Char) :
    encode (left ++ right) = encode left ++ encode right :=
  flatMap_append

theorem isASCII_cons (text : List Char) :
    IsASCII (char :: text) ↔ char.toNat < 128 ∧ IsASCII text := by
  simp [IsASCII]

theorem toNat_valid : char.toNat < 0xD800 ∨ 0xDFFF < char.toNat ∧ char.toNat < 0x110000 :=
  char.valid

theorem encodeChar_append_inj {left right : Char} {leftRest rightRest : List UInt16}
    (heq : encodeChar left ++ leftRest = encodeChar right ++ rightRest) :
    left = right ∧ leftRest = rightRest := by
  have hleft := toNat_valid left
  have hright := toNat_valid right
  unfold encodeChar at heq
  split_ifs at heq with hl hr hr <;>
    simp only [cons_append, nil_append, List.cons.injEq, ← UInt16.toNat_inj,
      UInt16.toNat_ofNat'] at heq
  · refine ⟨Char.toNat_inj.1 ?_, heq.2⟩
    omega
  · omega
  · omega
  · refine ⟨Char.toNat_inj.1 ?_, heq.2.2⟩
    omega

/-- No two texts have the same code units. -/
theorem encode_injective : Function.Injective encode := by
  intro left
  induction left with
  | nil =>
    intro right heq
    cases right with
    | nil => rfl
    | cons =>
      rw [encode_nil, encode_cons, encodeChar] at heq
      split_ifs at heq <;> cases heq
  | cons char text ih =>
    intro right heq
    cases right with
    | nil =>
      rw [encode_nil, encode_cons, encodeChar] at heq
      split_ifs at heq <;> cases heq
    | cons =>
      obtain ⟨hchar, hrest⟩ := encodeChar_append_inj heq
      rw [hchar, ih hrest]

theorem zero_mem_encodeChar_iff : 0 ∈ encodeChar char ↔ char = Char.ofNat 0 := by
  have hvalid := toNat_valid char
  have hzero : (Char.ofNat 0).toNat = 0 := rfl
  rw [encodeChar, ← Char.toNat_inj, hzero]
  split_ifs with hplane <;>
    simp only [mem_cons, not_mem_nil, or_false, ← UInt16.toNat_inj,
      UInt16.toNat_ofNat', UInt16.toNat_zero] <;>
    omega

theorem zero_mem_encode_iff (text : List Char) : 0 ∈ encode text ↔ Char.ofNat 0 ∈ text := by
  simp [encode, mem_flatMap, zero_mem_encodeChar_iff]

/-- A text that is cut at a zero loses nothing only if it has none. -/
theorem takeWhile_encode_eq_iff (text : List Char) :
    (encode text).takeWhile (· != 0) = encode text ↔ Char.ofNat 0 ∉ text := by
  rw [← zero_mem_encode_iff, takeWhile_eq_self_iff]
  constructor
  · intro hnonzero hzero
    have hfalse := hnonzero 0 hzero
    simp at hfalse
  · grind

/-! ## Comparison with UTF-8 -/

theorem length_encodeChar_of_ascii {char : Char} (hascii : char.toNat < 128) :
    (encodeChar char).length = char.utf8Size := by
  have hsize : char.utf8Size = 1 := by
    rw [Char.utf8Size_eq_one_iff]
    exact Nat.lt_succ_iff.1 hascii
  rw [hsize, encodeChar, if_pos (by omega), length_singleton]

theorem length_encodeChar_lt {char : Char} (hnonascii : ¬ char.toNat < 128) :
    (encodeChar char).length < char.utf8Size := by
  have hone : char.utf8Size ≠ 1 := by
    intro hsize
    rw [Char.utf8Size_eq_one_iff] at hsize
    exact hnonascii (Nat.lt_succ_iff.2 hsize)
  have hpos := char.utf8Size_pos
  rw [encodeChar]
  split_ifs with hplane
  · rw [length_singleton]
    omega
  · have hfour : char.utf8Size = 4 := by
      rw [Char.utf8Size_eq_four_iff]
      exact Nat.lt_of_succ_le (not_lt.1 hplane)
    simp [hfour]

/-- A text has no more code units than bytes. -/
theorem length_encode_le (text : List Char) : (encode text).length ≤ (Utf8.encode text).length := by
  induction text with
  | nil => rfl
  | cons char =>
    rw [encode_cons, Utf8.encode_cons, length_append, length_append, String.length_utf8EncodeChar]
    by_cases hascii : char.toNat < 128
    · have hchar := length_encodeChar_of_ascii hascii
      omega
    · have hchar := length_encodeChar_lt hascii
      omega

variable {text : List Char}

/-- Only ASCII texts have as many bytes as code units. -/
theorem isASCII_of_length_eq (hlen : (Utf8.encode text).length = (encode text).length) :
    IsASCII text := by
  induction text with
  | nil => simp [IsASCII]
  | cons char text ih =>
    rw [encode_cons, Utf8.encode_cons, length_append, length_append,
      String.length_utf8EncodeChar] at hlen
    have hrest := length_encode_le text
    rw [isASCII_cons]
    by_cases hascii : char.toNat < 128
    · have hchar := length_encodeChar_of_ascii hascii
      exact ⟨hascii, ih (by omega)⟩
    · have hchar := length_encodeChar_lt hascii
      omega

theorem encode_of_isASCII (hascii : IsASCII text) :
    encode text = text.map fun char => UInt16.ofNat char.toNat := by
  induction text with
  | nil => rfl
  | cons char text ih =>
    rw [isASCII_cons] at hascii
    rw [encode_cons, encodeChar, if_pos (by omega), ih hascii.2]
    rfl

theorem utf8_encode_of_isASCII (hascii : IsASCII text) :
    Utf8.encode text = text.map fun char => UInt8.ofNat char.toNat := by
  induction text with
  | nil => rfl
  | cons char text ih =>
    rw [isASCII_cons] at hascii
    have hsize : char.utf8Size = 1 := by
      rw [Char.utf8Size_eq_one_iff]
      exact Nat.lt_succ_iff.1 hascii.1
    rw [Utf8.encode_cons, String.utf8EncodeChar_eq_singleton hsize, ih hascii.2]
    rfl

/-- Bytes that are taken for code units are right only for ASCII. -/
theorem widen_utf8_eq_encode_iff (text : List Char) :
    (Utf8.encode text).map UInt8.toUInt16 = encode text ↔ IsASCII text := by
  constructor
  · grind [List.length, isASCII_of_length_eq]
  · intro hascii
    rw [utf8_encode_of_isASCII hascii, encode_of_isASCII hascii, map_map]
    apply map_congr_left
    intro char hchar
    have hsmall := hascii char hchar
    apply UInt16.toNat_inj.1
    simp
    omega

end PurcFetcher.Utf16
