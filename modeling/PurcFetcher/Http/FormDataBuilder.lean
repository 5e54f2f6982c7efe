import PurcFetcher.Core.PercentEncoding
import PurcFetcher.Http.Parsers

/-!
# Form data as a URL-encoded text

Keys and values are written as bytes, percent-encoded where they are not safe.  Line breaks
become a carriage return and a line feed.  The search for a safe character also finds the
end of the text of safe characters, so that a zero byte is written as it is.
-/

namespace PurcFetcher.Http.FormDataBuilder

open List PercentEncoding Pieces

/-- `FormData::EncodingType`. -/
inductive EncodingType
  | formURLEncoded | textPlain | multipartFormData
deriving DecidableEq

def ascii (text : String) : List UInt8 := text.toList.map fun char => .ofNat char.toNat

/-- `strchr(safeCharacters, character)`, which also finds the zero at the end. -/
def isSafe (character : UInt8) : Bool := (ascii "-._*" ++ [0]).contains character

/-- A digit of `hex(character, 2)`. -/
def hexDigit (half : ℕ) : UInt8 := .ofNat (if half < 10 then 0x30 + half else 0x37 + half)

/-- A round of `appendFormURLEncoded`, with a look at the next byte. -/
def encoded (character : UInt8) (next : Option UInt8) : List UInt8 :=
  if isASCIIAlphanumeric character.toUInt16 || isSafe character then [character]
  else if character = 0x20 then ascii "+"
  else if character = 0x0A || (character = 0x0D && next ≠ some 0x0A) then ascii "%0D%0A"
  else if character ≠ 0x0D then
    [0x25, hexDigit (character.toNat / 16), hexDigit (character.toNat % 16)]
  else []

def formURLEncoded : List UInt8 → List UInt8
  | [] => []
  | character :: rest => encoded character rest.head? ++ formURLEncoded rest

def addKeyValuePairAsFormData (buffer key value : List UInt8) (encodingType : EncodingType) :
    List UInt8 :=
  if encodingType = .textPlain then
    (if buffer.isEmpty then [] else buffer ++ ascii "\r\n") ++ key ++ ascii "=" ++ value
  else
    (if buffer.isEmpty then [] else buffer ++ ascii "&") ++ formURLEncoded key ++ ascii "=" ++
      formURLEncoded value

/-! ## Reading a form -/

/-- Every line feed, and every carriage return without one, becomes both; a carriage return
before a line feed goes into what that becomes. -/
def normalized : List UInt8 → List UInt8
  | [] => []
  | character :: rest =>
    if character = 0x0A || (character = 0x0D && rest.head? ≠ some 0x0A) then
      0x0D :: 0x0A :: normalized rest
    else if character = 0x0D then normalized rest
    else character :: normalized rest

def isFormCharacter (character : UInt8) : Bool :=
  isASCIIAlphanumeric character.toUInt16 || (ascii "-._*+%=&").contains character

def unplus (character : UInt8) : UInt16 := if character = 0x2B then 0x20 else character.toUInt16

def decoded (text : List UInt8) : List UInt8 := decode (text.map unplus)

/-- The pairs of a form: it is split at each `&`, and each piece at its first `=`. -/
def formPairs (buffer : List UInt8) : List (List UInt8 × List UInt8) :=
  (pieces (· == 0x26) buffer).map fun piece =>
    (decoded (piece.takeWhile (· != 0x3D)), decoded ((piece.dropWhile (· != 0x3D)).drop 1))

def mustEscape (character : UInt8) : Bool :=
  !(isASCIIAlphanumeric character.toUInt16 || isSafe character || character == 0x20)

theorem unplus_hexDigit {half : ℕ} (hhalf : half < 16) :
    IsDigitOf (unplus (hexDigit half)) half := by
  refine .inl ?_
  interval_cases half <;> decide

/-- By induction on the bytes, with the branches of `encoded`. -/
theorem escapes_formURLEncoded (text : List UInt8) :
    Escapes mustEscape (normalized text) ((formURLEncoded text).map unplus) := by
  induction text with
  | nil => exact .nil
  | cons character rest ih =>
    have hbyte := character.toNat_lt
    rw [formURLEncoded, normalized, encoded, map_append]
    by_cases hsafe : (isASCIIAlphanumeric character.toUInt16 || isSafe character) = true
    · have hne : ∀ other, (isASCIIAlphanumeric other.toUInt16 || isSafe other) = false →
          character ≠ other := by
        rintro other hother rfl
        exact absurd (hother.symm.trans hsafe) Bool.false_ne_true
      have hplain : mustEscape character = false := by
        rw [mustEscape, hsafe]
        rfl
      simp only [hsafe, if_true, hne 0x0A (by decide), hne 0x0D (by decide), decide_false,
        Bool.false_and, Bool.or_false, Bool.false_eq_true, if_false, map_singleton, unplus,
        hne 0x2B (by decide)]
      exact .plain hplain ih
    · rw [if_neg hsafe]
      by_cases hspace : character = 0x20
      · subst hspace
        exact @Escapes.plain mustEscape 0x20 _ _ (by decide) ih
      · rw [if_neg hspace]
        split
        · exact @Escapes.escaped mustEscape 0x0D _ _ _ _ (.inl (by decide)) (.inl (by decide))
            (@Escapes.escaped mustEscape 0x0A _ _ _ _ (.inl (by decide)) (.inl (by decide)) ih)
        · by_cases hreturn : character = 0x0D
          · rw [if_neg (not_not.2 hreturn), if_pos hreturn]
            exact ih
          · rw [if_pos hreturn, if_neg hreturn]
            exact .escaped (unplus_hexDigit (by omega)) (unplus_hexDigit (by omega)) ih

theorem decoded_formURLEncoded (text : List UInt8) :
    decoded (formURLEncoded text) = normalized text :=
  decode_of_escapes (by decide) (escapes_formURLEncoded text)

theorem not_mem_formURLEncoded {character : UInt8}
    (hcharacter : character = 0x26 ∨ character = 0x3D) (text : List UInt8) :
    character ∉ formURLEncoded text := by
  intro hmem
  have hunit := mem_map_of_mem (f := unplus) hmem
  obtain rfl | rfl := hcharacter
  all_goals
    refine not_mem_of_escapes ?_ ?_ ?_ (escapes_formURLEncoded text) hunit <;> decide

theorem isFormCharacter_hexDigit {half : ℕ} (hhalf : half < 16) :
    isFormCharacter (hexDigit half) = true := by
  interval_cases half <;> decide

theorem isFormCharacter_encoded_iff (character : UInt8) (next : Option UInt8) :
    (∀ other ∈ encoded character next, isFormCharacter other = true) ↔ 0 ≠ character := by
  constructor
  · rintro hform rfl
    exact absurd (hform 0 (by simp [encoded, isSafe])) (by decide)
  · intro hzero other hmem
    rw [encoded] at hmem
    split at hmem
    · grind [isSafe, ascii, isFormCharacter]
    · split_ifs at hmem
      · exact all_eq_true.1 (by decide : (ascii "+").all isFormCharacter = true) _ hmem
      · exact all_eq_true.1 (by decide : (ascii "%0D%0A").all isFormCharacter = true) _ hmem
      · rw [mem_cons, mem_cons, mem_singleton] at hmem
        have hbyte := character.toNat_lt
        obtain rfl | rfl | rfl := hmem
        · decide
        · exact isFormCharacter_hexDigit (by omega)
        · exact isFormCharacter_hexDigit (by omega)
      · cases hmem

/-- The zero byte is the one byte that is written though it is not allowed. -/
theorem isFormCharacter_formURLEncoded_iff (text : List UInt8) :
    (∀ character ∈ formURLEncoded text, isFormCharacter character = true) ↔ 0 ∉ text := by
  induction text with
  | nil => exact iff_of_true nofun nofun
  | cons first rest ih =>
    rw [formURLEncoded, forall_mem_append, isFormCharacter_encoded_iff, ih, mem_cons, not_or]

/-- The buffer after the pairs are added in order. -/
def addPairs (buffer : List UInt8) (pairs : List (List UInt8 × List UInt8)) : List UInt8 :=
  pairs.foldl (fun buffer pair => addKeyValuePairAsFormData buffer pair.1 pair.2 .formURLEncoded)
    buffer

def written (pair : List UInt8 × List UInt8) : List UInt8 :=
  formURLEncoded pair.1 ++ 0x3D :: formURLEncoded pair.2

theorem addPairs_eq (buffer : List UInt8) (pairs : List (List UInt8 × List UInt8)) :
    addPairs buffer pairs = [0x26].intercalate (emit buffer ++ pairs.map written) := by
  induction pairs generalizing buffer with
  | nil => cases buffer <;> simp [addPairs, emit]
  | cons pair pairs ih =>
    rw [addPairs, foldl_cons, ← addPairs, ih,
      emit_of_ne_nil (by simp [addKeyValuePairAsFormData, ascii])]
    cases buffer with
    | nil => simp [addKeyValuePairAsFormData, written, ascii]
    | cons first rest =>
      cases pairs <;> simp [addKeyValuePairAsFormData, written, ascii, emit, intercalate]

/-- The form decodes to its keys and values with their line breaks normalised.  It consists of
letters, digits and eight other characters just if none of them has a zero byte. -/
theorem form_decodes (pairs : List (List UInt8 × List UInt8)) :
    ((∀ character ∈ addPairs [] pairs, isFormCharacter character = true) ↔
      ∀ pair ∈ pairs, 0 ∉ pair.1 ∧ 0 ∉ pair.2) ∧
    formPairs (addPairs [] pairs) =
      pairs.map fun pair => (normalized pair.1, normalized pair.2) := by
  rw [addPairs_eq, emit_nil, nil_append]
  constructor
  · refine (forall_mem_intercalate_iff (forall_mem_singleton.2 (by decide)) _).trans ?_
    rw [forall_mem_map]
    refine forall₂_congr fun pair _ => ?_
    rw [written, forall_mem_append, forall_mem_cons, isFormCharacter_formURLEncoded_iff,
      isFormCharacter_formURLEncoded_iff, and_iff_right (by decide : isFormCharacter 0x3D = true)]
  · have hfree : ∀ pair : List UInt8 × List UInt8, ∀ character ∈ formURLEncoded pair.1,
        (character != 0x3D) = true := fun pair character hmem =>
      bne_iff_ne.2 (ne_of_mem_of_not_mem hmem (not_mem_formURLEncoded (.inr rfl) _))
    rw [formPairs, pieces_intercalate rfl, map_map]
    · refine map_congr_left fun pair _ => ?_
      rw [Function.comp_apply, written, takeWhile_append_of_pos (hfree pair),
        dropWhile_append_of_pos (hfree pair)]
      simp [decoded_formURLEncoded]
    · rw [forall_mem_map]
      simp [written]
    · grind [written, not_mem_formURLEncoded]

/-- The zero byte is written as it is. -/
theorem zero_byte_is_not_encoded :
    addKeyValuePairAsFormData [] [0] [] .formURLEncoded = [0, 0x3D] ∧
      isFormCharacter 0 = false := by
  decide

end PurcFetcher.Http.FormDataBuilder
