import Mathlib

/-!
# Percent-encoding

A byte string is written as a text of UTF-16 code units: each byte stands for itself or is
escaped as a percent sign and two hexadecimal digits.  Some bytes must be escaped, and
the percent sign is always one of them.  Which of the others are escaped, and the case of
the digits, is left to the writer; a reader gets the bytes back in any case.
-/

namespace PurcFetcher.PercentEncoding

def percent : UInt16 := 0x25

/-! ## Reading -/

def isASCIIHexDigit (unit : UInt16) : Bool :=
  (0x30 ≤ unit && unit ≤ 0x39) || (0x61 ≤ unit ||| 0x20 && unit ||| 0x20 ≤ 0x66)

def toASCIIHexValue (unit : UInt16) : UInt8 :=
  if unit < 0x41 then (unit - 0x30).toUInt8 else ((unit - 0x41 + 10) &&& 0xF).toUInt8

def pairValue (first second : UInt16) : UInt8 :=
  toASCIIHexValue first <<< 4 ||| toASCIIHexValue second

/-- The bytes of a text.  A percent sign without two digits after it stands for itself, and
of a unit that is no byte only the low half is kept. -/
def decode : List UInt16 → List UInt8
  | [] => []
  | [unit] => [unit.toUInt8]
  | [unit, last] => [unit.toUInt8, last.toUInt8]
  | unit :: first :: second :: rest =>
    if unit = percent ∧ isASCIIHexDigit first = true ∧ isASCIIHexDigit second = true then
      pairValue first second :: decode rest
    else unit.toUInt8 :: decode (first :: second :: rest)

/-! ## Writing -/

/-- The unit is a digit for the half of a byte, in upper or in lower case. -/
def IsDigitOf (unit : UInt16) (half : ℕ) : Prop :=
  unit = UInt16.ofNat (if half < 10 then 0x30 + half else 0x37 + half) ∨
    unit = UInt16.ofNat (if half < 10 then 0x30 + half else 0x57 + half)

/-- The text is a percent-encoding of the bytes in which at least the given ones are
escaped. -/
inductive Escapes (mustEscape : UInt8 → Bool) : List UInt8 → List UInt16 → Prop
  | nil : Escapes mustEscape [] []
  | plain {byte : UInt8} {bytes : List UInt8} {text : List UInt16}
      (hplain : mustEscape byte = false) (hrest : Escapes mustEscape bytes text) :
      Escapes mustEscape (byte :: bytes) (byte.toUInt16 :: text)
  | escaped {byte : UInt8} {bytes : List UInt8} {high low : UInt16} {text : List UInt16}
      (hhigh : IsDigitOf high (byte.toNat / 16)) (hlow : IsDigitOf low (byte.toNat % 16))
      (hrest : Escapes mustEscape bytes text) :
      Escapes mustEscape (byte :: bytes) (percent :: high :: low :: text)

/-! ## Digits -/

theorem isASCIIHexDigit_of_isDigitOf {unit : UInt16} {half : ℕ} (hhalf : half < 16)
    (hdigit : IsDigitOf unit half) : isASCIIHexDigit unit = true := by
  obtain rfl | rfl := hdigit <;> interval_cases half <;> decide

theorem toASCIIHexValue_of_isDigitOf {unit : UInt16} {half : ℕ} (hhalf : half < 16)
    (hdigit : IsDigitOf unit half) : toASCIIHexValue unit = UInt8.ofNat half := by
  obtain rfl | rfl := hdigit <;> interval_cases half <;> decide

/-- A byte is put together from its halves. -/
theorem shift_or_halves (byte : UInt8) :
    UInt8.ofNat (byte.toNat / 16) <<< 4 ||| UInt8.ofNat (byte.toNat % 16) = byte := by
  have hall : ∀ val < 256,
      UInt8.ofNat (val / 16) <<< 4 ||| UInt8.ofNat (val % 16) = UInt8.ofNat val := by
    decide +kernel
  have hbyte := hall byte.toNat byte.toNat_lt
  rwa [UInt8.ofNat_toNat] at hbyte

theorem pairValue_of_isDigitOf {byte : UInt8} {high low : UInt16}
    (hhigh : IsDigitOf high (byte.toNat / 16)) (hlow : IsDigitOf low (byte.toNat % 16)) :
    pairValue high low = byte := by
  have hbyte := byte.toNat_lt
  rw [pairValue, toASCIIHexValue_of_isDigitOf (by omega) hhigh,
    toASCIIHexValue_of_isDigitOf (by omega) hlow, shift_or_halves]

/-! ## Decoding what was encoded -/

theorem decode_cons_of_ne {unit : UInt16} (hunit : unit ≠ percent) (rest : List UInt16) :
    decode (unit :: rest) = unit.toUInt8 :: decode rest := by
  match rest with
  | [] => rfl
  | [last] => rfl
  | first :: second :: rest => rw [decode, if_neg fun hescape => hunit hescape.1]

section Escapes

variable {mustEscape : UInt8 → Bool} {bytes : List UInt8} {text : List UInt16}

/-- Whatever else is escaped, decoding gives the bytes back. -/
theorem decode_of_escapes (hpercent : mustEscape 0x25 = true)
    (hescapes : Escapes mustEscape bytes text) : decode text = bytes := by
  induction hescapes with
  | nil => rfl
  | @plain byte bytes text hplain hrest ih =>
    have hne : byte.toUInt16 ≠ percent := by
      intro heq
      have hbyte : byte = 0x25 := by
        rw [← byte.toUInt8_toUInt16, heq]
        rfl
      rw [hbyte, hpercent] at hplain
      exact Bool.noConfusion hplain
    rw [decode_cons_of_ne hne, ih, UInt8.toUInt8_toUInt16]
  | @escaped byte bytes high low text hhigh hlow hrest ih =>
    have hbyte := byte.toNat_lt
    rw [decode, if_pos ⟨rfl, isASCIIHexDigit_of_isDigitOf (by omega) hhigh,
      isASCIIHexDigit_of_isDigitOf (by omega) hlow⟩, pairValue_of_isDigitOf hhigh hlow, ih]

/-- A byte that must be escaped is not in the text, unless escapes are written with it. -/
theorem not_mem_of_escapes {byte : UInt8} (hmust : mustEscape byte = true)
    (hpercent : byte.toUInt16 ≠ percent) (hdigit : isASCIIHexDigit byte.toUInt16 = false)
    (hescapes : Escapes mustEscape bytes text) : byte.toUInt16 ∉ text := by
  induction hescapes with
  | nil => exact List.not_mem_nil
  | @plain other bytes text hplain hrest ih =>
    rw [List.mem_cons, not_or]
    refine ⟨fun heq => ?_, ih⟩
    have hsame : byte = other := by rw [← byte.toUInt8_toUInt16, heq, UInt8.toUInt8_toUInt16]
    rw [← hsame, hmust] at hplain
    exact Bool.noConfusion hplain
  | @escaped other bytes high low text hhigh hlow hrest ih =>
    have hother := other.toNat_lt
    have hne : ∀ {unit : UInt16}, isASCIIHexDigit unit = true → byte.toUInt16 ≠ unit := by
      rintro unit hunit rfl
      rw [hdigit] at hunit
      exact Bool.noConfusion hunit
    have hfirst := hne (isASCIIHexDigit_of_isDigitOf (by omega) hhigh)
    have hsecond := hne (isASCIIHexDigit_of_isDigitOf (by omega) hlow)
    simp [hpercent, hfirst, hsecond, ih]

/-- Texts are escaped one after the other. -/
theorem Escapes.append {others : List UInt8} {rest : List UInt16}
    (hescapes : Escapes mustEscape bytes text) (hothers : Escapes mustEscape others rest) :
    Escapes mustEscape (bytes ++ others) (text ++ rest) := by
  induction hescapes with
  | nil => exact hothers
  | plain hplain hrest ih => exact .plain hplain ih
  | escaped hhigh hlow hrest ih => exact .escaped hhigh hlow ih

theorem escapes_map_toUInt16 (hplain : ∀ byte ∈ bytes, mustEscape byte = false) :
    Escapes mustEscape bytes (bytes.map UInt8.toUInt16) := by
  induction bytes with
  | nil => exact .nil
  | cons byte bytes ih =>
    obtain ⟨hfirst, hrest⟩ := List.forall_mem_cons.1 hplain
    exact .plain hfirst (ih hrest)

end Escapes

end PurcFetcher.PercentEncoding
