import PurcFetcher.Core.Utf16

/-!
# A JSON reader

The JSON grammar as a recursive-descent reader over characters.  Strings are
read into UTF-16 code units, so that an escaped surrogate is a value like any
other, and numbers keep their text.

`fuel` bounds the nesting and the number of elements; the length of the text is
always enough.
-/

namespace PurcFetcher.JsonText

open List

inductive Json
  | null
  | boolean (value : Bool)
  | number (text : List Char)
  | string (units : List UInt16)
  | array (elements : List Json)
  | object (members : List (List UInt16 × Json))

def Json.member? (name : List UInt16) : Json → Option Json
  | .object members => members.lookup name
  | _ => none

def isWhiteSpace (char : Char) : Bool :=
  char == ' ' || char == '\t' || char == '\n' || char == '\r'

def skipWhiteSpace (input : List Char) : List Char :=
  input.dropWhile isWhiteSpace

def expect : List Char → List Char → Option (List Char)
  | [], input => some input
  | _ :: _, [] => none
  | char :: chars, head :: input => if char = head then expect chars input else none

/-! ## Numbers -/

def isDigit (char : Char) : Bool :=
  48 ≤ char.toNat && char.toNat ≤ 57

def skipDigits : List Char → Option (List Char)
  | [] => none
  | char :: rest => if isDigit char then some (rest.dropWhile isDigit) else none

def skipMinus : List Char → List Char
  | [] => []
  | char :: rest => if char = '-' then rest else char :: rest

/-- The integer part: no digit follows a leading zero. -/
def skipInteger : List Char → Option (List Char)
  | [] => none
  | char :: rest => if char = '0' then some rest else skipDigits (char :: rest)

def skipFraction : List Char → Option (List Char)
  | [] => some []
  | char :: rest => if char = '.' then skipDigits rest else some (char :: rest)

def skipSign : List Char → List Char
  | [] => []
  | char :: rest => if char = '+' || char = '-' then rest else char :: rest

def skipExponent : List Char → Option (List Char)
  | [] => some []
  | char :: rest =>
    if char = 'e' || char = 'E' then skipDigits (skipSign rest) else some (char :: rest)

/-- What follows the number at the beginning of the input. -/
def skipNumber (input : List Char) : Option (List Char) :=
  (skipInteger (skipMinus input)).bind fun rest => (skipFraction rest).bind skipExponent

def IsNumber (text : List Char) : Prop :=
  skipNumber text = some []

def parseNumber (input : List Char) : Option (Json × List Char) :=
  (skipNumber input).map fun rest => (.number (input.take (input.length - rest.length)), rest)

/-! ## Strings -/

def hexValue (char : Char) : Option ℕ :=
  if isDigit char then some (char.toNat - 48)
  else if 65 ≤ char.toNat && char.toNat ≤ 70 then some (char.toNat - 55)
  else if 97 ≤ char.toNat && char.toNat ≤ 102 then some (char.toNat - 87)
  else none

def hexUnit (first second third fourth : Char) : Option UInt16 := do
  let a ← hexValue first
  let b ← hexValue second
  let c ← hexValue third
  let d ← hexValue fourth
  some (UInt16.ofNat (((a * 16 + b) * 16 + c) * 16 + d))

def escaped (char : Char) : Option UInt16 :=
  if char = '"' then some 0x22
  else if char = '\\' then some 0x5C
  else if char = '/' then some 0x2F
  else if char = 'b' then some 0x08
  else if char = 'f' then some 0x0C
  else if char = 'n' then some 0x0A
  else if char = 'r' then some 0x0D
  else if char = 't' then some 0x09
  else none

def parseString : List Char → Option (List UInt16 × List Char)
  | [] => none
  | '\\' :: 'u' :: first :: second :: third :: fourth :: rest =>
    match hexUnit first second third fourth with
    | none => none
    | some unit => (parseString rest).map fun result => (unit :: result.1, result.2)
  | ['\\'] => none
  | '\\' :: char :: rest =>
    match escaped char with
    | none => none
    | some unit => (parseString rest).map fun result => (unit :: result.1, result.2)
  | char :: rest =>
    if char = '"' then some ([], rest)
    else if char.toNat < 0x20 then none
    else
      (parseString rest).map fun result => (Utf16.encodeChar char ++ result.1, result.2)

/-! ## Values -/

mutual

def parseValue : ℕ → List Char → Option (Json × List Char)
  | 0, _ => none
  | fuel + 1, input =>
    match skipWhiteSpace input with
    | [] => none
    | first :: rest =>
      if first = '"' then
        (parseString rest).map fun result => (.string result.1, result.2)
      else if first = '[' then
        match expect [']'] (skipWhiteSpace rest) with
        | some after => some (.array [], after)
        | none => (parseElements fuel rest).map fun result => (.array result.1, result.2)
      else if first = '{' then
        match expect ['}'] (skipWhiteSpace rest) with
        | some after => some (.object [], after)
        | none => (parseMembers fuel rest).map fun result => (.object result.1, result.2)
      else if first = 'n' then
        (expect ['u', 'l', 'l'] rest).map fun after => (.null, after)
      else if first = 't' then
        (expect ['r', 'u', 'e'] rest).map fun after => (.boolean true, after)
      else if first = 'f' then
        (expect ['a', 'l', 's', 'e'] rest).map fun after => (.boolean false, after)
      else parseNumber (first :: rest)

/-- The elements of an array up to its closing bracket. -/
def parseElements : ℕ → List Char → Option (List Json × List Char)
  | 0, _ => none
  | fuel + 1, input =>
    match parseValue fuel input with
    | none => none
    | some (element, rest) =>
      match expect [','] (skipWhiteSpace rest) with
      | some more => (parseElements fuel more).map fun result => (element :: result.1, result.2)
      | none => (expect [']'] (skipWhiteSpace rest)).map fun after => ([element], after)

/-- The members of an object up to its closing brace. -/
def parseMembers : ℕ → List Char → Option (List (List UInt16 × Json) × List Char)
  | 0, _ => none
  | fuel + 1, input =>
    match (expect ['"'] (skipWhiteSpace input)).bind parseString with
    | none => none
    | some (name, afterName) =>
      match (expect [':'] (skipWhiteSpace afterName)).bind (parseValue fuel) with
      | none => none
      | some (value, rest) =>
        match expect [','] (skipWhiteSpace rest) with
        | some more =>
          (parseMembers fuel more).map fun result => ((name, value) :: result.1, result.2)
        | none => (expect ['}'] (skipWhiteSpace rest)).map fun after => ([(name, value)], after)

end

def parse (input : List Char) : Option Json :=
  match parseValue (input.length + 1) input with
  | none => none
  | some (value, rest) => if (skipWhiteSpace rest).isEmpty then some value else none

def parseUtf8 (bytes : List UInt8) : Option Json :=
  (Utf8.decode? bytes).bind parse

/-! ## Reading what was written

Each rule says what the reader makes of a text followed by an arbitrary rest.  A
number is read up to the first character that cannot belong to it, so what
follows a number must not continue it. -/

def isNumberChar (char : Char) : Bool :=
  isDigit char || char == '.' || char == 'e' || char == 'E' || char == '+' || char == '-'

def Delimited (rest : List Char) : Prop :=
  ∀ char ∈ rest.head?, isNumberChar char = false

variable {char : Char} {rest : List Char} {result : List UInt16 × List Char}

theorem delimited_cons (rest : List Char) (hchar : isNumberChar char = false) :
    Delimited (char :: rest) := by
  intro other hother
  cases hother
  exact hchar

theorem skipWhiteSpace_cons (rest : List Char) (hchar : isWhiteSpace char = false) :
    skipWhiteSpace (char :: rest) = char :: rest := by
  rw [skipWhiteSpace, dropWhile_cons_of_neg (by simp [hchar])]

section Number

variable {rest : List Char}

theorem Delimited.head_ne (hrest : Delimited rest) {char other : Char} {tail : List Char}
    (htail : rest = char :: tail) (hother : isNumberChar other = true) : char ≠ other := by
  intro heq
  have hchar := hrest char (by rw [htail]; rfl)
  rw [heq, hother] at hchar
  cases hchar

/-- The digits end where the text does if no number goes on there. -/
theorem dropWhile_isDigit_append (hrest : Delimited rest) (text : List Char) :
    (text ++ rest).dropWhile isDigit = text.dropWhile isDigit ++ rest := by
  have hstop : rest.dropWhile isDigit = rest := by
    cases rest with
    | nil => rfl
    | cons char =>
      have hchar := hrest char rfl
      rw [isNumberChar] at hchar
      rw [dropWhile_cons_of_neg]
      intro hdigit
      simp [hdigit] at hchar
  rw [dropWhile_append]
  split_ifs with hempty
  · rw [List.isEmpty_iff.1 hempty, hstop, nil_append]
  · rfl

variable {text left : List Char}

section

variable (hrest : Delimited rest)
include hrest

theorem skipDigits_append (htext : skipDigits text = some left) :
    skipDigits (text ++ rest) = some (left ++ rest) := by
  cases text with
  | nil => cases htext
  | cons => grind [skipDigits, dropWhile_isDigit_append]

theorem skipInteger_append (htext : skipInteger text = some left) :
    skipInteger (text ++ rest) = some (left ++ rest) := by
  cases text with
  | nil => cases htext
  | cons => grind [skipInteger, skipDigits_append]

theorem skipFraction_append (htext : skipFraction text = some left) :
    skipFraction (text ++ rest) = some (left ++ rest) := by
  cases text with
  | nil =>
    cases htext
    cases hshape : rest with
    | nil => rfl
    | cons char =>
      have hpoint : char ≠ '.' := hrest.head_ne hshape (by decide)
      rw [nil_append, skipFraction, if_neg hpoint]
  | cons => grind [skipFraction, skipDigits_append]

theorem skipExponent_append (htext : skipExponent text = some left) :
    skipExponent (text ++ rest) = some (left ++ rest) := by
  cases text with
  | nil =>
    cases htext
    cases hshape : rest with
    | nil => rfl
    | cons char =>
      have hlower : char ≠ 'e' := hrest.head_ne hshape (by decide)
      have hupper : char ≠ 'E' := hrest.head_ne hshape (by decide)
      rw [nil_append, skipExponent, if_neg (by simp [hlower, hupper])]
  | cons char tail =>
    rw [skipExponent] at htext
    rw [cons_append, skipExponent]
    split_ifs at htext ⊢ with hletter
    · cases tail with
      | nil => cases htext
      | cons sign digits => grind [skipSign, skipDigits_append]
    · rw [Option.some.injEq] at htext
      rw [← htext]
      rfl

/-- A number is read to its end. -/
theorem parseNumber_append (htext : IsNumber text) :
    parseNumber (text ++ rest) = some (.number text, rest) := by
  rw [IsNumber, skipNumber, Option.bind_eq_some_iff] at htext
  obtain ⟨afterInteger, hinteger, htext⟩ := htext
  rw [Option.bind_eq_some_iff] at htext
  obtain ⟨afterFraction, hfraction, hexponent⟩ := htext
  have hminus : skipMinus (text ++ rest) = skipMinus text ++ rest := by
    cases text with
    | nil => cases hinteger
    | cons =>
      rw [cons_append, skipMinus, skipMinus]
      split_ifs <;> rfl
  have hskip : skipNumber (text ++ rest) = some rest := by
    rw [skipNumber, hminus, skipInteger_append hrest hinteger, Option.bind_some,
      skipFraction_append hrest hfraction, Option.bind_some,
      skipExponent_append hrest hexponent, nil_append]
  rw [parseNumber, hskip, Option.map_some, length_append, Nat.add_sub_cancel, take_left]

end

/-- A number starts with a digit or a minus. -/
theorem IsNumber.cases_head (htext : IsNumber text) :
    ∃ char tail, text = char :: tail ∧ (isDigit char = true ∨ char = '-') := by
  cases text with
  | nil => cases htext
  | cons char tail =>
    refine ⟨char, tail, rfl, ?_⟩
    by_contra hneither
    rw [not_or] at hneither
    obtain ⟨hdigit, hminus⟩ := hneither
    have hzero : char ≠ '0' := by
      rintro rfl
      exact hdigit (by decide)
    rw [IsNumber, skipNumber, skipMinus, if_neg hminus, skipInteger, if_neg hzero,
      skipDigits, if_neg hdigit] at htext
    cases htext

end Number

/-- A character that needs no escape. -/
theorem parseString_plain (hquote : char ≠ '"') (hescape : char ≠ '\\')
    (hcontrol : 0x20 ≤ char.toNat) (hrest : parseString rest = some result) :
    parseString (char :: rest) = some (Utf16.encodeChar char ++ result.1, result.2) := by
  have hbelow : ¬ char.toNat < 0x20 := by omega
  simp [parseString, hquote, hescape, hbelow, hrest]

/-- An escape of two characters. -/
theorem parseString_escaped {unit : UInt16} (hchar : char ≠ 'u') (hunit : escaped char = some unit)
    (hrest : parseString rest = some result) :
    parseString ('\\' :: char :: rest) = some (unit :: result.1, result.2) := by
  simp [parseString, hchar, hunit, hrest]

section Value

variable {fuel : ℕ} {text rest : List Char}

theorem parseValue_null : parseValue (fuel + 1) (['n', 'u', 'l', 'l'] ++ rest) =
    some (.null, rest) := by
  rfl

/-- A number is a value. -/
theorem parseValue_number (htext : IsNumber text) (hrest : Delimited rest) :
    parseValue (fuel + 1) (text ++ rest) = some (.number text, rest) := by
  obtain ⟨char, tail, rfl, hchar⟩ := htext.cases_head
  have hne : ∀ other, isDigit other = false → other ≠ '-' → char ≠ other := by grind
  have hspace : isWhiteSpace char = false := by
    simp [isWhiteSpace, hne ' ' rfl (by decide), hne '\t' rfl (by decide),
      hne '\n' rfl (by decide), hne '\r' rfl (by decide)]
  rw [parseValue, cons_append, skipWhiteSpace_cons _ hspace]
  simp only [hne '"' rfl (by decide), hne '[' rfl (by decide), hne '{' rfl (by decide),
    hne 'n' rfl (by decide), hne 't' rfl (by decide), hne 'f' rfl (by decide), if_false]
  exact parseNumber_append hrest htext

end Value

end PurcFetcher.JsonText
