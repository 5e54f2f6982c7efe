import PurcFetcher.Core.Pieces

/-!
# Strings of UTF-16 code units

The part of `WTF::String` that the filters and the command and SQL tasks use,
translated from `WTFString.cpp`, `StringImpl.cpp`, `StringCommon.h` and
`StringToIntegerConversion.h`.  A string is the list of its code units; an
8-bit string is one whose units are all below 256.  The null and the empty
string are told apart only where the code does so.

`notFound` is `none`.  The allocation limit `MaxLength` is stated here and
checked where a string is built from unbounded input.
-/

namespace PurcFetcher.Text

open Pieces List

abbrev UChar := UInt16
abbrev LChar := UInt8
abbrev Str := List UChar

/-- Named, so that membership among texts is decided by one term everywhere. -/
instance instLawfulBEqStr : LawfulBEq Str := List.instLawfulBEq

/-- `StringImpl::MaxLength`. -/
def maxLength : ℕ := 2 ^ 31 - 1

/-- Code units of a source literal, all of which are ASCII. -/
def lit (text : String) : Str :=
  text.toList.map fun char => UInt16.ofNat char.toNat

/-- Latin-1 construction: `String(const char*, unsigned)` widens every byte. -/
def latin1 (bytes : List LChar) : Str :=
  bytes.map UInt8.toUInt16

/-- `String::characters8` of an 8-bit string. -/
def characters8 (text : Str) : List LChar :=
  text.map UInt16.toUInt8

@[simp]
theorem characters8_latin1 (bytes : List LChar) : characters8 (latin1 bytes) = bytes := by
  simp [characters8, latin1, Function.comp_def]

variable {text : Str} {value : ℤ}

theorem latin1_characters8 (hsmall : ∀ char ∈ text, char.toNat < 256) :
    latin1 (characters8 text) = text := by
  rw [latin1, characters8, map_map]
  conv_rhs => rw [← map_id text]
  apply map_congr_left
  intro char hchar
  apply UInt16.toNat.inj
  simp [Nat.mod_eq_of_lt (hsmall char hchar)]

/-- `WTF::find`: the first index from `start` on that holds `char`. -/
def find (text : Str) (char : UChar) (start : ℕ) : Option ℕ :=
  ((text.drop start).findIdx? (· == char)).map (start + ·)

/-- `WTF::reverseFind`: the last index that holds `char`. -/
def reverseFind (text : Str) (char : UChar) : Option ℕ :=
  (text.reverse.findIdx? (· == char)).map fun offset => text.length - 1 - offset

theorem reverseFind_append_singleton (text : Str) (char : UChar) :
    reverseFind (text ++ [char]) char = some text.length := by
  simp [reverseFind, findIdx?_cons]

/-- `StringImpl::substring`, clipped at the end of the string. -/
def substring (text : Str) (start length : ℕ) : Str :=
  (text.drop start).take length

/-- `substring` with the default length. -/
def substringFrom (text : Str) (start : ℕ) : Str :=
  text.drop start

/-- The loop of `String::splitInternal<false>(UChar)` from `startPos` on.
Empty entries are skipped, and `fuel` bounds the number of separators left. -/
def splitFrom (text : Str) (separator : UChar) : ℕ → ℕ → List Str
  | 0, _ => []
  | fuel + 1, startPos =>
    match find text separator startPos with
    | some endPos =>
      if startPos ≠ endPos then
        substring text startPos (endPos - startPos) ::
          splitFrom text separator fuel (endPos + 1)
      else splitFrom text separator fuel (endPos + 1)
    | none => if startPos ≠ text.length then [substringFrom text startPos] else []

/-- `String::split(UChar)`.  Every use of `split(const String&)` in the modelled
code has a separator of one code unit, for which `findCommon` is the same
search. -/
def split (text : Str) (separator : UChar) : List Str :=
  splitFrom text separator (text.length + 1) 0

theorem find_eq_none_iff (text : Str) (char : UChar) (start : ℕ) :
    find text char start = none ↔ char ∉ text.drop start := by
  simp only [find, Option.map_eq_none_iff, findIdx?_eq_none_iff, beq_eq_false_iff_ne]
  exact ⟨fun hall hmem => hall char hmem rfl, fun hmem other hother heq => hmem (heq ▸ hother)⟩

theorem find_append_cons (before run rest : Str) (char : UChar)
    (hfree : char ∉ run) :
    find (before ++ run ++ char :: rest) char before.length =
      some (before.length + run.length) := by
  have hdrop : (before ++ run ++ char :: rest).drop before.length = run ++ char :: rest := by simp
  rw [find, hdrop, findIdx?_append]
  have hnone : run.findIdx? (· == char) = none := by grind
  simp [hnone, findIdx?_cons]

/-- Each round of the splitting loop emits the piece before the next separator,
so the loop finds exactly the nonempty pieces. -/
theorem splitFrom_eq_pieces (sep : UChar) (before rest : Str) (fuel : ℕ)
    (hfuel : rest.length < fuel) :
    splitFrom (before ++ rest) sep fuel before.length = pieces (· == sep) rest := by
  induction fuel generalizing before rest with
  | zero => omega
  | succ fuel ih =>
    rcases exists_first_separator (· == sep) rest with
      hfree | ⟨run, value, tail, rfl, hsep, hfree⟩
    · have hnone : find (before ++ rest) sep before.length = none := by grind [find_eq_none_iff]
      rw [pieces_of_free _ _ hfree, splitFrom, hnone]
      by_cases hrest : rest = []
      · simp [hrest]
      · have hlen : before.length ≠ (before ++ rest).length := by
          simpa using hrest
        simp [emit_of_ne_nil hrest, substringFrom, hrest]
    · obtain rfl : value = sep := by simpa using hsep
      have hnotMem : value ∉ run := fun hmem => by simpa using hfree value hmem
      have hfind := find_append_cons before run tail value hnotMem
      have hnext := ih (before ++ run ++ [value]) tail
        (by simp only [length_append, length_cons] at hfuel; omega)
      have hnextText : before ++ run ++ [value] ++ tail =
          before ++ (run ++ value :: tail) := by simp
      have hnextPos : (before ++ run ++ [value]).length =
          before.length + run.length + 1 := by simp; omega
      rw [hnextText, hnextPos] at hnext
      rw [append_assoc] at hfind
      rw [pieces_append_cons _ _ _ _ hfree hsep, splitFrom, hfind]
      dsimp only
      by_cases hrun : run = []
      · subst run
        simpa using hnext
      · have hpos : before.length ≠ before.length + run.length := by
          simpa using hrun
        rw [emit_of_ne_nil hrun, if_pos hpos, hnext]
        simp [substring]

/-- `split` gives the pieces that are not empty. -/
theorem split_eq_pieces (text : Str) (sep : UChar) :
    split text sep = pieces (· == sep) text := by
  have hrun := splitFrom_eq_pieces sep [] text (text.length + 1) (by omega)
  simpa [split] using hrun

theorem split_intercalate {sep : UChar} {parts : List Str}
    (hne : ∀ part ∈ parts, part ≠ []) (hfree : ∀ part ∈ parts, sep ∉ part) :
    split ([sep].intercalate parts) sep = parts := by
  rw [split_eq_pieces]
  refine pieces_intercalate ?_ hne fun part hpart char hchar => ?_
  · exact beq_self_eq_true sep
  · exact beq_eq_false_iff_ne.2 fun heq => hfree part hpart (heq ▸ hchar)

theorem length_le_of_mem_split {sep : UChar} {val view : Str}
    (hview : view ∈ split val sep) :
    view.length ≤ val.length := by
  rw [split_eq_pieces] at hview
  have hsublist := sublist_flatten_of_mem hview
  rw [Pieces.flatten_pieces] at hsublist
  exact hsublist.length_le.trans (length_filter_le _ _)

/-- `isASCIISpace`. -/
def isASCIISpace (char : UChar) : Bool :=
  char ≤ 0x20 && (char == 0x20 || (char ≤ 0xD && char ≥ 0x9))

/-- The code units outside Latin-1 whose `u_charDirection` is
`U_WHITE_SPACE_NEUTRAL`, the Unicode bidirectional class `WS`. -/
def isWhiteSpaceNeutral (char : UChar) : Bool :=
  char == 0x1680 || (0x2000 ≤ char && char ≤ 0x200A) || char == 0x2028 ||
    char == 0x205F || char == 0x3000

/-- `isSpaceOrNewline` in a build with ICU, as `OptionsLinux.cmake` selects. -/
def isSpaceOrNewline (char : UChar) : Bool :=
  if char ≤ 0xFF then isASCIISpace char else isWhiteSpaceNeutral char

theorem isSpaceOrNewline_iff (char : UChar) :
    isSpaceOrNewline char = true ↔
      char.toNat = 0x20 ∨ (0x9 ≤ char.toNat ∧ char.toNat ≤ 0xD) ∨ char.toNat = 0x1680 ∨
        (0x2000 ≤ char.toNat ∧ char.toNat ≤ 0x200A) ∨ char.toNat = 0x2028 ∨
        char.toNat = 0x205F ∨ char.toNat = 0x3000 := by
  rw [isSpaceOrNewline]
  split_ifs with hlatin1 <;>
    simp only [isASCIISpace, isWhiteSpaceNeutral, Bool.and_eq_true, Bool.or_eq_true,
      decide_eq_true_eq, beq_iff_eq, ge_iff_le, UInt16.le_iff_toNat_le, ← UInt16.toNat_inj,
      UInt16.reduceToNat] at hlatin1 ⊢ <;>
    omega

/-- `stripMatchedCharacters`: drop the matching characters at both ends. -/
def stripMatchedCharacters (predicate : UChar → Bool) (text : Str) : Str :=
  ((text.dropWhile predicate).reverse.dropWhile predicate).reverse

theorem stripMatchedCharacters_append {predicate : UChar → Bool} {left right : Str}
    (hleft : ∀ char ∈ left, predicate char = true) (hright : ∀ char ∈ right, predicate char = true)
    (hhead : ∀ char ∈ text.head?, predicate char = false)
    (hlast : ∀ char ∈ text.getLast?, predicate char = false) :
    stripMatchedCharacters predicate (left ++ text ++ right) = text := by
  rw [stripMatchedCharacters, append_assoc, dropWhile_append_of_pos hleft]
  rcases eq_nil_or_concat text with rfl | ⟨start, last, rfl⟩
  · rw [nil_append, dropWhile_eq_nil_iff.2 hright]
    rfl
  · have hfirst : (start.concat last ++ right).dropWhile predicate =
        start.concat last ++ right := by
      cases start with
      | nil | cons => exact dropWhile_cons_of_neg (by simpa using hhead)
    have hend : predicate last = false := hlast last (by simp)
    rw [hfirst, reverse_append, dropWhile_append_of_pos (by simpa using hright),
      concat_eq_append, reverse_append, reverse_singleton,
      singleton_append, dropWhile_cons_of_neg (by rw [hend]; exact Bool.false_ne_true),
      reverse_cons, reverse_reverse]

theorem stripMatchedCharacters_eq_self {predicate : UChar → Bool}
    (hhead : ∀ char ∈ text.head?, predicate char = false)
    (hlast : ∀ char ∈ text.getLast?, predicate char = false) :
    stripMatchedCharacters predicate text = text := by
  have hstrip : stripMatchedCharacters predicate ([] ++ text ++ []) = text :=
    stripMatchedCharacters_append nofun nofun hhead hlast
  rwa [nil_append, append_nil] at hstrip

/-- `String::stripWhiteSpace`. -/
def stripWhiteSpace (text : Str) : Str :=
  stripMatchedCharacters isSpaceOrNewline text

theorem length_stripMatchedCharacters_le (predicate : UChar → Bool) (text : Str) :
    (stripMatchedCharacters predicate text).length ≤ text.length := by
  rw [stripMatchedCharacters, length_reverse]
  refine (dropWhile_sublist _).length_le.trans ?_
  rw [length_reverse]
  exact (dropWhile_sublist _).length_le

def isASCIIUpper (char : UChar) : Bool :=
  0x41 ≤ char && char ≤ 0x5A

def toASCIILower (char : UChar) : UChar :=
  if isASCIIUpper char then char + 0x20 else char

/-- `String::convertToASCIILowercase`. -/
def convertToASCIILowercase (text : Str) : Str :=
  text.map toASCIILower

/-- `equalIgnoringASCIICase`. -/
def equalIgnoringASCIICase (left right : Str) : Bool :=
  convertToASCIILowercase left == convertToASCIILowercase right

def startsWithIgnoringASCIICase (text start : Str) : Bool :=
  convertToASCIILowercase (text.take start.length) == convertToASCIILowercase start

def isASCIIDigit (char : UChar) : Bool :=
  0x30 ≤ char && char ≤ 0x39

/-! ## Conversion to `int` -/

/-- Two's-complement reduction to a 32-bit `int`, the value that a conversion
or an overflowing operation leaves on the platforms the code is built for. -/
def wrap32 (value : ℤ) : ℤ :=
  Int.bmod value (2 ^ 32)

/-- The overflow guard of `toIntegralType<int>`. -/
def refusesDigit (isNegative : Bool) (value digitValue : ℤ) : Bool :=
  value > 214748364 || (value == 214748364 && digitValue > (if isNegative then 8 else 7))

/-- The digit loop of `toIntegralType<int>` in base ten: `none` when a digit is
refused, otherwise the value and the characters after the last digit.  The
guard lets a negative number reach `2 ^ 31`, which an `int` holds as `-2 ^ 31`,
and every further digit then passes it. -/
def digitLoop (isNegative : Bool) : Str → ℤ → Option (ℤ × Str)
  | [], value => some (value, [])
  | char :: rest, value =>
    if isASCIIDigit char then
      let digitValue : ℤ := (char.toNat : ℤ) - 0x30
      if refusesDigit isNegative value digitValue then none
      else digitLoop isNegative rest (wrap32 (10 * value + digitValue))
    else some (value, char :: rest)

/-- The sign of `toIntegralType<int>` and the characters after it. -/
def signOf : Str → Bool × Str
  | 0x2D :: rest => (true, rest)
  | 0x2B :: rest => (false, rest)
  | text => (false, text)

def applySign (isNegative : Bool) (value : ℤ) : ℤ :=
  if isNegative then wrap32 (-value) else value

/-- `String::toInt(bool*)`: the value when `ok` is set. -/
def toInt (text : Str) : Option ℤ :=
  let signed := signOf (text.dropWhile isSpaceOrNewline)
  match signed.2 with
  | [] => none
  | char :: rest =>
    if isASCIIDigit char then
      match digitLoop signed.1 (char :: rest) 0 with
      | none => none
      | some (value, trailing) =>
        if (trailing.dropWhile isSpaceOrNewline).isEmpty then
          some (applySign signed.1 value)
        else none
    else none

theorem wrap32_bounds (val : ℤ) : -2 ^ 31 ≤ wrap32 val ∧ wrap32 val < 2 ^ 31 := by
  grind [wrap32]

theorem wrap32_of_bounds (hlower : -2 ^ 31 ≤ value) (hupper : value < 2 ^ 31) :
    wrap32 value = value := by
  refine Int.bmod_eq_of_le ?_ ?_ <;> norm_num at * <;> omega

/-- The reduction takes away a multiple of `2 ^ 32`. -/
theorem wrap32_eq_sub (val : ℤ) : ∃ k, wrap32 val = val - 2 ^ 32 * k :=
  ⟨Int.bdiv val (2 ^ 32), Int.bmod_eq_self_sub_mul_bdiv val (2 ^ 32)⟩

theorem digitLoop_bounds {isNegative : Bool} {trailing : Str} {start : ℤ} (hlower : -2 ^ 31 ≤ start)
    (hupper : start < 2 ^ 31) (hloop : digitLoop isNegative text start = some (value, trailing)) :
    -2 ^ 31 ≤ value ∧ value < 2 ^ 31 := by
  induction text generalizing start with
  | nil => grind [digitLoop]
  | cons char rest ih => grind [digitLoop, wrap32_bounds]

theorem toInt_bounds (hval : toInt text = some value) : -2 ^ 31 ≤ value ∧ value < 2 ^ 31 := by
  simp only [toInt] at hval
  split at hval
  · simp at hval
  · split_ifs at hval
    split at hval
    · simp at hval
    · rename_i loopValue trailing hloop
      split_ifs at hval
      rw [Option.some.injEq] at hval
      rw [← hval, applySign]
      split_ifs
      · exact wrap32_bounds _
      · exact digitLoop_bounds (by norm_num) (by norm_num) hloop

/-! ### Decimal texts -/

/-- The value of a text of decimal digits, continued from `start`. -/
def decimalFrom (start : ℕ) (digits : Str) : ℕ :=
  digits.foldl (fun value char => 10 * value + (char.toNat - 0x30)) start

def decimal (digits : Str) : ℕ :=
  decimalFrom 0 digits

def IsDecimal (digits : Str) : Prop :=
  digits ≠ [] ∧ ∀ char ∈ digits, isASCIIDigit char = true

instance (digits : Str) : Decidable (IsDecimal digits) :=
  inferInstanceAs (Decidable (_ ∧ _))

theorem decimalFrom_cons (start : ℕ) (char : UChar) (digits : Str) :
    decimalFrom start (char :: digits) = decimalFrom (10 * start + (char.toNat - 0x30)) digits := by
  rw [decimalFrom, foldl_cons, decimalFrom]

theorem le_decimalFrom (start : ℕ) (digits : Str) : start ≤ decimalFrom start digits := by
  induction digits generalizing start with
  | nil => exact le_refl start
  | cons char digits ih =>
    rw [decimalFrom_cons]
    have hrest := ih (10 * start + (char.toNat - 0x30))
    omega

theorem toNat_of_isASCIIDigit {char : UChar} (hdigit : isASCIIDigit char = true) :
    0x30 ≤ char.toNat ∧ char.toNat ≤ 0x39 := by
  rw [isASCIIDigit, Bool.and_eq_true, decide_eq_true_eq, decide_eq_true_eq,
    UInt16.le_iff_toNat_le, UInt16.le_iff_toNat_le] at hdigit
  exact hdigit

/-- The digit loop reads a decimal text to its end, unless the value gets too large. -/
theorem digitLoop_decimal {digits : Str} {start : ℕ}
    (hdigits : ∀ char ∈ digits, isASCIIDigit char = true) (hstart : start < 2 ^ 31) :
    digitLoop false digits start =
      if decimalFrom start digits < 2 ^ 31 then some ((decimalFrom start digits : ℤ), [])
      else none := by
  induction digits generalizing start with
  | nil => exact (if_pos hstart).symm
  | cons char digits ih =>
    obtain ⟨hchar, hrest⟩ := forall_mem_cons.1 hdigits
    obtain ⟨hlow, hhigh⟩ := toNat_of_isASCIIDigit hchar
    have hval : (char.toNat : ℤ) - 0x30 = ((char.toNat - 0x30 : ℕ) : ℤ) := by omega
    have hrefuses : refusesDigit false start ((char.toNat : ℤ) - 0x30) = true ↔
        2 ^ 31 ≤ 10 * start + (char.toNat - 0x30) := by
      simp only [refusesDigit, Bool.or_eq_true, Bool.and_eq_true, decide_eq_true_eq,
        beq_iff_eq, Bool.false_eq_true, if_false]
      omega
    rw [digitLoop, if_pos hchar, decimalFrom_cons]
    by_cases hlarge : 2 ^ 31 ≤ 10 * start + (char.toNat - 0x30)
    · have hmore := le_decimalFrom (10 * start + (char.toNat - 0x30)) digits
      rw [if_pos (hrefuses.2 hlarge), if_neg (by omega)]
    · have hwrap : wrap32 (10 * (start : ℤ) + ((char.toNat : ℤ) - 0x30)) =
          ((10 * start + (char.toNat - 0x30) : ℕ) : ℤ) := by
        rw [hval, wrap32_of_bounds (by omega) (by omega)]
        rfl
      rw [if_neg (mt hrefuses.1 hlarge), hwrap, ih hrest (not_le.1 hlarge)]

/-- Digits are read up to the largest `int`. -/
theorem toInt_decimal {digits : Str} (hdecimal : IsDecimal digits) :
    toInt digits = if decimal digits < 2 ^ 31 then some (decimal digits : ℤ) else none := by
  obtain ⟨hne, hdigits⟩ := hdecimal
  obtain ⟨char, rest, rfl⟩ := exists_cons_of_ne_nil hne
  have hchar := hdigits char mem_cons_self
  obtain ⟨hlow, hhigh⟩ := toNat_of_isASCIIDigit hchar
  have hspace : isSpaceOrNewline char = false := by
    have hascii : char ≤ 0xFF := UInt16.le_iff_toNat_le.2 (hhigh.trans (by decide))
    have hlarge : ¬ char ≤ 0x20 := fun hle =>
      absurd (hlow.trans (UInt16.le_iff_toNat_le.1 hle)) (by decide)
    rw [isSpaceOrNewline, if_pos hascii, isASCIISpace, decide_eq_false hlarge, Bool.false_and]
  have hsign : signOf (char :: rest) = (false, char :: rest) := by
    have hminus : char ≠ 0x2D := fun heq => absurd (heq ▸ hlow) (by decide)
    have hplus : char ≠ 0x2B := fun heq => absurd (heq ▸ hlow) (by decide)
    unfold signOf
    split
    · next hcons => exact absurd (List.cons.inj hcons).1 hminus
    · next hcons => exact absurd (List.cons.inj hcons).1 hplus
    · rfl
  have hloop := digitLoop_decimal hdigits (Nat.two_pow_pos 31)
  rw [Nat.cast_zero, ← decimal] at hloop
  rw [toInt, dropWhile_cons_of_neg (by rw [hspace]; exact Bool.false_ne_true), hsign]
  simp only [hchar, if_true, hloop]
  split_ifs <;> rfl

example : toInt (lit " -12 ") = some (-12) := by decide
example : toInt (lit "-2147483648") = some (-2147483648) := by decide
example : toInt (lit "2147483648") = none := by decide
example : split (lit ",a,,b") 0x2C = [lit "a", lit "b"] := by decide

end PurcFetcher.Text
