import PurcFetcher.Task.Sql

/-!
# The values of the rows of a response

SQLite values pass through a 32-bit accessor or a string that ends at the first
zero.  MySQL values arrive as texts, which are converted by the type of their
column or read as Latin-1, and `NULL` arrives as an empty text.  This module states
which values are still the same in the response.
-/

namespace PurcFetcher.Sql

open JsonText List JsonValues Text

/-! ## Decimal texts -/

/-- A text of the client library as `String` reads it. -/
def widen (text : List Char) : Str :=
  latin1 (text.map fun char => UInt8.ofNat char.toNat)

theorem widen_append (left right : List Char) :
    widen (left ++ right) = widen left ++ widen right := by
  simp [widen, latin1]

variable {isNegative : Bool} {number : ℕ}

theorem digitLoop_append {left right : Str} {start val : ℤ}
    (hleft : digitLoop isNegative left start = some (val, [])) :
    digitLoop isNegative (left ++ right) start = digitLoop isNegative right val := by
  induction left generalizing start with
  | nil =>
    cases hleft
    rfl
  | cons char rest ih => grind [digitLoop]

theorem digitLoop_append_none {left right : Str} {start : ℤ}
    (hleft : digitLoop isNegative left start = none) :
    digitLoop isNegative (left ++ right) start = none := by
  induction left generalizing start with
  | nil => cases hleft
  | cons char rest ih => grind [digitLoop]

theorem digitLoop_digitChar (isNegative : Bool) {digit : ℕ} (hdigit : digit < 10)
    (val : ℤ) :
    digitLoop isNegative (widen [digit.digitChar]) val =
      if refusesDigit isNegative val digit then none
      else some (wrap32 (10 * val + digit), []) := by
  have hchar : widen [digit.digitChar] = [UInt16.ofNat (48 + digit)] := by
    interval_cases digit <;> rfl
  have hascii : isASCIIDigit (UInt16.ofNat (48 + digit)) = true := by interval_cases digit <;> rfl
  have hval : ((UInt16.ofNat (48 + digit)).toNat : ℤ) - 0x30 = digit := by
    interval_cases digit <;> rfl
  rw [hchar, digitLoop, if_pos hascii, hval]
  rfl

/-- The largest magnitude that the digit loop takes. -/
def largest (isNegative : Bool) : ℕ :=
  if isNegative then 2 ^ 31 else 2 ^ 31 - 1

theorem refusesDigit_div_mod (isNegative : Bool) (num : ℕ) :
    refusesDigit isNegative ((num / 10 : ℕ) : ℤ) ((num % 10 : ℕ) : ℤ) = true ↔
      largest isNegative < num := by
  cases isNegative <;> simp [refusesDigit, largest] <;> omega

theorem digitLoop_toDigits (isNegative : Bool) (hnum : number ≤ largest isNegative) :
    digitLoop isNegative (widen (Nat.toDigits 10 number)) 0 = some (wrap32 number, []) := by
  induction number using Nat.strong_induction_on with
  | _ number ih =>
    have hrefused : refusesDigit isNegative ((number / 10 : ℕ) : ℤ)
        ((number % 10 : ℕ) : ℤ) = false := by
      rw [← Bool.not_eq_true, refusesDigit_div_mod]
      exact not_lt.2 hnum
    have hsum : 10 * ((number / 10 : ℕ) : ℤ) + ((number % 10 : ℕ) : ℤ) = number := by omega
    have hlast := digitLoop_digitChar isNegative
      (Nat.mod_lt number (Nat.succ_pos 9)) ((number / 10 : ℕ) : ℤ)
    rw [hrefused, hsum] at hlast
    by_cases hsmall : number < 10
    · rw [Nat.toDigits_of_lt_base hsmall]
      rwa [Nat.mod_eq_of_lt hsmall, Nat.div_eq_of_lt hsmall] at hlast
    · have htenth : number / 10 < 2 ^ 31 := by
        cases isNegative <;> simp [largest] at hnum <;> omega
      have hfirst := ih (number / 10) (by omega) (by omega)
      rw [wrap32_of_bounds (by omega) (by exact_mod_cast htenth)] at hfirst
      rw [Nat.toDigits_of_base_le (by decide) (not_lt.1 hsmall), widen_append,
        digitLoop_append hfirst, hlast]
      rfl

theorem digitLoop_toDigits_none (hnum : 2 ^ 31 ≤ number) :
    digitLoop false (widen (Nat.toDigits 10 number)) 0 = none := by
  induction number using Nat.strong_induction_on with
  | _ number ih =>
    rw [Nat.toDigits_of_base_le (by decide) (by omega), widen_append]
    by_cases htenth : 2 ^ 31 ≤ number / 10
    · exact digitLoop_append_none (ih (number / 10) (by omega) htenth)
    · have hbound : number / 10 ≤ largest false := by
        rw [largest, if_neg Bool.false_ne_true]
        omega
      have hfirst := digitLoop_toDigits false hbound
      rw [wrap32_of_bounds (by omega) (by omega)] at hfirst
      have hrefused : refusesDigit false ((number / 10 : ℕ) : ℤ)
          ((number % 10 : ℕ) : ℤ) = true := by
        rw [refusesDigit_div_mod, largest, if_neg Bool.false_ne_true]
        omega
      rw [digitLoop_append hfirst,
        digitLoop_digitChar false (Nat.mod_lt number (Nat.succ_pos 9)), if_pos hrefused]

theorem widen_toDigits_cases (num : ℕ) :
    ∃ digit < 10, ∃ rest, widen (Nat.toDigits 10 num) = UInt16.ofNat (48 + digit) :: rest := by
  induction num using Nat.strong_induction_on with
  | _ num ih =>
    by_cases hsmall : num < 10
    · refine ⟨num, hsmall, [], ?_⟩
      interval_cases num <;> rfl
    · obtain ⟨digit, hdigit, rest, hfirst⟩ := ih (num / 10) (by omega)
      refine ⟨digit, hdigit, rest ++ widen [(num % 10).digitChar], ?_⟩
      rw [Nat.toDigits_of_base_le (by decide) (not_lt.1 hsmall), widen_append, hfirst]
      rfl

/-- `toInt` on a decimal text after its sign. -/
theorem toInt_of_signOf {text : Str}
    (hsign : signOf (text.dropWhile isSpaceOrNewline) =
      (isNegative, widen (Nat.toDigits 10 number))) :
    toInt text = (digitLoop isNegative (widen (Nat.toDigits 10 number)) 0).bind fun res =>
        if (res.2.dropWhile isSpaceOrNewline).isEmpty then
          some (applySign isNegative res.1)
        else none := by
  obtain ⟨digit, hdigit, rest, hdigits⟩ := widen_toDigits_cases number
  have hascii : isASCIIDigit (UInt16.ofNat (48 + digit)) = true := by interval_cases digit <;> rfl
  rw [toInt, hsign, hdigits]
  simp only [hascii, if_true]
  cases digitLoop isNegative (UInt16.ofNat (48 + digit) :: rest) 0 <;> rfl

theorem signOf_minus (text : List Char) :
    signOf ((widen ('-' :: text)).dropWhile isSpaceOrNewline) = (true, widen text) := by
  have hminus : widen ('-' :: text) = 0x2D :: widen text := rfl
  rfl

theorem signOf_toDigits (num : ℕ) :
    signOf ((widen (Nat.toDigits 10 num)).dropWhile isSpaceOrNewline) =
      (false, widen (Nat.toDigits 10 num)) := by
  obtain ⟨digit, hdigit, rest, hdigits⟩ := widen_toDigits_cases num
  have hspace : isSpaceOrNewline (UInt16.ofNat (48 + digit)) = false := by
    interval_cases digit <;> decide
  rw [hdigits, dropWhile_cons_of_neg (by rw [hspace]; decide)]
  interval_cases digit <;> rfl

theorem applySign_wrap32 {magnitude : ℕ} (hbound : magnitude ≤ 2 ^ 31) :
    applySign true (wrap32 magnitude) = -magnitude := by
  rw [applySign, if_pos rfl]
  by_cases hlast : magnitude = 2 ^ 31
  · rw [hlast]
    decide
  · grind [wrap32_of_bounds]

/-- The conversion of the decimal text of a number. -/
theorem toInt_integerText {num : ℤ} (hlower : -2 ^ 31 ≤ num) :
    toInt (widen (integerText num)) = if num < 2 ^ 31 then some num else none := by
  rw [integerText]
  by_cases hneg : num < 0
  · have hbound : num.natAbs ≤ 2 ^ 31 := by omega
    rw [if_pos hneg, toInt_of_signOf (signOf_minus _), digitLoop_toDigits true hbound,
      if_pos (by omega)]
    simp only [Option.bind_some, dropWhile_nil, isEmpty_nil, if_true]
    rw [applySign_wrap32 hbound]
    congr 1
    omega
  · rw [if_neg hneg, toInt_of_signOf (signOf_toDigits _)]
    split_ifs with hupper
    · have hbound : num.natAbs ≤ largest false := by
        rw [largest, if_neg Bool.false_ne_true]
        omega
      rw [digitLoop_toDigits false hbound, wrap32_of_bounds (by omega) (by omega)]
      simp only [Option.bind_some, dropWhile_nil, isEmpty_nil, if_true, applySign,
        Bool.false_eq_true, if_false]
      congr 1
      omega
    · rw [digitLoop_toDigits_none (by omega)]
      rfl

theorem toDigits_injective : Function.Injective (Nat.toDigits 10) := by
  intro left right heq
  have hval := congrArg (fun digits => Nat.ofDigitChars 10 digits 0) heq
  simpa only [Nat.ofDigitChars_toDigits (by decide : 1 < 10) le_rfl] using hval

theorem toDigits_ne_minus (num : ℕ) (text : List Char) : Nat.toDigits 10 num ≠ '-' :: text := by
  intro heq
  obtain ⟨digit, hdigit, rest, hdigits⟩ := widen_toDigits_cases num
  have hfirst : UInt16.ofNat (48 + digit) = 0x2D := by
    rw [heq] at hdigits
    exact (List.cons.inj hdigits).1.symm
  interval_cases digit <;> exact absurd hfirst (by decide)

theorem integerText_injective : Function.Injective integerText := by
  intro left right heq
  rw [integerText, integerText] at heq
  split_ifs at heq with hleft hright hright
  · have hmagnitude := toDigits_injective (List.cons.inj heq).2
    omega
  · exact absurd heq.symm (toDigits_ne_minus _ _)
  · exact absurd heq (toDigits_ne_minus _ _)
  · have hmagnitude := toDigits_injective heq
    omega

/-! ## Rows -/

/-- A JSON value that denotes an integer, as a number or as a decimal text. -/
def DenotesInteger (number : ℤ) (json : Json) : Prop :=
  json = .number (integerText number) ∨ json = .string (Utf16.encode (integerText number))

theorem denotesInteger_integer_iff (num other : ℤ) :
    DenotesInteger num (toJson (.integer other)) ↔ other = num := by
  simp [DenotesInteger, toJson, integerText_injective.eq_iff]

/-- In both formats of a row each value has an element it is related to.  The names
of an object are the first of the vector, and they are distinct. -/
def RowSurvives {V : Type} (faithful : V → Json → Prop) (row : List V)
    (lineColumns : List SQLValueH) : Prop :=
  (∃ elements, formatAsArray lineColumns = .array elements ∧
    List.Forall₂ (fun value element => faithful value (toJson element)) row elements) ∧
  ∀ names : List Str, lineColumns.length ≤ names.length →
    (names.take lineColumns.length).Nodup →
      ∃ elements, formatAsDict names lineColumns = .ok (.object (names.zip elements)) ∧
        List.Forall₂ (fun value element => faithful value (toJson element)) row elements

theorem rowSurvives_iff {V : Type} {faithful : V → Json → Prop} {row : List V}
    {lineCols : List SQLValueH} :
    RowSurvives faithful row lineCols ↔
      List.Forall₂ (fun val col => faithful val (toJson (elementOf col))) row
        lineCols := by
  have hmap : List.Forall₂ (fun val element => faithful val (toJson element)) row
      (lineCols.map elementOf) ↔
      List.Forall₂ (fun val col => faithful val (toJson (elementOf col))) row
        lineCols := List.forall₂_map_right_iff
  rw [← hmap]
  constructor
  · rintro ⟨⟨elements, harray, hfaithful⟩, -⟩
    cases harray
    exact hfaithful
  · intro hfaithful
    refine ⟨⟨_, rfl, hfaithful⟩, fun names hlen hnodup => ⟨_, ?_, hfaithful⟩⟩
    rw [formatAsDict_eq_ok_iff]
    refine ⟨hlen, ?_⟩
    rw [setValues_of_nodup, nil_append]
    rw [nil_append, zip_eq_zip_take_min, map_fst_zip (by simp), length_map, min_eq_right hlen]
    exact hnodup

/-! ## SQLite -/

namespace Lsql

/-- A JSON value that stands for an SQLite value.  Nothing is asked of floating-point
values. -/
def Faithful : SqliteValue → Json → Prop
  | .null, json => json = .null
  | .integer number, json => DenotesInteger number json
  | .float _, _ => True
  | .text text, json => json = .string (Utf16.encode text)
  | .blob _, json => json ≠ .null

/-- Integers of 32 bits and texts without a zero. -/
def Kept : SqliteValue → Prop
  | .integer number => -2 ^ 31 ≤ number ∧ number < 2 ^ 31
  | .text text => Char.ofNat 0 ∉ text
  | .null | .float _ | .blob _ => True

theorem faithful_iff (val : SqliteValue) :
    Faithful val (toJson (elementOf (getColumnValueH val))) ↔ Kept val := by
  cases val with
  | null | blob => simp [Faithful, Kept, getColumnValueH, elementOf, toJson]
  | integer number =>
    rw [Faithful, getColumnValueH, elementOf, denotesInteger_integer_iff, Kept]
    constructor
    · intro heq
      exact heq ▸ wrap32_bounds number
    · rintro ⟨hlower, hupper⟩
      exact wrap32_of_bounds hlower hupper
  | float => simp [Faithful, Kept]
  | text text =>
    rw [Faithful, getColumnValueH, elementOf, toJson, Json.string.injEq, Kept]
    exact Utf16.takeWhile_encode_eq_iff text

theorem rowSurvives_iff_forall (row : List SqliteValue) :
    RowSurvives Faithful row (row.map getColumnValueH) ↔ ∀ val ∈ row, Kept val := by
  rw [rowSurvives_iff, List.forall₂_map_right_iff, List.forall₂_same]
  simp only [faithful_iff]

end Lsql

/-! ## MySQL -/

namespace Rsql

/-- A JSON value that stands for a MySQL value.  Nothing is asked of floating-point
values. -/
def Faithful : MysqlValue → Json → Prop
  | .null, json => json = .null
  | .integer number, json => DenotesInteger number json
  | .real _, _ => True
  | .text text, json => json = .string (Utf16.encode text)

/-- `NULL` in a column of that type, integers below `2 ^ 31` or in a `LONGLONG`
column, and ASCII texts. -/
def Kept : FieldType → MysqlValue → Prop
  | type, .null => type = .null
  | type, .integer number => type = .longLong ∨ number < 2 ^ 31
  | _, .real _ => True
  | _, .text text => Utf16.IsASCII text

section Values

variable {toDouble : Str → Option FiniteDouble}

theorem widen_integerText (num : ℤ) : widen (integerText num) = Utf16.encode (integerText num) := by
  have hascii := isASCII_integerText num
  rw [← (Utf16.widen_utf8_eq_encode_iff _).2 hascii, Utf16.utf8_encode_of_isASCII hascii]
  rfl

/-- `hempty`: an empty text converts to the number zero, not to a value that JSON
writes as `null`. -/
theorem faithful_iff (hempty : (toDouble []).isSome = true) {type : FieldType}
    {val : MysqlValue} (hholds : Holds type val) :
    Faithful val (toJson (elementOf (columnValue toDouble type val))) ↔
      Kept type val := by
  obtain ⟨zero, hzero⟩ := Option.isSome_iff_exists.1 hempty
  cases val with
  | null =>
    cases type <;>
      simp [Faithful, Kept, columnValue, cell, elementOf, toJson, hzero]
  | integer number =>
    have hcell : ((cell (.integer number)).map latin1).getD [] = widen (integerText number) := rfl
    have htext : DenotesInteger number (toJson (.string (widen (integerText number)))) := by
      rw [widen_integerText]
      exact Or.inr rfl
    cases type with
    | tiny | short | long =>
      rw [Holds] at hholds
      simp only [Faithful, columnValue, elementOf, hcell, Kept, reduceCtorEq, false_or]
      rw [denotesInteger_integer_iff, toInt_integerText (by omega)]
      split_ifs with hupper
      · exact iff_of_true rfl hupper
      · refine iff_of_false ?_ hupper
        rw [Option.getD_none]
        omega
    | longLong =>
      simp only [Faithful, columnValue, elementOf, hcell, Kept, true_or, iff_true]
      exact htext
    | float | double | other => exact hholds.elim
    | null => cases hholds
  | real => simp [Faithful, Kept]
  | text text =>
    have hcell : ((cell (.text text)).map latin1).getD [] =
        (Utf8.encode text).map UInt8.toUInt16 := rfl
    cases type with
    | other =>
      simp only [Faithful, columnValue, elementOf, hcell, toJson, Json.string.injEq, Kept]
      exact Utf16.widen_utf8_eq_encode_iff text
    | null => cases hholds
    | _ => exact hholds.elim

end Values

end Rsql

/-- The values of a row are the same in both formats of the response if and only if
each of them is one that its conversion keeps. -/
theorem values_survive_iff (toDouble : Str → Option FiniteDouble)
    (hempty : (toDouble []).isSome = true) :
    (∀ row : List Lsql.SqliteValue,
      RowSurvives Lsql.Faithful row (row.map Lsql.getColumnValueH) ↔
        ∀ value ∈ row, Lsql.Kept value) ∧
    ∀ (types : List Rsql.FieldType) (row : List Rsql.MysqlValue),
      List.Forall₂ Rsql.Holds types row →
        (RowSurvives Rsql.Faithful row
            (List.zipWith (Rsql.columnValue toDouble) types row) ↔
          List.Forall₂ Rsql.Kept types row) := by
  refine ⟨Lsql.rowSurvives_iff_forall, fun types row hholds => ?_⟩
  rw [rowSurvives_iff]
  induction hholds with
  | nil => simp
  | cons hval _ ih =>
    rw [zipWith_cons_cons, List.forall₂_cons, List.forall₂_cons, ih,
      Rsql.faithful_iff hempty hval]

def zeroDouble : FiniteDouble :=
  { text := ['0'], isNumber := rfl, isASCII := by decide }

theorem values_survive_iff_small :
    RowSurvives Lsql.Faithful [.integer 7, .null] [.int (wrap32 7), .null] ∧
      RowSurvives Rsql.Faithful [.integer 7, .text ['a']]
        (List.zipWith (Rsql.columnValue fun _ => some zeroDouble) [.long, .other]
          [.integer 7, .text ['a']]) := by
  have hboth := values_survive_iff (fun _ => some zeroDouble) rfl
  constructor
  · apply (hboth.1 [.integer 7, .null]).2
    simp [Lsql.Kept]
  · apply (hboth.2 [.long, .other] [.integer 7, .text ['a']] _).2
    · simp [Rsql.Kept, Utf16.IsASCII]
    · simp [Rsql.Holds]

/-- `2 ^ 31` from SQLite becomes `-2 ^ 31`; from an unsigned `LONG` column of MySQL
the largest integer becomes zero, and `NULL` in a text column becomes an empty
string. -/
theorem values_change :
    (Lsql.getColumnValueH (.integer (2 ^ 31)) = .int (-2 ^ 31) ∧
      ¬ RowSurvives Lsql.Faithful [.integer (2 ^ 31)] [.int (-2 ^ 31)]) ∧
    (Rsql.columnValue (fun _ => none) .long (.integer 4294967295) = .int 0 ∧
      ¬ RowSurvives Rsql.Faithful [.integer 4294967295] [.int 0]) ∧
    Rsql.columnValue (fun _ => none) .other .null = .string [] ∧
      ¬ RowSurvives Rsql.Faithful [.null] [.string []] := by
  refine ⟨⟨?_, ?_⟩, ⟨?_, ?_⟩, rfl, ?_⟩
  · rfl
  · simp [rowSurvives_iff, Lsql.Faithful, elementOf, denotesInteger_integer_iff]
  · have hcell : ((Rsql.cell (.integer 4294967295)).map latin1).getD [] =
        widen (integerText 4294967295) := rfl
    have hnone : toInt (widen (integerText 4294967295)) = none := by
      rw [toInt_integerText (by decide), if_neg (by decide)]
    simp only [Rsql.columnValue, hcell, hnone, Option.getD_none]
  · simp [rowSurvives_iff, Rsql.Faithful, elementOf, denotesInteger_integer_iff]
  · simp [rowSurvives_iff, Rsql.Faithful, elementOf, toJson]

end PurcFetcher.Sql
