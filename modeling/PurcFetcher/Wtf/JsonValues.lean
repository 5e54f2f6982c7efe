import PurcFetcher.Core.Json
import PurcFetcher.Wtf.Text

/-!
# JSON values

`JSON::Value`, `JSON::Object` and `JSON::Array` of `JSONValues.h`, and the
writer of `JSONValues.cpp`.  The builder only ever receives ASCII characters, so
its contents are kept as characters.

The writer is right with respect to the JSON grammar: the reader finds in the
written text the value that was written.
-/

namespace PurcFetcher.JsonValues

open JsonText List Text

/-- A finite `double`, represented by the text `appendNumber` writes for it. -/
structure FiniteDouble where
  text : List Char
  isNumber : IsNumber text
  isASCII : Utf16.IsASCII text

inductive Value
  | null
  | boolean (value : Bool)
  /-- `none` is a number that is not finite. -/
  | double (number : Option FiniteDouble)
  | integer (number : ℤ)
  | string (value : Str)
  | object (members : List (Str × Value))
  | array (elements : List Value)

/-- `ObjectBase::setValue`: a new name goes to the end of `m_order`, and the value
of an old one is replaced where it stands. -/
def setValue (members : List (Str × Value)) (name : Str) (value : Value) :
    List (Str × Value) :=
  if name ∈ members.map Prod.fst then
    members.map fun entry => if entry.1 = name then (name, value) else entry
  else members ++ [(name, value)]

/-- Setting a list of members one after another. -/
def setValues (members entries : List (Str × Value)) : List (Str × Value) :=
  entries.foldl (fun members entry => setValue members entry.1 entry.2) members

variable (members : List (Str × Value))

@[simp]
theorem setValues_nil : setValues members [] = members := rfl

variable (entries : List (Str × Value))

@[simp]
theorem setValues_cons (entry : Str × Value) :
    setValues members (entry :: entries) =
      setValues (setValue members entry.1 entry.2) entries := rfl

theorem map_fst_setValue (name : Str) (val : Value) :
    (setValue members name val).map Prod.fst =
      if name ∈ members.map Prod.fst then members.map Prod.fst
      else members.map Prod.fst ++ [name] := by
  rw [setValue]
  split_ifs with hname
  · rw [map_map]
    apply map_congr_left
    intro entry hentry
    by_cases heq : entry.1 = name <;> simp [heq]
  · simp

theorem length_setValue_le (name : Str) (val : Value) :
    (setValue members name val).length ≤ members.length + 1 := by
  rw [setValue]
  split_ifs <;> simp

theorem length_setValues_le :
    (setValues members entries).length ≤ members.length + entries.length := by
  induction entries generalizing members with
  | nil => simp
  | cons entry entries ih => grind [setValues_cons, length_setValue_le]

theorem map_fst_setValues_of_length
    (hlen : (setValues members entries).length = members.length + entries.length) :
    (setValues members entries).map Prod.fst = members.map Prod.fst ++ entries.map Prod.fst := by
  induction entries generalizing members with
  | nil => simp
  | cons entry entries ih =>
    have hrest := length_setValues_le (setValue members entry.1 entry.2) entries
    have hfirst := map_fst_setValue members entry.1 entry.2
    rw [setValues_cons, length_cons] at hlen
    by_cases hname : entry.1 ∈ members.map Prod.fst
    · rw [if_pos hname] at hfirst
      have hsame := congrArg List.length hfirst
      rw [length_map, length_map] at hsame
      omega
    · rw [if_neg hname] at hfirst
      have hsame := congrArg List.length hfirst
      rw [length_map, length_append, length_map, length_singleton] at hsame
      rw [setValues_cons, ih _ (by omega), hfirst, map_cons, append_assoc, singleton_append]

/-- Members with different names are kept as they come. -/
theorem setValues_of_nodup (hnodup : ((members ++ entries).map Prod.fst).Nodup) :
    setValues members entries = members ++ entries := by
  induction entries generalizing members with
  | nil => simp
  | cons entry entries ih => grind [setValues_cons, setValue]

/-! ## The writer -/

def hexDigit (nibble : ℕ) : Char :=
  Char.ofNat (if nibble < 10 then 48 + nibble else 55 + nibble)

/-- The loop body of `Value::escapeString`. -/
def escapeUnit (codeUnit : UChar) : List Char :=
  if codeUnit = 0x08 then ['\\', 'b']
  else if codeUnit = 0x0C then ['\\', 'f']
  else if codeUnit = 0x0A then ['\\', 'n']
  else if codeUnit = 0x0D then ['\\', 'r']
  else if codeUnit = 0x09 then ['\\', 't']
  else if codeUnit = 0x5C then ['\\', '\\']
  else if codeUnit = 0x22 then ['\\', '"']
  else if codeUnit ≥ 32 ∧ codeUnit < 127 ∧ codeUnit ≠ 0x3C ∧ codeUnit ≠ 0x3E then
    [Char.ofNat codeUnit.toNat]
  else
    ['\\', 'u', hexDigit (codeUnit.toNat / 4096), hexDigit (codeUnit.toNat / 256 % 16),
      hexDigit (codeUnit.toNat / 16 % 16), hexDigit (codeUnit.toNat % 16)]

def escapeString (text : Str) : List Char :=
  text.flatMap escapeUnit

def appendDoubleQuotedString (text : Str) : List Char :=
  '"' :: escapeString text ++ ['"']

/-- `appendNumber` of an integral value. -/
def integerText (number : ℤ) : List Char :=
  if number < 0 then '-' :: Nat.toDigits 10 number.natAbs
  else Nat.toDigits 10 number.natAbs

mutual

def writeJSON : Value → List Char
  | .null => ['n', 'u', 'l', 'l']
  | .boolean true => ['t', 'r', 'u', 'e']
  | .boolean false => ['f', 'a', 'l', 's', 'e']
  | .double none => ['n', 'u', 'l', 'l']
  | .double (some number) => number.text
  | .integer number => integerText number
  | .string value => appendDoubleQuotedString value
  | .object members => '{' :: writeMembers members ++ ['}']
  | .array elements => '[' :: writeElements elements ++ [']']

def writeElements : List Value → List Char
  | [] => []
  | [element] => writeJSON element
  | element :: next :: rest => writeJSON element ++ ',' :: writeElements (next :: rest)

def writeMembers : List (Str × Value) → List Char
  | [] => []
  | [(name, value)] => appendDoubleQuotedString name ++ ':' :: writeJSON value
  | (name, value) :: next :: rest =>
    appendDoubleQuotedString name ++ ':' :: writeJSON value ++ ',' :: writeMembers (next :: rest)

end

/-! ## What a reader should find -/

mutual

def toJson : Value → Json
  | .null => .null
  | .boolean value => .boolean value
  | .double none => .null
  | .double (some number) => .number number.text
  | .integer number => .number (integerText number)
  | .string value => .string value
  | .object members => .object (membersToJson members)
  | .array elements => .array (elementsToJson elements)

def elementsToJson : List Value → List Json
  | [] => []
  | element :: rest => toJson element :: elementsToJson rest

def membersToJson : List (Str × Value) → List (Str × Json)
  | [] => []
  | (name, value) :: rest => (name, toJson value) :: membersToJson rest

end

/-! ## Strings -/

theorem hexValue_hexDigit {nibble : ℕ} (hnibble : nibble < 16) :
    hexValue (hexDigit nibble) = some nibble := by
  interval_cases nibble <;> rfl

theorem hexUnit_hexDigits (codeUnit : UChar) :
    hexUnit (hexDigit (codeUnit.toNat / 4096)) (hexDigit (codeUnit.toNat / 256 % 16))
        (hexDigit (codeUnit.toNat / 16 % 16)) (hexDigit (codeUnit.toNat % 16)) =
      some codeUnit := by
  have hbound := codeUnit.toNat_lt
  have hval : ((codeUnit.toNat / 4096 * 16 + codeUnit.toNat / 256 % 16) * 16 +
      codeUnit.toNat / 16 % 16) * 16 + codeUnit.toNat % 16 = codeUnit.toNat := by
    omega
  simp only [hexUnit, hexValue_hexDigit (show codeUnit.toNat / 4096 < 16 by omega),
    hexValue_hexDigit (Nat.mod_lt _ (by decide : 0 < 16)), Option.bind_eq_bind,
    Option.bind_some, hval, UInt16.ofNat_toNat]

/-- Every code unit is read back from its escape. -/
theorem parseString_escapeUnit (codeUnit : UChar) {rest : List Char}
    {res : List UInt16 × List Char} (hrest : parseString rest = some res) :
    parseString (escapeUnit codeUnit ++ rest) = some (codeUnit :: res.1, res.2) := by
  rw [escapeUnit]
  split_ifs with hb hf hn hr ht hbackslash hquote hplain
  · exact hb ▸ parseString_escaped (by decide) rfl hrest
  · exact hf ▸ parseString_escaped (by decide) rfl hrest
  · exact hn ▸ parseString_escaped (by decide) rfl hrest
  · exact hr ▸ parseString_escaped (by decide) rfl hrest
  · exact ht ▸ parseString_escaped (by decide) rfl hrest
  · exact hbackslash ▸ parseString_escaped (by decide) rfl hrest
  · exact hquote ▸ parseString_escaped (by decide) rfl hrest
  · obtain ⟨hlower, hupper, -⟩ := hplain
    have hlowerNat : 32 ≤ codeUnit.toNat := hlower
    have hupperNat : codeUnit.toNat < 127 := hupper
    have hvalid : codeUnit.toNat.isValidChar := Or.inl (by omega)
    have hchar : (Char.ofNat codeUnit.toNat).toNat = codeUnit.toNat := by
      rw [Char.toNat_ofNat, if_pos hvalid]
    have hne : ∀ char : Char, codeUnit.toNat ≠ char.toNat → Char.ofNat codeUnit.toNat ≠ char := by
      intro char hdiffer heq
      exact hdiffer (hchar ▸ congrArg Char.toNat heq)
    have hunits : Utf16.encodeChar (Char.ofNat codeUnit.toNat) = [codeUnit] := by
      rw [Utf16.encodeChar, hchar, if_pos (by omega), UInt16.ofNat_toNat]
    have hquoteNat : codeUnit.toNat ≠ 0x22 := fun heq => hquote (UInt16.toNat_inj.1 heq)
    have hbackslashNat : codeUnit.toNat ≠ 0x5C := fun heq => hbackslash (UInt16.toNat_inj.1 heq)
    have hread := parseString_plain (hne '"' hquoteNat) (hne '\\' hbackslashNat)
      (by rw [hchar]; exact hlowerNat) hrest
    rw [hunits] at hread
    exact hread
  · simp [parseString, hexUnit_hexDigits codeUnit, hrest]

theorem parseString_escapeString (text : Str) (rest : List Char) :
    parseString (escapeString text ++ '"' :: rest) = some (text, rest) := by
  induction text with
  | nil => simp [escapeString, parseString]
  | cons codeUnit text ih =>
    rw [escapeString, flatMap_cons, append_assoc, ← escapeString]
    exact parseString_escapeUnit codeUnit ih

/-! ## Integers -/

theorem isDigit_digitChar {digit : ℕ} (hdigit : digit < 10) : isDigit digit.digitChar = true := by
  interval_cases digit <;> rfl

theorem toDigits_cases (num : ℕ) (hpos : 0 < num) :
    ∃ char tail, Nat.toDigits 10 num = char :: tail ∧ char ≠ '0' ∧
      isDigit char = true ∧ ∀ other ∈ tail, isDigit other = true := by
  induction num using Nat.strong_induction_on with
  | _ num ih =>
    by_cases hsmall : num < 10
    · refine ⟨num.digitChar, [], Nat.toDigits_of_lt_base hsmall, ?_,
        isDigit_digitChar hsmall, by simp⟩
      interval_cases num <;> decide
    · obtain ⟨char, tail, hdigits, hne, hdigit, htail⟩ :=
        ih (num / 10) (by omega) (by omega)
      refine ⟨char, tail ++ [(num % 10).digitChar], ?_, hne, hdigit, ?_⟩
      · rw [Nat.toDigits_of_base_le (by decide) (not_lt.1 hsmall), hdigits]
        rfl
      · grind [isDigit_digitChar]

theorem skipInteger_toDigits (num : ℕ) : skipInteger (Nat.toDigits 10 num) = some [] := by
  by_cases hzero : num = 0
  · rw [hzero]
    rfl
  · obtain ⟨char, tail, hdigits, hne, hdigit, htail⟩ :=
      toDigits_cases num (Nat.pos_of_ne_zero hzero)
    have hdrop : tail.dropWhile isDigit = [] := by
      rw [dropWhile_eq_nil_iff]
      exact htail
    rw [hdigits, skipInteger, if_neg hne, skipDigits, if_pos hdigit, hdrop]

theorem isNumber_integerText (num : ℤ) : IsNumber (integerText num) := by
  rw [integerText]
  split_ifs with hneg
  · rw [IsNumber, skipNumber, skipMinus, if_pos rfl, skipInteger_toDigits]
    rfl
  · have hminus : skipMinus (Nat.toDigits 10 num.natAbs) = Nat.toDigits 10 num.natAbs := by
      by_cases hzero : num.natAbs = 0
      · rw [hzero]
        rfl
      · obtain ⟨char, tail, hdigits, -, hdigit, -⟩ :=
          toDigits_cases num.natAbs (Nat.pos_of_ne_zero hzero)
        have hsign : char ≠ '-' := by
          rintro rfl
          cases hdigit
        rw [hdigits, skipMinus, if_neg hsign]
    rw [IsNumber, skipNumber, hminus, skipInteger_toDigits]
    rfl

/-! ## Values -/

/-- The first character of a written value neither is white space nor closes an
array. -/
theorem writeJSON_cases (val : Value) :
    ∃ char tail, writeJSON val = char :: tail ∧ isWhiteSpace char = false ∧
      char ≠ ']' := by
  have hnum : ∀ text, IsNumber text → ∃ char tail, text = char :: tail ∧
      isWhiteSpace char = false ∧ char ≠ ']' := by
    intro text htext
    obtain ⟨char, tail, rfl, hchar⟩ := htext.cases_head
    refine ⟨char, tail, rfl, ?_, ?_⟩
    · cases hchar with
      | inl hdigit =>
        rw [isWhiteSpace, Bool.eq_false_iff]
        intro hspace
        simp only [Bool.or_eq_true, beq_iff_eq] at hspace
        obtain ((rfl | rfl) | rfl) | rfl := hspace <;> cases hdigit
      | inr hminus => rw [hminus]; rfl
    · rintro rfl
      cases hchar with
      | inl hdigit => cases hdigit
      | inr hminus => cases hminus
  cases val with
  | boolean val => cases val <;> exact ⟨_, _, rfl, rfl, by decide⟩
  | double num =>
    cases num with
    | none => exact ⟨_, _, rfl, rfl, by decide⟩
    | some num => exact hnum _ num.isNumber
  | integer num => exact hnum _ (isNumber_integerText num)
  | _ => exact ⟨_, _, rfl, rfl, by decide⟩

theorem expect_bracket_writeElements (element : Value) (elements : List Value)
    (rest : List Char) :
    expect [']'] (skipWhiteSpace (writeElements (element :: elements) ++ rest)) = none := by
  obtain ⟨char, tail, hwrite, hspace, hne⟩ := writeJSON_cases element
  have hbegin : ∃ more, writeElements (element :: elements) ++ rest = char :: more := by
    cases elements with
    | nil => exact ⟨tail ++ rest, by rw [writeElements, hwrite]; rfl⟩
    | cons => exact ⟨_, by rw [writeElements, hwrite, cons_append, cons_append]⟩
  obtain ⟨more, hmore⟩ := hbegin
  rw [hmore, skipWhiteSpace_cons _ hspace, expect, if_neg (Ne.symm hne)]

theorem expect_brace_writeMembers (member : Str × Value) (members : List (Str × Value))
    (rest : List Char) :
    expect ['}'] (skipWhiteSpace (writeMembers (member :: members) ++ rest)) = none := by
  have hbegin : ∃ more, writeMembers (member :: members) ++ rest = '"' :: more := by
    obtain ⟨name, val⟩ := member
    cases members with
    | nil | cons => exact ⟨_, by rw [writeMembers, appendDoubleQuotedString]; rfl⟩
  obtain ⟨more, hmore⟩ := hbegin
  rw [hmore, skipWhiteSpace_cons _ rfl, expect, if_neg (by decide)]

mutual

/-- The reader finds the value that was written. -/
theorem parseValue_writeJSON (val : Value) (fuel : ℕ) (rest : List Char)
    (hfuel : (writeJSON val).length ≤ fuel) (hrest : Delimited rest) :
    parseValue fuel (writeJSON val ++ rest) = some (toJson val, rest) := by
  obtain ⟨char, tail, hwrite, -, -⟩ := writeJSON_cases val
  obtain ⟨fuel, rfl⟩ : ∃ smaller, fuel = smaller + 1 := by
    rw [hwrite, length_cons] at hfuel
    exact ⟨fuel - 1, by omega⟩
  cases val with
  | null => exact parseValue_null
  | boolean val =>
    cases val <;> rfl
  | double num =>
    cases num with
    | none => exact parseValue_null
    | some num => exact parseValue_number num.isNumber hrest
  | integer num => exact parseValue_number (isNumber_integerText num) hrest
  | string val =>
    rw [writeJSON, appendDoubleQuotedString, append_assoc, singleton_append, parseValue,
      cons_append, skipWhiteSpace_cons _ rfl]
    simp [parseString_escapeString val rest, toJson]
  | object members =>
    rw [writeJSON, length_append, length_cons, length_singleton] at hfuel
    rw [writeJSON, append_assoc, singleton_append, cons_append, parseValue,
      skipWhiteSpace_cons _ rfl]
    cases members with
    | nil => rfl
    | cons member others =>
      have hread := parseMembers_writeMembers member others fuel rest (by omega)
      simp only [expect_brace_writeMembers]
      simp [hread, toJson]
  | array elements =>
    rw [writeJSON, length_append, length_cons, length_singleton] at hfuel
    rw [writeJSON, append_assoc, singleton_append, cons_append, parseValue,
      skipWhiteSpace_cons _ rfl]
    cases elements with
    | nil => rfl
    | cons element others =>
      have hread := parseElements_writeElements element others fuel rest (by omega)
      simp only [expect_bracket_writeElements]
      simp [hread, toJson]
  termination_by fuel

theorem parseElements_writeElements (element : Value) (elements : List Value) (fuel : ℕ)
    (rest : List Char) (hfuel : (writeElements (element :: elements)).length < fuel) :
    parseElements fuel (writeElements (element :: elements) ++ ']' :: rest) =
      some (elementsToJson (element :: elements), rest) := by
  obtain ⟨fuel, rfl⟩ := Nat.exists_eq_succ_of_ne_zero (Nat.ne_of_gt (Nat.zero_lt_of_lt hfuel))
  cases elements with
  | nil =>
    have hread := parseValue_writeJSON element fuel (']' :: rest)
      (Nat.lt_succ_iff.1 hfuel) (delimited_cons rest rfl)
    rw [writeElements, parseElements, hread]
    rfl
  | cons next others =>
    rw [writeElements, length_append, length_cons] at hfuel
    have hread := parseValue_writeJSON element fuel
      (',' :: (writeElements (next :: others) ++ ']' :: rest)) (by omega)
      (delimited_cons _ rfl)
    have hmore := parseElements_writeElements next others fuel rest (by omega)
    rw [writeElements, append_assoc, cons_append, parseElements, hread]
    simp only [skipWhiteSpace_cons _ (show isWhiteSpace ',' = false from rfl)]
    simp [expect, hmore, elementsToJson]
  termination_by fuel

theorem parseMembers_writeMembers (member : Str × Value) (members : List (Str × Value))
    (fuel : ℕ) (rest : List Char)
    (hfuel : (writeMembers (member :: members)).length < fuel) :
    parseMembers fuel (writeMembers (member :: members) ++ '}' :: rest) =
      some (membersToJson (member :: members), rest) := by
  obtain ⟨fuel, rfl⟩ := Nat.exists_eq_succ_of_ne_zero (Nat.ne_of_gt (Nat.zero_lt_of_lt hfuel))
  obtain ⟨name, val⟩ := member
  have hname : ∀ after, (expect ['"'] (skipWhiteSpace
      (appendDoubleQuotedString name ++ ':' :: after))).bind parseString =
        some (name, ':' :: after) := by
    intro after
    rw [appendDoubleQuotedString, append_assoc, cons_append,
      skipWhiteSpace_cons _ rfl, expect, if_pos rfl, singleton_append]
    simp [expect, parseString_escapeString]
  have hcolon : ∀ after, expect [':'] (skipWhiteSpace (':' :: after)) = some after := by
    intro after
    rw [skipWhiteSpace_cons _ rfl]
    simp [expect]
  cases members with
  | nil =>
    rw [writeMembers, length_append, length_cons] at hfuel
    have hread := parseValue_writeJSON val fuel ('}' :: rest) (by omega)
      (delimited_cons rest rfl)
    rw [writeMembers, append_assoc, cons_append, parseMembers, hname]
    simp only [hcolon, Option.bind_some, hread]
    rfl
  | cons next others =>
    rw [writeMembers, length_append, length_append, length_cons, length_cons] at hfuel
    have hread := parseValue_writeJSON val fuel
      (',' :: (writeMembers (next :: others) ++ '}' :: rest)) (by omega)
      (delimited_cons _ rfl)
    have hmore := parseMembers_writeMembers next others fuel rest (by omega)
    have hassoc : writeMembers ((name, val) :: next :: others) ++ '}' :: rest =
        appendDoubleQuotedString name ++ ':' :: (writeJSON val ++
          ',' :: (writeMembers (next :: others) ++ '}' :: rest)) := by
      rw [writeMembers]
      simp
    rw [hassoc, parseMembers, hname]
    simp only [hcolon, Option.bind_some, hread,
      skipWhiteSpace_cons _ (show isWhiteSpace ',' = false from rfl)]
    simp [expect, hmore, membersToJson]
  termination_by fuel

end

/-- What is written is read back. -/
theorem parse_writeJSON (val : Value) : parse (writeJSON val) = some (toJson val) := by
  have hread := parseValue_writeJSON val ((writeJSON val).length + 1) []
    (Nat.le_succ _) fun _ hchar => by cases hchar
  rw [append_nil] at hread
  rw [parse, hread]
  rfl

/-! ## The written bytes -/

theorem isASCII_append {left right : List Char} (hleft : Utf16.IsASCII left)
    (hright : Utf16.IsASCII right) : Utf16.IsASCII (left ++ right) := by
  intro char hchar
  rw [mem_append] at hchar
  cases hchar with
  | inl hmem => exact hleft char hmem
  | inr hmem => exact hright char hmem

theorem isASCII_escapeUnit (codeUnit : UChar) : Utf16.IsASCII (escapeUnit codeUnit) := by
  have hhex : ∀ nibble, nibble < 16 → (hexDigit nibble).toNat < 128 := by decide
  have hbound := codeUnit.toNat_lt
  rw [escapeUnit]
  split_ifs with hb hf hn hr ht hbackslash hquote hplain
  iterate 7 decide
  · have hupper : codeUnit.toNat < 127 := hplain.2.1
    have hvalid : codeUnit.toNat.isValidChar := Or.inl (by omega)
    intro char hchar
    rw [mem_singleton] at hchar
    rw [hchar, Char.toNat_ofNat, if_pos hvalid]
    omega
  · intro char hchar
    simp only [mem_cons, not_mem_nil, or_false] at hchar
    obtain rfl | rfl | rfl | rfl | rfl | rfl := hchar
    · decide
    · decide
    all_goals exact hhex _ (by omega)

theorem isASCII_appendDoubleQuotedString (text : Str) :
    Utf16.IsASCII (appendDoubleQuotedString text) := by
  have hbody : Utf16.IsASCII (escapeString text) := by
    intro char hchar
    rw [escapeString, mem_flatMap] at hchar
    obtain ⟨codeUnit, -, hmem⟩ := hchar
    exact isASCII_escapeUnit codeUnit char hmem
  apply isASCII_append _ (by decide)
  rw [Utf16.isASCII_cons]
  exact ⟨by decide, hbody⟩

theorem isASCII_of_isDigit {text : List Char} (hdigits : ∀ char ∈ text, isDigit char = true) :
    Utf16.IsASCII text := by
  intro char hchar
  have hdigit := hdigits char hchar
  simp only [isDigit, Bool.and_eq_true, decide_eq_true_eq] at hdigit
  omega

theorem isASCII_integerText (num : ℤ) : Utf16.IsASCII (integerText num) := by
  have hdigits : Utf16.IsASCII (Nat.toDigits 10 num.natAbs) := by
    by_cases hzero : num.natAbs = 0
    · rw [hzero]
      decide
    · obtain ⟨char, tail, htext, -, hchar, htail⟩ :=
        toDigits_cases num.natAbs (Nat.pos_of_ne_zero hzero)
      rw [htext]
      apply isASCII_of_isDigit
      intro other hother
      cases hother with
      | head => exact hchar
      | tail _ hmem => exact htail other hmem
  rw [integerText]
  split_ifs
  · rw [Utf16.isASCII_cons]
    exact ⟨by decide, hdigits⟩
  · exact hdigits

mutual

theorem isASCII_writeJSON : ∀ val, Utf16.IsASCII (writeJSON val)
  | .null => by rw [writeJSON]; decide
  | .boolean true => by rw [writeJSON]; decide
  | .boolean false => by rw [writeJSON]; decide
  | .double none => by rw [writeJSON]; decide
  | .double (some num) => by rw [writeJSON]; exact num.isASCII
  | .integer num => by rw [writeJSON]; exact isASCII_integerText num
  | .string val => by rw [writeJSON]; exact isASCII_appendDoubleQuotedString val
  | .object members => by
    rw [writeJSON, List.cons_append, Utf16.isASCII_cons]
    exact ⟨by decide, isASCII_append (isASCII_writeMembers members) (by decide)⟩
  | .array elements => by
    rw [writeJSON, List.cons_append, Utf16.isASCII_cons]
    exact ⟨by decide, isASCII_append (isASCII_writeElements elements) (by decide)⟩

theorem isASCII_writeElements : ∀ elements, Utf16.IsASCII (writeElements elements)
  | [] => by rw [writeElements]; decide
  | [element] => by rw [writeElements]; exact isASCII_writeJSON element
  | element :: next :: rest => by
    rw [writeElements]
    apply isASCII_append (isASCII_writeJSON element)
    rw [Utf16.isASCII_cons]
    exact ⟨by decide, isASCII_writeElements (next :: rest)⟩

theorem isASCII_writeMembers : ∀ members, Utf16.IsASCII (writeMembers members)
  | [] => by rw [writeMembers]; decide
  | [(name, value)] => by
    rw [writeMembers]
    apply isASCII_append (isASCII_appendDoubleQuotedString name)
    rw [Utf16.isASCII_cons]
    exact ⟨by decide, isASCII_writeJSON value⟩
  | (name, value) :: next :: rest => by
    rw [writeMembers]
    apply isASCII_append
    · apply isASCII_append (isASCII_appendDoubleQuotedString name)
      rw [Utf16.isASCII_cons]
      exact ⟨by decide, isASCII_writeJSON value⟩
    · rw [Utf16.isASCII_cons]
      exact ⟨by decide, isASCII_writeMembers (next :: rest)⟩

end

/-- The bytes of the written text, as `characters8` of an 8-bit string. -/
def jsonBytes (value : Value) : List LChar :=
  (writeJSON value).map fun char => UInt8.ofNat char.toNat

theorem parseUtf8_jsonBytes (val : Value) : parseUtf8 (jsonBytes val) = some (toJson val) := by
  rw [jsonBytes, ← Utf16.utf8_encode_of_isASCII (isASCII_writeJSON val), parseUtf8,
    Utf8.decode?_encode, Option.bind_some, parse_writeJSON]

end PurcFetcher.JsonValues
