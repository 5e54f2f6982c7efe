import PurcFetcher.Core.PercentEncoding
import PurcFetcher.Core.Utf16
import PurcFetcher.Task.Expansion

/-!
# The parameters of a request

The three tasks read their parameters from the query of the URL: entries `name=value`
between ampersands, each percent-decoded as a whole and taken for UTF-8.  Two names are
reserved in each task, and all others go to `m_paramMap`.

An entry that is not UTF-8 becomes a null string, and so does its name, which no hash map
takes for a key.  Everything else that can be written in UTF-8 arrives as it was.
-/

namespace PurcFetcher.QueryString

open Function List Expansion PercentEncoding Text

def ampersand : UChar := 0x26

def equalsSign : UChar := 0x3D

/-! ## Reading an entry -/

/-- `String::fromUTF8`, with `none` for the null string. -/
def fromUTF8 (bytes : List LChar) : Option Str :=
  (Utf8.decode? bytes).map Utf16.encode

def decodeEscapeSequencesFromParsedURL (input : Str) : Option Str :=
  if input.isEmpty then some []
  else fromUTF8 (decode input)

/-- The name and the value of a decoded entry. -/
def nameAndValue (decoded : Str) : Str × Str :=
  let index := (find decoded equalsSign 0).getD decoded.length
  (stripWhiteSpace (substring decoded 0 index), stripWhiteSpace (substringFrom decoded (index + 1)))

/-- The loop of the three `parseQueryString` functions; `set` is what the task does with a
name and a value.  The name of a null string is null.  It equals no reserved key, and
`none` is the call of `m_paramMap.set` with it. -/
def parseEntries {T : Type} (set : T → Str → Str → T) (task : T) (query : Str) : Option T :=
  if query.isEmpty then some task
  else
    (split query ampersand).foldlM (fun task param =>
      (decodeEscapeSequencesFromParsedURL param).map fun decoded =>
        set task (nameAndValue decoded).1 (nameAndValue decoded).2) task

/-! ## The tasks -/

/-- `m_paramMap.set`. -/
def setParam (paramMap : ParamMap) (name value : Str) : ParamMap :=
  update paramMap name (some value)

namespace NetworkDataTaskLcmd

/-- The members that a query sets. -/
structure Query where
  cmdFilter : Str
  cmdLine : Str
  paramMap : ParamMap

def Query.initial : Query :=
  { cmdFilter := [], cmdLine := [], paramMap := fun _ => none }

/-- `CMD_FILTER` and `CMD_LINE`. -/
def reservedKeys : List Str :=
  [lit "cmdfilter", lit "cmdline"]

def set (task : Query) (name value : Str) : Query :=
  if equalIgnoringASCIICase name (lit "cmdfilter") then { task with cmdFilter := value }
  else if equalIgnoringASCIICase name (lit "cmdline") then { task with cmdLine := value }
  else { task with paramMap := setParam task.paramMap name value }

def parseQueryString (task : Query) (query : Str) : Option Query :=
  parseEntries set task query

end NetworkDataTaskLcmd

namespace NetworkDataTaskLsql

/-- The members that a query sets, in both SQL tasks. -/
structure Query where
  sqlQuery : Str
  formatArray : Bool
  paramMap : ParamMap

def Query.initial : Query :=
  { sqlQuery := [], formatArray := false, paramMap := fun _ => none }

/-- `CMD_SQL_QUERY` and `CMD_SQL_ROWFORMAT`. -/
def reservedKeys : List Str :=
  [lit "sqlquery", lit "sqlRowFormat"]

def set (task : Query) (name value : Str) : Query :=
  if equalIgnoringASCIICase name (lit "sqlquery") then { task with sqlQuery := value }
  else if equalIgnoringASCIICase name (lit "sqlRowFormat") then
    { task with formatArray := equalIgnoringASCIICase value (lit "array") }
  else { task with paramMap := setParam task.paramMap name value }

def parseQueryString (task : Query) (query : Str) : Option Query :=
  parseEntries set task query

end NetworkDataTaskLsql

/-- The function of `NetworkDataTaskRsql` is a copy of that of `NetworkDataTaskLsql`. -/
def NetworkDataTaskRsql.parseQueryString (task : NetworkDataTaskLsql.Query) (query : Str) :
    Option NetworkDataTaskLsql.Query :=
  parseEntries NetworkDataTaskLsql.set task query

/-! ## Entries that are not UTF-8 -/

/-- The bytes of the entry are the UTF-8 encoding of a text. -/
def IsText (param : Str) : Prop :=
  ∃ text, decode param = Utf8.encode text

theorem decodeEscapeSequences_ne_none_iff (param : Str) :
    decodeEscapeSequencesFromParsedURL param ≠ none ↔ IsText param := by
  rw [decodeEscapeSequencesFromParsedURL, IsText]
  split_ifs with hempty
  · rw [List.isEmpty_iff.1 hempty]
    exact iff_of_true (Option.some_ne_none _) ⟨[], rfl⟩
  · rw [fromUTF8, Ne, Option.map_eq_none_iff, ← Ne, Option.ne_none_iff_exists']
    simp only [Utf8.decode?_eq_some_iff]

theorem parseEntries_ne_none_iff {T : Type} (set : T → Str → Str → T) (task : T)
    (query : Str) :
    parseEntries set task query ≠ none ↔ ∀ param ∈ split query ampersand, IsText param := by
  rw [parseEntries]
  split_ifs with hempty
  · rw [List.isEmpty_iff.1 hempty]
    exact iff_of_true (Option.some_ne_none _) nofun
  · induction split query ampersand generalizing task with
    | nil => exact iff_of_true (Option.some_ne_none _) nofun
    | cons param params ih =>
      rw [foldlM_cons, forall_mem_cons, ← decodeEscapeSequences_ne_none_iff]
      cases decodeEscapeSequencesFromParsedURL param with
      | none => simp
      | some => simpa using ih _

/-- No task uses a null key exactly when every entry of the query is UTF-8. -/
theorem parseQueryString_no_null_key_iff (cmd : NetworkDataTaskLcmd.Query)
    (lsql rsql : NetworkDataTaskLsql.Query) (query : Str) :
    (NetworkDataTaskLcmd.parseQueryString cmd query ≠ none ∧
      NetworkDataTaskLsql.parseQueryString lsql query ≠ none ∧
      NetworkDataTaskRsql.parseQueryString rsql query ≠ none) ↔
      ∀ param ∈ split query ampersand, IsText param := by
  rw [NetworkDataTaskLcmd.parseQueryString, NetworkDataTaskLsql.parseQueryString,
    NetworkDataTaskRsql.parseQueryString, parseEntries_ne_none_iff, parseEntries_ne_none_iff,
    parseEntries_ne_none_iff, and_self_iff, and_self_iff]

theorem parseQueryString_null_key :
    NetworkDataTaskLcmd.parseQueryString .initial (lit "%FF") = none ∧
      NetworkDataTaskLsql.parseQueryString .initial (lit "%FF") = none ∧
      NetworkDataTaskRsql.parseQueryString .initial (lit "%FF") = none :=
  ⟨rfl, rfl, rfl⟩

/-! ## Pairs of a name and a value -/

/-- `[A-Za-z][A-Za-z0-9_]*`. -/
def IsIdentifier : List Char → Prop
  | [] => False
  | first :: rest => first.isAlpha = true ∧ ∀ char ∈ rest, char.isAlphanum = true ∨ char = '_'

def isSpace (char : Char) : Bool :=
  char.toNat < 0x10000 && isSpaceOrNewline (UInt16.ofNat char.toNat)

/-- The bytes that a query cannot hold as they are. -/
def mustEscape (byte : UInt8) : Bool :=
  byte == 0x25 || byte == 0x26

/-- A parameter of a request, and a percent-encoding of its value. -/
structure Pair (reservedKeys : List Str) where
  name : List Char
  value : List Char
  encoded : Str
  identifier : IsIdentifier name
  unreserved : ∀ key ∈ reservedKeys, equalIgnoringASCIICase (Utf16.encode name) key = false
  noLeadingSpace : ∀ char ∈ value.head?, isSpace char = false
  noTrailingSpace : ∀ char ∈ value.getLast?, isSpace char = false
  escapes : Escapes mustEscape (Utf8.encode value) encoded

namespace Pair

variable {reservedKeys : List Str}

/-- `name=enc(value)`. -/
def render (pair : Pair reservedKeys) : Str :=
  Utf16.encode pair.name ++ equalsSign :: pair.encoded

end Pair

def renderPairs {reservedKeys : List Str} (pairs : List (Pair reservedKeys)) : Str :=
  [ampersand].intercalate (pairs.map Pair.render)

/-- The last value that is given for each name. -/
def lastValue {reservedKeys : List Str} (pairs : List (Pair reservedKeys)) : ParamMap :=
  fun key => (pairs.reverse.find? fun pair => Utf16.encode pair.name == key).map fun pair =>
    Utf16.encode pair.value

/-! ### Names -/

section Names

variable {name : List Char} (hname : IsIdentifier name)

include hname

theorem toNat_of_mem_identifier {char : Char} (hchar : char ∈ name) :
    (0x30 ≤ char.toNat ∧ char.toNat ≤ 0x39) ∨ (0x41 ≤ char.toNat ∧ char.toNat ≤ 0x5A) ∨
      char.toNat = 0x5F ∨ (0x61 ≤ char.toNat ∧ char.toNat ≤ 0x7A) := by
  have hword : char.isAlphanum = true ∨ char = '_' := by
    cases name with
    | nil => exact absurd hchar not_mem_nil
    | cons =>
      obtain ⟨hfirst, hrest⟩ := hname
      obtain rfl | hinside := mem_cons.1 hchar
      · exact Or.inl (by rw [Char.isAlphanum, hfirst, Bool.true_or])
      · exact hrest char hinside
  obtain halnum | rfl := hword
  · simp [Char.isAlphanum, Char.isAlpha, Char.isUpper, Char.isLower, Char.isDigit,
      UInt32.le_iff_toNat_le] at halnum
    omega
  · exact Or.inr (Or.inr (Or.inl rfl))

theorem isASCII_of_isIdentifier : Utf16.IsASCII name := by
  intro char hchar
  have hbounds := toNat_of_mem_identifier hname hchar
  omega

theorem mem_encode_identifier {unit : UChar} (hunit : unit ∈ Utf16.encode name) :
    ∃ char ∈ name, unit = UInt16.ofNat char.toNat ∧ unit.toNat = char.toNat := by
  rw [Utf16.encode_of_isASCII (isASCII_of_isIdentifier hname), mem_map] at hunit
  obtain ⟨char, hchar, rfl⟩ := hunit
  have hbounds := toNat_of_mem_identifier hname hchar
  refine ⟨char, hchar, rfl, ?_⟩
  rw [UInt16.toNat_ofNat']
  omega

theorem equalsSign_not_mem_identifier : equalsSign ∉ Utf16.encode name := by
  intro hmem
  obtain ⟨char, hchar, -, hval⟩ := mem_encode_identifier hname hmem
  have hbounds := toNat_of_mem_identifier hname hchar
  have hsign : equalsSign.toNat = 0x3D := rfl
  omega

theorem stripWhiteSpace_identifier : stripWhiteSpace (Utf16.encode name) = Utf16.encode name := by
  have hspace : ∀ unit ∈ Utf16.encode name, isSpaceOrNewline unit = false := by
    grind [isSpaceOrNewline_iff, mem_encode_identifier, toNat_of_mem_identifier]
  exact stripMatchedCharacters_eq_self (fun unit hunit => hspace unit (mem_of_mem_head? hunit))
    (fun unit hunit => hspace unit (mem_of_mem_getLast? hunit))

theorem escapes_identifier : Escapes mustEscape (Utf8.encode name) (Utf16.encode name) := by
  have hascii := isASCII_of_isIdentifier hname
  rw [← (Utf16.widen_utf8_eq_encode_iff name).2 hascii]
  apply escapes_map_toUInt16
  intro byte hbyte
  rw [Utf16.utf8_encode_of_isASCII hascii, mem_map] at hbyte
  obtain ⟨char, hchar, rfl⟩ := hbyte
  have hbounds := toNat_of_mem_identifier hname hchar
  simp only [mustEscape, Bool.or_eq_false_iff, beq_eq_false_iff_ne, ne_eq, ← UInt8.toNat_inj,
    UInt8.toNat_ofNat', UInt8.reduceToNat]
  omega

end Names

/-! ### Values -/

theorem isSpaceOrNewline_of_mem_encodeChar {char : Char} (hchar : isSpace char = false)
    {unit : UChar} (hunit : unit ∈ Utf16.encodeChar char) : isSpaceOrNewline unit = false := by
  rw [Utf16.encodeChar] at hunit
  split_ifs at hunit with hplane
  · grind [isSpace]
  -- no surrogate is white space
  · have hvalid := Utf16.toNat_valid char
    rw [← Bool.not_eq_true, isSpaceOrNewline_iff]
    simp only [mem_cons, not_mem_nil, or_false, ← UInt16.toNat_inj, UInt16.toNat_ofNat'] at hunit
    omega

theorem stripWhiteSpace_encode {val : List Char}
    (hleading : ∀ char ∈ val.head?, isSpace char = false)
    (htrailing : ∀ char ∈ val.getLast?, isSpace char = false) :
    stripWhiteSpace (Utf16.encode val) = Utf16.encode val := by
  apply stripMatchedCharacters_eq_self
  · intro unit hunit
    cases val with
    | nil => exact absurd hunit nofun
    | cons char =>
      rw [Utf16.encode_cons, head?_append_of_ne_nil _ (Utf16.encodeChar_ne_nil char)] at hunit
      exact isSpaceOrNewline_of_mem_encodeChar (hleading char rfl) (mem_of_mem_head? hunit)
  · intro unit hunit
    rcases eq_nil_or_concat val with rfl | ⟨start, char, rfl⟩
    · exact absurd hunit nofun
    · have hone : Utf16.encode [char] = Utf16.encodeChar char := flatMap_singleton _ _
      rw [concat_eq_append, Utf16.encode_append, hone,
        getLast?_append_of_ne_nil _ (Utf16.encodeChar_ne_nil char)] at hunit
      exact isSpaceOrNewline_of_mem_encodeChar (htrailing char (by simp))
        (mem_of_mem_getLast? hunit)

/-! ### Reading a pair back -/

namespace Pair

variable {reservedKeys : List Str} (pair : Pair reservedKeys)

theorem decode_render : decode pair.render = Utf8.encode (pair.name ++ '=' :: pair.value) := by
  have hsign : Escapes mustEscape (Utf8.encode ['=']) [equalsSign] := .plain rfl .nil
  have hall := (escapes_identifier pair.identifier).append (hsign.append pair.escapes)
  rw [← Utf8.encode_append, ← Utf8.encode_append] at hall
  exact decode_of_escapes rfl hall

theorem ampersand_not_mem_render : ampersand ∉ pair.render := by
  have hmust : mustEscape 0x26 = true := rfl
  have hname : ampersand ∉ Utf16.encode pair.name :=
    not_mem_of_escapes hmust (by decide) (by decide) (escapes_identifier pair.identifier)
  have hval : ampersand ∉ pair.encoded :=
    not_mem_of_escapes hmust (by decide) (by decide) pair.escapes
  have hsign : ampersand ≠ equalsSign := by decide
  simp only [render, mem_append, mem_cons, hsign, false_or, not_or]
  exact ⟨hname, hval⟩

theorem render_ne_nil : pair.render ≠ [] := by
  simp [render]

theorem decodeEscapeSequences_render :
    decodeEscapeSequencesFromParsedURL pair.render =
      some (Utf16.encode pair.name ++ equalsSign :: Utf16.encode pair.value) := by
  rw [decodeEscapeSequencesFromParsedURL,
    if_neg (mt List.isEmpty_iff.1 pair.render_ne_nil), fromUTF8, decode_render,
    Utf8.decode?_encode, Option.map_some, Utf16.encode_append, Utf16.encode_cons]
  rfl

theorem nameAndValue_render :
    nameAndValue (Utf16.encode pair.name ++ equalsSign :: Utf16.encode pair.value) =
      (Utf16.encode pair.name, Utf16.encode pair.value) := by
  have hfind := find_append_cons [] (Utf16.encode pair.name) (Utf16.encode pair.value)
    equalsSign (equalsSign_not_mem_identifier pair.identifier)
  rw [nil_append, length_nil, Nat.zero_add] at hfind
  have hrest : substringFrom (Utf16.encode pair.name ++ equalsSign :: Utf16.encode pair.value)
      ((Utf16.encode pair.name).length + 1) = Utf16.encode pair.value := by
    rw [substringFrom, ← drop_drop, drop_left]
    rfl
  rw [nameAndValue, hfind, Option.getD_some, hrest, substring, drop_zero, take_left,
    stripWhiteSpace_identifier pair.identifier,
    stripWhiteSpace_encode pair.noLeadingSpace pair.noTrailingSpace]

end Pair

section Pairs

variable {reservedKeys : List Str} (pairs : List (Pair reservedKeys))

theorem split_renderPairs : split (renderPairs pairs) ampersand = pairs.map Pair.render := by
  apply split_intercalate
  · rw [forall_mem_map]
    exact fun pair _ => pair.render_ne_nil
  · rw [forall_mem_map]
    exact fun pair _ => pair.ampersand_not_mem_render

/-- The entries of a query of pairs reach the task in order. -/
theorem parseEntries_renderPairs {T : Type} (set : T → Str → Str → T) (task : T)
    (pairs : List (Pair reservedKeys)) :
    parseEntries set task (renderPairs pairs) =
      some (pairs.foldl (fun task pair =>
        set task (Utf16.encode pair.name) (Utf16.encode pair.value)) task) := by
  have hfold : (pairs.map Pair.render).foldlM (fun task param =>
      (decodeEscapeSequencesFromParsedURL param).map fun decoded =>
        set task (nameAndValue decoded).1 (nameAndValue decoded).2) task =
      some (pairs.foldl (fun task pair =>
        set task (Utf16.encode pair.name) (Utf16.encode pair.value)) task) := by
    induction pairs generalizing task with
    | nil => rfl
    | cons pair pairs ih => grind [pair.decodeEscapeSequences_render, pair.nameAndValue_render]
  rw [parseEntries, split_renderPairs]
  split_ifs with hempty
  · have hnone : pairs.map Pair.render = [] := by
      rw [← split_renderPairs, List.isEmpty_iff.1 hempty]
      rfl
    rw [map_eq_nil_iff.1 hnone]
    rfl
  · exact hfold

/-- The parameters after those of all pairs have been set. -/
def setParams (paramMap : ParamMap) (pairs : List (Pair reservedKeys)) : ParamMap :=
  pairs.foldl (fun paramMap pair =>
    setParam paramMap (Utf16.encode pair.name) (Utf16.encode pair.value)) paramMap

theorem setParams_eq (paramMap : ParamMap) :
    setParams paramMap pairs = fun key => (lastValue pairs key).or (paramMap key) := by
  induction pairs generalizing paramMap with
  | nil => rfl
  | cons pair pairs ih =>
    rw [setParams, foldl_cons, ← setParams, ih]
    funext key
    rw [lastValue, lastValue, reverse_cons, find?_append, Option.map_or, Option.or_assoc]
    congr 1
    by_cases hkey : Utf16.encode pair.name = key
    · rw [setParam, hkey, update_self, find?_cons_of_pos (by simp [hkey])]
      rfl
    · rw [setParam, update_of_ne (Ne.symm hkey), find?_cons_of_neg (by simp [hkey])]
      rfl

theorem setParams_empty : setParams (fun _ => none) pairs = lastValue pairs := by
  rw [setParams_eq]
  funext key
  exact Option.or_none

end Pairs

namespace NetworkDataTaskLcmd

theorem foldl_set (pairs : List (Pair reservedKeys)) (task : Query) :
    pairs.foldl (fun task pair =>
      set task (Utf16.encode pair.name) (Utf16.encode pair.value)) task =
        { task with paramMap := setParams task.paramMap pairs } := by
  induction pairs generalizing task with
  | nil => rfl
  | cons pair pairs ih =>
    have hfilter := pair.unreserved (lit "cmdfilter") (by simp [reservedKeys])
    have hline := pair.unreserved (lit "cmdline") (by simp [reservedKeys])
    rw [foldl_cons, ih, set, hfilter, hline]
    rfl

end NetworkDataTaskLcmd

namespace NetworkDataTaskLsql

theorem foldl_set (pairs : List (Pair reservedKeys)) (task : Query) :
    pairs.foldl (fun task pair =>
      set task (Utf16.encode pair.name) (Utf16.encode pair.value)) task =
        { task with paramMap := setParams task.paramMap pairs } := by
  induction pairs generalizing task with
  | nil => rfl
  | cons pair pairs ih =>
    have hquery := pair.unreserved (lit "sqlquery") (by simp [reservedKeys])
    have hformat := pair.unreserved (lit "sqlRowFormat") (by simp [reservedKeys])
    rw [foldl_cons, ih, set, hquery, hformat]
    rfl

end NetworkDataTaskLsql

/-- Each task maps every name to the last value given for it, and nothing else. -/
theorem parseQueryString_renderPairs (cmdPairs : List (Pair NetworkDataTaskLcmd.reservedKeys))
    (sqlPairs : List (Pair NetworkDataTaskLsql.reservedKeys)) :
    NetworkDataTaskLcmd.parseQueryString .initial (renderPairs cmdPairs) =
        some { NetworkDataTaskLcmd.Query.initial with paramMap := lastValue cmdPairs } ∧
      NetworkDataTaskLsql.parseQueryString .initial (renderPairs sqlPairs) =
        some { NetworkDataTaskLsql.Query.initial with paramMap := lastValue sqlPairs } ∧
      NetworkDataTaskRsql.parseQueryString .initial (renderPairs sqlPairs) =
        some { NetworkDataTaskLsql.Query.initial with paramMap := lastValue sqlPairs } := by
  have hsql : parseEntries NetworkDataTaskLsql.set .initial (renderPairs sqlPairs) =
      some { NetworkDataTaskLsql.Query.initial with paramMap := lastValue sqlPairs } := by
    rw [parseEntries_renderPairs, NetworkDataTaskLsql.foldl_set, ← setParams_empty]
    rfl
  refine ⟨?_, hsql, hsql⟩
  rw [NetworkDataTaskLcmd.parseQueryString, parseEntries_renderPairs,
    NetworkDataTaskLcmd.foldl_set, ← setParams_empty]
  rfl

/-- Two values of one name, `5%` and `&=y`. -/
def escapedPairs (reservedKeys : List Str)
    (hfree : ∀ key ∈ reservedKeys, equalIgnoringASCIICase (lit "x") key = false) :
    List (Pair reservedKeys) :=
  [{ name := ['x'], value := ['5', '%'], encoded := lit "5%25",
     identifier := ⟨by decide, nofun⟩, unreserved := hfree, noLeadingSpace := by rintro _ ⟨⟩; rfl,
     noTrailingSpace := by rintro _ ⟨⟩; rfl,
     escapes := .plain rfl (.escaped (.inl rfl) (.inl rfl) .nil) },
   { name := ['x'], value := ['&', '=', 'y'], encoded := lit "%26=y",
     identifier := ⟨by decide, nofun⟩, unreserved := hfree, noLeadingSpace := by rintro _ ⟨⟩; rfl,
     noTrailingSpace := by rintro _ ⟨⟩; rfl,
     escapes := .escaped (.inl rfl) (.inl rfl) (.plain rfl (.plain rfl .nil)) }]

theorem parseQueryString_renderPairs_escaped :
    let cmdPairs := escapedPairs NetworkDataTaskLcmd.reservedKeys (by decide)
    let sqlPairs := escapedPairs NetworkDataTaskLsql.reservedKeys (by decide)
    renderPairs cmdPairs = lit "x=5%25&x=%26=y" ∧
      (∃ query ∈ NetworkDataTaskLcmd.parseQueryString .initial (renderPairs cmdPairs),
        query.paramMap (lit "x") = some (lit "&=y")) ∧
      ∃ query ∈ NetworkDataTaskLsql.parseQueryString .initial (renderPairs sqlPairs),
        query.paramMap (lit "x") = some (lit "&=y") := by
  intro cmdPairs sqlPairs
  obtain ⟨hcmd, hsql, -⟩ := parseQueryString_renderPairs cmdPairs sqlPairs
  exact ⟨by decide, ⟨_, hcmd, by decide⟩, _, hsql, by decide⟩

end PurcFetcher.QueryString
