import PurcFetcher.Filter.Manager
import PurcFetcher.Wtf.JsonValues

/-!
# Formatting of rows

The two format filters make a JSON value of each row that the chain leaves: an
object whose members are named by the parameter, or an array.  The manager uses
the format that was added last, and `keys` without a parameter if there is none.
-/

namespace PurcFetcher.Format

open CmdFilterManager List PurcFetcher.Filter JsonValues Pieces Text TextSplit PurcFetcher.Vector

def isSingleQuotes (char : UChar) : Bool :=
  char == 0x27

/-- `String::number`. -/
def numberText (number : ℕ) : Str :=
  (Nat.toDigits 10 number).map fun char => UInt16.ofNat char.toNat

/-! ## `FormatKeys` -/

/-- The keys of a parameter, stripped of white space and then of quotes. -/
def keyVec (param : Str) : List Str :=
  if param.isEmpty then []
  else
    ((split param 0x2C).map fun key =>
      stripMatchedCharacters isSingleQuotes (stripWhiteSpace key)).filter
        fun key => !key.isEmpty

/-- The name of column `i`. -/
def keyOf (keys : List Str) (i : ℕ) : Str :=
  keys.getD i (lit "C" ++ numberText i)

def FormatKeys.doFormat (lineColumns : Row) (param : Str) : Value :=
  let keys := keyVec param
  .object ((lineColumns.zipIdx).foldl (fun members column =>
    setValue members (keyOf keys column.2) (.string column.1)) [])

/-! ## `FormatArray` -/

/-- `left` and `split` of a parameter. -/
def arrayParam (param : Str) : ℤ × Str :=
  if param.isEmpty then (0, lit ":")
  else
    match split param 0x2C with
    | first :: second :: _ => ((toInt first).getD 0, stripMatchedCharacters isSingleQuotes second)
    | _ => (0, lit ":")

/-- What is appended to the builder: the columns from `left` on, each with a separator. -/
def appended (lineColumns : Row) (left : ℕ) (separator : Str) : Str :=
  (lineColumns.drop left).flatMap fun column => column ++ separator

/-- The columns from `left` on, joined.  A negative `left` is an index no vector
has.  That a buffer of wide characters may not be allocated already for somewhat fewer
characters is left out. -/
def joinFrom (lineColumns : Row) (left : ℤ) (separator : Str) : Checked (List Value) :=
  if left < 0 then .error .outOfBounds
  else
    let sb := appended lineColumns left.toNat separator
    if maxLength < sb.length then .error .tooLong
    else if sb.isEmpty then pure []
    else pure [.string (sb.take (sb.length - separator.length))]

def FormatArray.doFormat (lineColumns : Row) (param : Str) : Checked Value :=
  if lineColumns.isEmpty then pure (.array [])
  else
    let left := (arrayParam param).1
    if left = 0 then pure (.array (lineColumns.map .string))
    else do
      let joined ← joinFrom lineColumns left (arrayParam param).2
      pure (.array ((lineColumns.take left.toNat).map .string ++ joined))

/-! ## `CmdFilterManager` -/

/-- `CmdFilterManager::doFormat`.  Only format filters are ever kept in
`formats`. -/
def doFormat (state : State) (lineColumns : Row) : Checked Value :=
  let format := state.formats.getLastD (lit "keys", [])
  match findFilter format.1 with
  | some .formatKeys => pure (FormatKeys.doFormat lineColumns format.2)
  | some .formatArray => FormatArray.doFormat lineColumns format.2
  | _ => pure .null

/-- `CmdFilterManager::doFilter`. -/
def doFilter (unicharType : Char → GUnicodeType) (fuel : ℕ) (state : State)
    (lines : List Str) : Checked (List Value) := do
  let rows ← filterRows unicharType fuel state lines
  rows.mapM (doFormat state)

/-- Without filters and formats every line becomes an object with the one member
`C0`. -/
theorem doFilter_initial (utype : Char → GUnicodeType) (fuel : ℕ)
    (lines : List Str) :
    doFilter utype fuel initial lines =
      .ok (lines.map fun line => .object [(lit "C0", .string line)]) := by
  have hkeys : findFilter (lit "keys") = some .formatKeys := by decide
  have hname : keyOf (keyVec []) 0 = lit "C0" := by decide
  have hformat : ∀ line, doFormat initial [line] = .ok (.object [(lit "C0", .string line)]) := by
    intro line
    have hformats : initial.formats.getLastD (lit "keys", []) = (lit "keys", []) := rfl
    simp only [doFormat, hformats, hkeys, FormatKeys.doFormat, zipIdx_singleton,
      foldl_cons, foldl_nil, hname]
    rfl
  have hrows : filterRows utype fuel initial lines = .ok (lines.map fun line => [line]) := rfl
  change (lines.map fun line => [line]).mapM (doFormat initial) = _
  induction lines with
  | nil => rfl
  | cons line lines ih =>
    rw [map_cons, mapM_cons, hformat, ih rfl]
    rfl

/-! ## What `FormatArray` returns -/

def comma : UChar := 0x2C

def singleQuote : UChar := 0x27

/-- The first columns, and one string for the others if there are any. -/
def firstColumns (lineColumns : Row) (count : ℕ) (separator : Str) : List Str :=
  lineColumns.take count ++
    if count < lineColumns.length then [separator.intercalate (lineColumns.drop count)] else []

/-- The parameter has a second entry, and its first one is a negative number. -/
def negativeCount (param : Str) : Bool :=
  match split param comma with
  | first :: _ :: _ => (toInt first).any (· < 0)
  | _ => false

/-- The columns that are joined fit into a string, each with a separator behind it. -/
def joinedFits (lineColumns : Row) (param : Str) : Bool :=
  let (left, separator) := arrayParam param
  left = 0 || (appended lineColumns left.toNat separator).length ≤ maxLength

/-- The columns that `FormatArray::doFormat` reads exist, a parameter `n,sep` cuts the row
after `n` columns, and without a parameter or with zero for `n` all columns are kept. -/
structure FormatsColumns (lineColumns : Row) (param : Str) : Prop where
  inside : ∃ value, FormatArray.doFormat lineColumns param = .ok value
  cut : ∀ digits separator, param = digits ++ comma :: separator → IsDecimal digits →
    1 ≤ decimal digits → separator ≠ [] → comma ∉ separator → singleQuote ∉ separator →
      FormatArray.doFormat lineColumns param =
        .ok (.array ((firstColumns lineColumns (decimal digits) separator).map .string))
  whole : (param = [] ∨ ∃ digits separator, param = digits ++ comma :: separator ∧
      IsDecimal digits ∧ decimal digits = 0) →
    FormatArray.doFormat lineColumns param = .ok (.array (lineColumns.map .string))

theorem flatMap_append_separator {lineCols : Row} (hne : lineCols ≠ [])
    (sep : Str) :
    (lineCols.flatMap fun col => col ++ sep) = sep.intercalate lineCols ++ sep := by
  induction lineCols with
  | nil => exact absurd rfl hne
  | cons col rest ih =>
    by_cases hlast : rest = []
    · simp [hlast]
    · rw [flatMap_cons, ih hlast, intercalate_cons_of_ne_nil hlast]
      simp only [append_assoc]

variable (lineCols : Row)

theorem joinFrom_natCast (count : ℕ) {sep : Str} (hsep : sep ≠ [])
    (hlen : (appended lineCols count sep).length ≤ maxLength) :
    joinFrom lineCols count sep =
      .ok (if count < lineCols.length then
        [.string (sep.intercalate (lineCols.drop count))] else []) := by
  rw [joinFrom, if_neg (by omega), Int.toNat_natCast, if_neg (by omega), appended]
  by_cases hmore : count < lineCols.length
  · have hrest : lineCols.drop count ≠ [] := by
      rw [Ne, drop_eq_nil_iff]
      omega
    have hjoined : sep.intercalate (lineCols.drop count) ++ sep ≠ [] :=
      append_ne_nil_of_right_ne_nil _ hsep
    rw [flatMap_append_separator hrest]
    simp only [List.isEmpty_iff, hjoined, hmore, if_true, if_false, length_append,
      Nat.add_sub_cancel, take_left]
    rfl
  · rw [drop_eq_nil_iff.2 (by omega), if_neg hmore]
    rfl

section Parameter

variable {digits separator : Str} (hdecimal : IsDecimal digits)

include hdecimal

theorem comma_not_mem_decimal : ∀ char ∈ digits, (char == comma) = false := by
  intro char hchar
  have hlow := (toNat_of_isASCIIDigit (hdecimal.2 char hchar)).1
  refine beq_eq_false_iff_ne.2 fun heq => ?_
  rw [heq] at hlow
  exact absurd hlow (by decide)

theorem split_count :
    split (digits ++ comma :: separator) comma = digits :: pieces (· == comma) separator := by
  rw [split_eq_pieces, pieces_append_cons _ _ _ _ (comma_not_mem_decimal hdecimal)
    (beq_self_eq_true comma), emit_of_ne_nil hdecimal.1, singleton_append]

theorem arrayParam_count (hne : separator ≠ []) (hcomma : comma ∉ separator)
    (hquote : singleQuote ∉ separator) :
    arrayParam (digits ++ comma :: separator) =
      (if decimal digits < 2 ^ 31 then (decimal digits : ℤ) else 0, separator) := by
  have hfree : ∀ char ∈ separator, (char == comma) = false :=
    fun char hchar => beq_eq_false_iff_ne.2 fun heq => hcomma (heq ▸ hchar)
  have hunquoted : ∀ char ∈ separator, isSingleQuotes char = false :=
    fun char hchar => beq_eq_false_iff_ne.2 fun heq : char = singleQuote => hquote (heq ▸ hchar)
  have hstrip :=
    stripMatchedCharacters_eq_self (fun char hchar => hunquoted char (mem_of_mem_head? hchar))
      (fun char hchar => hunquoted char (mem_of_mem_getLast? hchar))
  have hsplit : split (digits ++ comma :: separator) comma = [digits, separator] := by
    rw [split_count hdecimal, pieces_of_free _ _ hfree, emit_of_ne_nil hne]
  rw [arrayParam, if_neg (by simp), ← comma, hsplit]
  dsimp only
  rw [hstrip, toInt_decimal hdecimal]
  split_ifs <;> rfl

end Parameter

theorem FormatArray.doFormat_eq (param : Str) :
    FormatArray.doFormat lineCols param =
      if lineCols = [] ∨ (arrayParam param).1 = 0 then
        .ok (.array (lineCols.map .string))
      else
        joinFrom lineCols (arrayParam param).1 (arrayParam param).2 >>= fun joined =>
          pure (.array ((lineCols.take (arrayParam param).1.toNat).map .string ++ joined)) := by
  rw [FormatArray.doFormat]
  by_cases hempty : lineCols = []
  · rw [if_pos (List.isEmpty_iff.2 hempty), if_pos (Or.inl hempty), hempty]
    rfl
  · rw [if_neg (mt List.isEmpty_iff.1 hempty)]
    simp only [hempty, false_or]
    rfl

theorem FormatArray.doFormat_count {lineCols : Row} (hfits : Fits lineCols)
    {digits sep : Str} (hdecimal : IsDecimal digits) (hpositive : 1 ≤ decimal digits)
    (hne : sep ≠ []) (hcomma : comma ∉ sep) (hquote : singleQuote ∉ sep)
    (hjoined : lineCols = [] ∨ joinedFits lineCols (digits ++ comma :: sep) = true) :
    FormatArray.doFormat lineCols (digits ++ comma :: sep) =
      .ok (.array ((firstColumns lineCols (decimal digits) sep).map .string)) := by
  rw [joinedFits, arrayParam_count hdecimal hne hcomma hquote] at hjoined
  rw [FormatArray.doFormat_eq, arrayParam_count hdecimal hne hcomma hquote]
  by_cases hwhole : lineCols = [] ∨ ¬ decimal digits < 2 ^ 31
  -- no row has `2 ^ 31` columns
  · have hlen : lineCols.length ≤ decimal digits := by grind [Fits]
    rw [if_pos (hwhole.imp_right fun hlarge => if_neg hlarge), firstColumns,
      take_of_length_le hlen, if_neg (not_lt.2 hlen), append_nil]
  · obtain ⟨hrow, hsmall⟩ := not_or.1 hwhole
    rw [not_not] at hsmall
    have hlen : (appended lineCols (decimal digits) sep).length ≤ maxLength := by grind
    rw [if_pos hsmall, if_neg (not_or.2 ⟨hrow, by omega⟩),
      joinFrom_natCast lineCols _ hne hlen, firstColumns, map_append, Int.toNat_natCast]
    split_ifs <;> rfl

theorem negativeCount_iff (param : Str) :
    negativeCount param = true ↔ (arrayParam param).1 < 0 := by
  rw [negativeCount, arrayParam]
  by_cases hempty : param = []
  · subst hempty
    decide
  · rw [if_neg (mt List.isEmpty_iff.1 hempty)]
    split
    · next first second rest hsplit =>
      rw [← comma, hsplit]
      cases hval : toInt first <;> simp [hval]
    · next hsplit =>
      split
      · next first second rest hmany => exact absurd hmany (hsplit first second rest)
      · simp

theorem FormatArray.exists_doFormat_iff (param : Str) :
    (∃ value, FormatArray.doFormat lineCols param = .ok value) ↔
      lineCols = [] ∨ negativeCount param = false ∧ joinedFits lineCols param = true := by
  rw [← Bool.not_eq_true, negativeCount_iff, FormatArray.doFormat_eq]
  by_cases hwhole : lineCols = [] ∨ (arrayParam param).1 = 0
  · rw [if_pos hwhole]
    refine iff_of_true ⟨_, rfl⟩ (hwhole.imp_right fun hzero => ⟨by omega, ?_⟩)
    simp [joinedFits, hzero]
  · obtain ⟨hrow, hzero⟩ := not_or.1 hwhole
    rw [if_neg hwhole, joinFrom]
    by_cases hneg : (arrayParam param).1 < 0
    · simp [hneg, hrow, bind, Except.bind]
    · simp only [hneg, hrow, hzero, if_false, not_false_eq_true, false_or, true_and, joinedFits,
        decide_false, Bool.false_or, decide_eq_true_eq]
      split_ifs with hlong
      · exact iff_of_false (by simp [bind, Except.bind]) (by omega)
      · exact iff_of_true ⟨_, rfl⟩ (by omega)
      · exact iff_of_true ⟨_, rfl⟩ (by omega)

end PurcFetcher.Format
