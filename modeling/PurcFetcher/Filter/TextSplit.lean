import PurcFetcher.Core.Utf8
import PurcFetcher.Filter.Base

/-!
# The text-splitting filters

Characters, letters, words and sentences, each in a line and a column version.
The line version of the first two gives every piece a row of its own, and that
of the last two runs the carrying loop; the column versions put all pieces of a
row into one row, as does the column version of the delimiter filter.

`g_unichar_type` is GLib's and enters as the parameter `unicharType`.  The
language a filter is given is stored and never read, so it is left out.  Loops
that read `v[i]` for all `i` below `v.size()` are recursions on the list.
-/

namespace PurcFetcher.TextSplit

open PurcFetcher.Filter List Text PurcFetcher.Vector

/-- `GUnicodeType`. -/
inductive GUnicodeType
  | control | format | unassigned | privateUse | surrogate
  | lowercaseLetter | modifierLetter | otherLetter | titlecaseLetter | uppercaseLetter
  | spacingMark | enclosingMark | nonSpacingMark
  | decimalNumber | letterNumber | otherNumber
  | connectPunctuation | dashPunctuation | closePunctuation | finalPunctuation
  | initialPunctuation | otherPunctuation | openPunctuation
  | currencySymbol | modifierSymbol | mathSymbol | otherSymbol
  | lineSeparator | paragraphSeparator | spaceSeparator
  deriving DecidableEq, Repr

/-- The case labels that all letter, word and sentence filters share. -/
def isLetterOrNumber : GUnicodeType → Bool
  | .lowercaseLetter | .modifierLetter | .otherLetter | .titlecaseLetter
  | .uppercaseLetter | .decimalNumber | .letterNumber | .otherNumber => true
  | _ => false

/-- `FilterBase::splitUTF8`.  The loop ends at the first ill-formed sequence;
`fuel` bounds the number of characters. -/
def splitUTF8From : ℕ → List LChar → List Str
  | 0, _ => []
  | fuel + 1, source =>
    match Utf8.next? source with
    | none => []
    | some character =>
      latin1 (source.take character.utf8Size) ::
        splitUTF8From fuel (source.drop character.utf8Size)

def splitUTF8 (source : List LChar) : List Str :=
  splitUTF8From source.length source

/-! ## Word and sentence breaks -/

/-- The two of the break attributes that the filters read. -/
structure UCharBreakAttr where
  isWordBoundary : Bool
  isSentenceBoundary : Bool
  deriving DecidableEq, Repr

structure UCharBreaker where
  text : List LChar
  uchar : List Char
  breakAttrs : List UCharBreakAttr

/-- The constructor.  It leaves the characters and the attributes empty, and
`doUStrGetBreaks`, which would compute both, is private and never called. -/
def UCharBreaker.create (text : List LChar) : UCharBreaker :=
  { text, uchar := [], breakAttrs := [] }

/-- `sb.append(buf)` with the character written to `buf` as a C string. -/
def utf8Buffer (wc : Char) : Str :=
  latin1 ((String.utf8EncodeChar wc).takeWhile (· != 0))

/-- The last `if` of both loops. -/
def flush (sb : Str) : List Str :=
  if sb.isEmpty then [] else [sb]

section Breaks

variable (unicharType : Char → GUnicodeType)

/-- The loop of `LineWordsFilter::splitLine` and `ColumnWordsFilter::splitLine`
over the characters and their attributes. -/
def wordsLoop : List (Char × UCharBreakAttr) → Str → List Str
  | [], sb => flush sb
  | (wc, attr) :: rest, sb =>
    if isLetterOrNumber (unicharType wc) || !attr.isWordBoundary then
      if attr.isWordBoundary then flush sb ++ wordsLoop rest (utf8Buffer wc)
      else wordsLoop rest (sb ++ utf8Buffer wc)
    else wordsLoop rest sb

/-- The loop of `LineSentencesFilter::splitLine` and
`ColumnSentencesFilter::splitLine`. -/
def sentencesLoop : List (Char × UCharBreakAttr) → Str → List Str
  | [], sb => flush sb
  | (wc, attr) :: rest, sb =>
    if attr.isSentenceBoundary then
      flush sb ++ sentencesLoop rest
        (if isLetterOrNumber (unicharType wc) then utf8Buffer wc else [])
    else sentencesLoop rest (sb ++ utf8Buffer wc)

/-- `splitLine` of the two word filters. -/
def wordsSplitLine (line : Str) : List Str :=
  if line.isEmpty then []
  else
    let breaker := UCharBreaker.create (characters8 line)
    wordsLoop unicharType (breaker.uchar.zip breaker.breakAttrs) []

/-- `splitLine` of the two sentence filters. -/
def sentencesSplitLine (line : Str) : List Str :=
  if line.isEmpty then []
  else
    let breaker := UCharBreaker.create (characters8 line)
    sentencesLoop unicharType (breaker.uchar.zip breaker.breakAttrs) []

/-- `splitLine` of the two character and the two letter filters. -/
def charsSplitLine (line : Str) : List Str :=
  if line.isEmpty then [] else splitUTF8 (characters8 line)

/-- `filterInnter` of the column filters and `doFilterInner` of the line
filters. -/
def filterInnter (splitLine : Str → List Str) (lines : List Str) : List Str :=
  lines.flatMap splitLine

/-- The second loop of the letter filters: `g_utf8_get_char` reads the first
character of a piece. -/
def keepLetters (pieces : List Str) : List Str :=
  pieces.filter fun piece =>
    match Utf8.next? (characters8 piece) with
    | some character => isLetterOrNumber (unicharType character)
    | none => false

def rowsOf (lineVec : List Str) : List Row :=
  lineVec.map fun piece => [piece]

def LineCharsFilter.splitRow (row : Row) : Checked (List Row) :=
  pure (rowsOf (filterInnter charsSplitLine row))

def ColumnCharsFilter.splitRow (row : Row) : Checked (List Row) :=
  pure [filterInnter charsSplitLine row]

def LineLettersFilter.splitRow (row : Row) : Checked (List Row) :=
  pure (rowsOf (keepLetters unicharType (filterInnter charsSplitLine row)))

def ColumnLettersFilter.splitRow (row : Row) : Checked (List Row) :=
  pure [keepLetters unicharType (filterInnter charsSplitLine row)]

def LineWordsFilter.splitRow (row : Row) : Checked (List Row) :=
  carryLoop (wordsSplitLine unicharType) row [] []

def ColumnWordsFilter.splitRow (row : Row) : Checked (List Row) :=
  pure [filterInnter (wordsSplitLine unicharType) row]

def LineSentencesFilter.splitRow (row : Row) : Checked (List Row) :=
  carryLoop (sentencesSplitLine unicharType) row [] []

def ColumnSentencesFilter.splitRow (row : Row) : Checked (List Row) :=
  pure [filterInnter (sentencesSplitLine unicharType) row]

/-- `ColumnDelimiterFilter::splitLine`, which the filter never calls with an
empty parameter: one character after the other splits the pieces of those
before. -/
def delimiterSplitLine : Str → Str → List Str
  | [], line => [line]
  | [uc], line => split line uc
  | uc :: next :: rest, line => filterInnter (delimiterSplitLine (next :: rest)) (split line uc)

def ColumnDelimiterFilter.splitRow (param : Str) (row : Row) : Checked (List Row) :=
  pure [filterInnter (delimiterSplitLine param) row]

end Breaks

/-! ## The pieces of a text -/

/-- The column that holds a text: its UTF-8 bytes, widened. -/
def columnOf (text : List Char) : Str :=
  latin1 (Utf8.encode text)

variable (text : List Char)

theorem splitUTF8From_encode (fuel : ℕ) (hfuel : text.length ≤ fuel) :
    splitUTF8From fuel (Utf8.encode text) = text.map fun char => columnOf [char] := by
  induction text generalizing fuel with
  | nil =>
    cases fuel with
    | zero => rfl
    | succ => rfl
  | cons char rest ih =>
    cases fuel with
    | zero => simp at hfuel
    | succ fuel =>
      rw [splitUTF8From, Utf8.next?_encode_cons]
      dsimp only
      rw [Utf8.encode_cons, ← String.length_utf8EncodeChar, take_left, drop_left,
        ih fuel (Nat.le_of_succ_le_succ hfuel), map_cons, columnOf,
        Utf8.encode_singleton]

@[simp]
theorem charsSplitLine_columnOf :
    charsSplitLine (columnOf text) = text.map fun char => columnOf [char] := by
  rw [charsSplitLine, columnOf, characters8_latin1, splitUTF8,
    splitUTF8From_encode _ _ (Utf8.length_le_length_encode text)]
  split_ifs with hempty
  · have htext : text = [] := by
      by_contra hne
      exact Utf8.encode_ne_nil hne (by simpa [latin1] using hempty)
    simp [htext]
  · rfl

section Agreement

variable (unicharType : Char → GUnicodeType)

theorem wordsSplitLine_eq_nil (line : Str) : wordsSplitLine unicharType line = [] := by
  rw [wordsSplitLine]
  split_ifs <;> rfl

theorem sentencesSplitLine_eq_nil (line : Str) : sentencesSplitLine unicharType line = [] := by
  rw [sentencesSplitLine]
  split_ifs <;> rfl

@[simp]
theorem flatten_rowsOf (lineVec : List Str) : (rowsOf lineVec).flatten = lineVec := by
  induction lineVec with
  | nil => rfl
  | cons piece pieces ih =>
    rw [rowsOf, map_cons, flatten_cons, ← rowsOf, ih]
    rfl

/-- What a text filter takes for a piece. -/
inductive TextFilter
  | chars
  | letters
  | words
  | sentences
  deriving DecidableEq, Repr

namespace TextFilter

def lineSplitRow : TextFilter → Row → Checked (List Row)
  | chars => LineCharsFilter.splitRow
  | letters => LineLettersFilter.splitRow unicharType
  | words => LineWordsFilter.splitRow unicharType
  | sentences => LineSentencesFilter.splitRow unicharType

def columnSplitRow : TextFilter → Row → Checked (List Row)
  | chars => ColumnCharsFilter.splitRow
  | letters => ColumnLettersFilter.splitRow unicharType
  | words => ColumnWordsFilter.splitRow unicharType
  | sentences => ColumnSentencesFilter.splitRow unicharType

/-- The pieces of one text: its characters, its letters and digits, or what the
word and sentence loops find in it. -/
def piecesOf : TextFilter → List Char → List Str
  | chars, text => text.map fun char => columnOf [char]
  | letters, text =>
    (text.filter fun char => isLetterOrNumber (unicharType char)).map fun char => columnOf [char]
  | words, text => wordsSplitLine unicharType (columnOf text)
  | sentences, text => sentencesSplitLine unicharType (columnOf text)

/-- Both versions of the filter return, and their columns are the pieces of all
texts of the row in order. -/
def Agrees (filter : TextFilter) (texts : List (List Char)) : Prop :=
  ∃ lineRows columnRows,
    filter.lineSplitRow unicharType (texts.map columnOf) = .ok lineRows ∧
    filter.columnSplitRow unicharType (texts.map columnOf) = .ok columnRows ∧
    lineRows.flatten = columnRows.flatten ∧
    columnRows.flatten = texts.flatMap (filter.piecesOf unicharType)

end TextFilter

theorem filterInnter_columnOf (splitLine : Str → List Str) (texts : List (List Char)) :
    filterInnter splitLine (texts.map columnOf) =
      texts.flatMap fun text => splitLine (columnOf text) := by
  rw [filterInnter, flatMap_map]

variable (texts : List (List Char))

/-- The carrying loop reads the first piece of the first column, so a splitter
that finds no pieces stops every row with a column. -/
theorem carryLoop_of_no_pieces {splitLine : Str → List Str}
    (hsplit : ∀ line, splitLine line = []) (row : Row) :
    carryLoop splitLine row [] [] =
      if row = [] then .ok [] else .error .outOfBounds := by
  cases row with
  | nil => rfl
  | cons col cols => exact carryLoop_cons_of_nil cols [] [] (hsplit col)

theorem lineWords_splitRow (row : Row) :
    LineWordsFilter.splitRow unicharType row =
      if row = [] then .ok [] else .error .outOfBounds :=
  carryLoop_of_no_pieces (wordsSplitLine_eq_nil unicharType) row

theorem lineSentences_splitRow (row : Row) :
    LineSentencesFilter.splitRow unicharType row =
      if row = [] then .ok [] else .error .outOfBounds :=
  carryLoop_of_no_pieces (sentencesSplitLine_eq_nil unicharType) row

/-- A filter whose line version stops on every row with a column agrees with its
column version only on the row without columns. -/
theorem agrees_iff_of_stops (filter : TextFilter) (texts : List (List Char))
    (hline : ∀ row, filter.lineSplitRow unicharType row =
      if row = [] then .ok [] else .error .outOfBounds)
    (hcol : filter.columnSplitRow unicharType [] = .ok [[]]) :
    filter.Agrees unicharType texts ↔ texts = [] := by
  constructor
  · rintro ⟨lineRows, colRows, hrun, -⟩
    rw [hline] at hrun
    by_contra htexts
    rw [if_neg (by simpa using htexts)] at hrun
    simp at hrun
  · intro htexts
    subst htexts
    exact ⟨[], [[]], by simpa using hline [], hcol, rfl, rfl⟩

/-- The line and the column version agree on every row for characters and
letters, and on no row with a column for words and sentences. -/
theorem agrees_iff (filter : TextFilter) (texts : List (List Char)) :
    filter.Agrees unicharType texts ↔ filter = .chars ∨ filter = .letters ∨ texts = [] := by
  cases filter with
  | chars =>
    refine iff_of_true ⟨_, _, rfl, rfl, ?_, ?_⟩ (.inl rfl)
    · rw [flatten_rowsOf, flatten_singleton]
    · rw [flatten_singleton, filterInnter_columnOf]
      simp only [charsSplitLine_columnOf]
      rfl
  | letters =>
    refine iff_of_true ⟨_, _, rfl, rfl, ?_, ?_⟩ (.inr (.inl rfl))
    · rw [flatten_rowsOf, flatten_singleton]
    · rw [flatten_singleton, filterInnter_columnOf]
      simp only [charsSplitLine_columnOf]
      rw [keepLetters, filter_flatMap]
      congr 1
      funext text
      rw [filter_map]
      congr 1
      refine filter_congr fun char _ => ?_
      rw [Function.comp_apply, columnOf, characters8_latin1, Utf8.next?_encode_cons char []]
  | words =>
    simpa using agrees_iff_of_stops unicharType .words texts (lineWords_splitRow unicharType) rfl
  | sentences =>
    simpa using agrees_iff_of_stops unicharType .sentences texts
      (lineSentences_splitRow unicharType) rfl

end Agreement

/-- A row of one word stops the line version, and the column version makes an
empty row of it. -/
theorem lineWords_stops :
    LineWordsFilter.splitRow (fun _ => .lowercaseLetter) [columnOf ['a']] =
        .error .outOfBounds ∧
      ColumnWordsFilter.splitRow (fun _ => .lowercaseLetter) [columnOf ['a']] =
        .ok [[]] ∧
      ¬ TextFilter.words.Agrees (fun _ => .lowercaseLetter) [['a']] := by
  refine ⟨rfl, rfl, ?_⟩
  rintro ⟨lineRows, columnRows, hrun, -⟩
  cases hrun

/-! ## The attributes of a text -/

namespace UCharBreaker

/-- `g_utf8_skip`, by which `g_utf8_next_char` goes on. -/
def utf8Skip (byte : LChar) : ℕ :=
  if byte < 0xC0 then 1 else if byte < 0xE0 then 2 else if byte < 0xF0 then 3
  else if byte < 0xF8 then 4 else if byte < 0xFC then 5 else if byte < 0xFE then 6 else 1

/-- The rounds of `genBreaks` by their indices `i`, at which each sets `attrs[i]`.  The last round
is for the end of the text, and `fuel` bounds the bytes that are left.  What a round sets besides
is at the index of an earlier round. -/
def genBreaks : ℕ → ℕ → List LChar → List ℕ
  | fuel + 1, i, byte :: rest =>
    if byte = 0 then [i] else i :: genBreaks fuel (i + 1) ((byte :: rest).drop (utf8Skip byte))
  | _, i, _ => [i]

/-- How many attributes are allocated for the bytes before the zero, and which are set. -/
def doUStrGetBreaks (text : List LChar) : ℤ × List ℕ :=
  let textLen := wrap32 text.length
  if textLen ≤ 0 then (0, []) else (textLen, genBreaks textLen.toNat 0 (text.take textLen.toNat))

theorem utf8Skip_of_encodeChar {char : Char} {byte : LChar} {rest : List LChar}
    (hencode : String.utf8EncodeChar char = byte :: rest) : utf8Skip byte = rest.length + 1 := by
  rw [String.utf8EncodeChar] at hencode
  split_ifs at hencode
  all_goals
    cases hencode
    simp only [utf8Skip, UInt8.lt_iff_toNat_lt, UInt8.toNat_ofNat', UInt8.reduceToNat]
    split_ifs <;> simp <;> omega

theorem genBreaks_encode {text : List Char} (hzero : Char.ofNat 0 ∉ text) {fuel : ℕ}
    (hfuel : (Utf8.encode text).length ≤ fuel) (i : ℕ) :
    genBreaks fuel i (Utf8.encode text) = range' i (text.length + 1) := by
  induction text generalizing fuel i with
  | nil => cases fuel <;> rfl
  | cons char text ih =>
    obtain ⟨hchar, htext⟩ := not_or.1 (mt mem_cons.2 hzero)
    rw [Utf8.encode_cons] at hfuel ⊢
    cases hencode : String.utf8EncodeChar char with
    | nil => exact absurd hencode String.utf8EncodeChar_ne_nil
    | cons byte rest =>
      have hbyte : byte ≠ 0 := by
        rintro rfl
        have hnul := Utf8.toNat_eq_of_mem_encodeChar (hencode ▸ mem_cons_self) (by decide)
        exact hchar (Char.toNat_inj.1 hnul.symm)
      rw [hencode, length_append, length_cons] at hfuel
      cases fuel with
      | zero => omega
      | succ fuel =>
        rw [cons_append, genBreaks, if_neg hbyte, utf8Skip_of_encodeChar hencode, drop_succ_cons,
          drop_left, ih htext (by omega)]
        rfl

theorem length_encode_eq_iff (text : List Char) :
    (Utf8.encode text).length = text.length ↔ ∀ char ∈ text, char.toNat < 128 := by
  induction text with
  | nil => simp
  | cons char text ih =>
    have hpos := char.utf8Size_pos
    have hle := Utf8.length_le_length_encode text
    have hone : char.utf8Size = 1 ↔ char.toNat < 128 :=
      Char.utf8Size_eq_one_iff.trans (by rw [UInt32.le_iff_toNat_le]; exact Nat.lt_succ_iff.symm)
    rw [Utf8.encode_cons, length_append, String.length_utf8EncodeChar, length_cons, forall_mem_cons,
      ← ih, ← hone]
    omega

/-- The attributes of a text fit into those allocated just if the text is empty or has a character
of more than one byte. -/
theorem attributes_fit_iff {text : List Char} (hzero : Char.ofNat 0 ∉ text)
    (hlen : (Utf8.encode text).length < 2 ^ 31) :
    (∀ i ∈ (doUStrGetBreaks (Utf8.encode text)).2,
      (i : ℤ) < (doUStrGetBreaks (Utf8.encode text)).1) ↔
        text = [] ∨ ∃ char ∈ text, 128 ≤ char.toNat := by
  have hle := Utf8.length_le_length_encode text
  have hsame := length_encode_eq_iff text
  rw [doUStrGetBreaks, wrap32_of_bounds (by omega) (by omega)]
  obtain rfl | hne := eq_or_ne text []
  · simp
  · have hpos := length_pos_iff.2 hne
    rw [if_neg (by omega), Int.toNat_natCast, take_length, genBreaks_encode hzero le_rfl]
    simp only [mem_range'_1, Nat.cast_lt, hne, false_or]
    constructor
    · grind
    · grind

theorem attributes_fit_iff_accented :
    128 ≤ 'é'.toNat ∧
      ∀ i ∈ (doUStrGetBreaks (Utf8.encode ['é'])).2,
        (i : ℤ) < (doUStrGetBreaks (Utf8.encode ['é'])).1 :=
  ⟨by decide, (attributes_fit_iff (by decide) (by decide)).2 (.inr ⟨'é', by decide, by decide⟩)⟩

/-- A text of one ASCII character has one attribute allocated and two set. -/
theorem ascii_attributes_overflow :
    doUStrGetBreaks (Utf8.encode ['a']) = (1, [0, 1]) := by
  decide

end UCharBreaker

end PurcFetcher.TextSplit
