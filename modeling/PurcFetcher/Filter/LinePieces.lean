import PurcFetcher.Filter.Manager

/-!
# The pieces of a line

The delimiter filter splits the columns of every row at one delimiter after the other, which
comes to splitting them at all delimiters at once.

The word and sentence filters are meant to return pieces of the line between which no letter or
number is lost.  Their break analyser holds no characters, so they return no piece, and whatever
letters and numbers the line has are lost.
-/

namespace PurcFetcher.LinePieces

open CmdFilterManager List PurcFetcher.Filter Pieces Text TextSplit PurcFetcher.Vector

/-! ## Delimiters -/

theorem delimiterSplitLine_eq_pieces {param : Str} (hparam : param ≠ []) (line : Str) :
    delimiterSplitLine param line = pieces (fun char => param.contains char) line := by
  induction param generalizing line with
  | nil => exact absurd rfl hparam
  | cons uc rest ih =>
    have hcontains : (fun char => (uc :: rest).contains char) =
        fun char => char == uc || rest.contains char := by
      funext char
      exact contains_cons
    cases rest with
    | nil =>
      rw [delimiterSplitLine, split_eq_pieces]
      refine piecesFrom_congr [] fun char _ => ?_
      rw [contains_cons, contains_nil, Bool.or_false]
    | cons next rest =>
      rw [delimiterSplitLine, filterInnter, split_eq_pieces, hcontains, ← flatMap_pieces]
      exact flatMap_congr fun piece _ => ih (cons_ne_nil next rest) piece

def rowPieces (param : Str) (row : Row) : Row :=
  row.flatMap (pieces fun char => param.contains char)

theorem columnDelimiter_eq (utype : Char → GUnicodeType) (fuel : ℕ) (rowVec : List Row)
    {param : Str} (hparam : param ≠ []) :
    FilterKind.columnDelimiter.doFilter utype fuel rowVec param =
      .ok (rowVec.map (rowPieces param)) := by
  have hempty : param.isEmpty = false := by
    rw [isEmpty_eq_false_iff]
    exact hparam
  have hsplit : ∀ row ∈ rowVec,
      ColumnDelimiterFilter.splitRow param row = .ok [rowPieces param row] := by
    intro row _
    refine congrArg (fun pieces => Except.ok [pieces]) ?_
    exact flatMap_congr fun col _ => delimiterSplitLine_eq_pieces hparam col
  rw [FilterKind.doFilter, hempty, if_neg Bool.false_ne_true, appendVectors,
    mapM_of_forall_ok hsplit]
  refine congrArg Except.ok ?_
  rw [← flatMap_def, ← map_eq_flatMap]

/-- Every row is replaced by the pieces of its columns.  Only the set of delimiters counts, and
a second run changes nothing. -/
theorem delimiter_filter_pieces (unicharType : Char → GUnicodeType) (fuel : ℕ)
    (rowVec : List Row) {param : Str} (hparam : param ≠ []) :
    FilterKind.columnDelimiter.doFilter unicharType fuel rowVec param =
        .ok (rowVec.map fun row => row.flatMap (pieces fun char => param.contains char)) ∧
      (∀ other : Str, (∀ char, char ∈ other ↔ char ∈ param) →
        FilterKind.columnDelimiter.doFilter unicharType fuel rowVec other =
          FilterKind.columnDelimiter.doFilter unicharType fuel rowVec param) ∧
      (do let once ← FilterKind.columnDelimiter.doFilter unicharType fuel rowVec param
          FilterKind.columnDelimiter.doFilter unicharType fuel once param) =
        FilterKind.columnDelimiter.doFilter unicharType fuel rowVec param := by
  have honce := columnDelimiter_eq unicharType fuel rowVec hparam
  refine ⟨honce, fun other hsame => ?_, ?_⟩
  · have hother : other ≠ [] := by
      obtain ⟨char, hchar⟩ := exists_mem_of_ne_nil param hparam
      exact ne_nil_of_mem ((hsame char).2 hchar)
    rw [honce, columnDelimiter_eq unicharType fuel rowVec hother]
    refine congrArg Except.ok (map_congr_left fun row _ => ?_)
    refine flatMap_congr fun col _ => piecesFrom_congr [] fun char _ => ?_
    rw [Bool.eq_iff_iff, contains_iff_mem, contains_iff_mem]
    exact hsame char
  · rw [honce]
    refine (columnDelimiter_eq unicharType fuel _ hparam).trans ?_
    rw [map_map]
    refine congrArg Except.ok (map_congr_left fun row _ => ?_)
    rw [Function.comp_apply, rowPieces, rowPieces, flatMap_assoc]
    refine flatMap_congr fun col _ => ?_
    rw [flatMap_pieces]
    exact piecesFrom_congr [] fun char _ => Bool.or_self _

theorem delimiter_filter_pieces_of_two :
    FilterKind.columnDelimiter.doFilter (fun _ => .control) 0 [[lit "a,b;", lit ";c"], []]
        (lit ",;") = .ok [[lit "a", lit "b", lit "c"], []] :=
  (delimiter_filter_pieces (fun _ => .control) 0 [[lit "a,b;", lit ";c"], []] (cons_ne_nil _ _)).1

/-! ## Words and sentences -/

/-- The filters that split a line at the breaks of the analyser. -/
inductive BreakFilter
  | lineWords
  | lineSentences
  | columnWords
  | columnSentences
  deriving DecidableEq, Repr

def BreakFilter.splitLine (unicharType : Char → GUnicodeType) :
    BreakFilter → Str → List Str
  | lineWords => wordsSplitLine unicharType
  | lineSentences => sentencesSplitLine unicharType
  | columnWords => wordsSplitLine unicharType
  | columnSentences => sentencesSplitLine unicharType

/-- The text is made of the pieces, in order, and of gaps between them that hold no character
which has to be kept. -/
inductive MadeOf (keep : Char → Bool) : List Char → List (List Char) → Prop
  | gap {gap : List Char} (hgap : ∀ char ∈ gap, keep char = false) : MadeOf keep gap []
  | piece {gap piece rest : List Char} {pieces : List (List Char)}
      (hgap : ∀ char ∈ gap, keep char = false) (hne : piece ≠ [])
      (hrest : MadeOf keep rest pieces) : MadeOf keep (gap ++ piece ++ rest) (piece :: pieces)

/-- What `splitLine` is meant to return for the column that holds a text. -/
def Covers (unicharType : Char → GUnicodeType) (text : List Char) (parts : List Str) : Prop :=
  ∃ pieces, parts = pieces.map columnOf ∧
    MadeOf (fun char => isLetterOrNumber (unicharType char)) text pieces

theorem madeOf_nil_iff {keep : Char → Bool} {text : List Char} :
    MadeOf keep text [] ↔ ∀ char ∈ text, keep char = false := by
  refine ⟨fun hmade => ?_, .gap⟩
  cases hmade with
  | gap hgap => exact hgap

theorem covers_nil_iff {utype : Char → GUnicodeType} {text : List Char} :
    Covers utype text [] ↔ ∀ char ∈ text, isLetterOrNumber (utype char) = false := by
  constructor
  · rintro ⟨pieces, hnil, hmade⟩
    rw [map_eq_nil_iff.1 hnil.symm] at hmade
    exact madeOf_nil_iff.1 hmade
  · intro hnone
    exact ⟨[], rfl, madeOf_nil_iff.2 hnone⟩

/-- The pieces cover the letters and numbers of a line only if it has none. -/
theorem break_pieces_cover_iff (unicharType : Char → GUnicodeType) (filter : BreakFilter)
    (text : List Char) :
    Covers unicharType text (filter.splitLine unicharType (columnOf text)) ↔
      ∀ char ∈ text, isLetterOrNumber (unicharType char) = false := by
  have hnil : filter.splitLine unicharType (columnOf text) = [] := by
    cases filter with
    | lineWords | columnWords => exact wordsSplitLine_eq_nil unicharType _
    | lineSentences | columnSentences => exact sentencesSplitLine_eq_nil unicharType _
  rw [hnil]
  exact covers_nil_iff

/-- The one letter of a line is in no piece. -/
theorem letter_is_in_no_piece :
    BreakFilter.lineWords.splitLine (fun _ => .lowercaseLetter) (columnOf ['a']) = [] ∧
      ¬ Covers (fun _ => .lowercaseLetter) ['a']
        (BreakFilter.lineWords.splitLine (fun _ => .lowercaseLetter) (columnOf ['a'])) := by
  refine ⟨rfl, fun hcovers => ?_⟩
  exact absurd (covers_nil_iff.1 hcovers 'a' mem_cons_self) (by decide)

end PurcFetcher.LinePieces
