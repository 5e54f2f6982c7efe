import PurcFetcher.Filter.Cut
import PurcFetcher.Filter.LineSplit
import PurcFetcher.Filter.TextSplit

/-!
# `CmdFilterManager`

The manager looks filters up by name, keeps the accepted ones in order and runs
the chain on the lines of a command's output, each line a row of one column.

`fuel` bounds the rounds of the pick and cut loops.  A statement for every bound
is a statement about every access the loops ever make, whether or not they end.
-/

namespace PurcFetcher.CmdFilterManager

open PurcFetcher.Filter Text TextSplit PurcFetcher.Vector

inductive FilterType
  | unknown
  | lineSplit
  | lineCut
  | columnSplit
  | columnCut
  | format
  deriving DecidableEq, Repr

/-- The filter classes. -/
inductive FilterKind
  | lineChars | lineCut | lineHead | lineIgnore | lineLetters | linePick
  | lineSentences | lineSplit | lineTail | lineWords
  | columnChars | columnCut | columnDelimiter | columnHead | columnIgnore
  | columnLetters | columnPick | columnSentences | columnTail | columnWords
  | formatArray | formatKeys
  deriving DecidableEq, Repr

namespace FilterKind

def name : FilterKind → Str
  | lineChars => lit "chars"
  | lineCut => lit "cut"
  | lineHead => lit "head"
  | lineIgnore => lit "ignore"
  | lineLetters => lit "letters"
  | linePick => lit "pick"
  | lineSentences => lit "sentences"
  | lineSplit => lit "split"
  | lineTail => lit "tail"
  | lineWords => lit "words"
  | columnChars => lit "cchars"
  | columnCut => lit "ccut"
  | columnDelimiter => lit "delimiter"
  | columnHead => lit "chead"
  | columnIgnore => lit "cignore"
  | columnLetters => lit "cletters"
  | columnPick => lit "cpick"
  | columnSentences => lit "csentences"
  | columnTail => lit "ctail"
  | columnWords => lit "cwords"
  | formatArray => lit "array"
  | formatKeys => lit "keys"

def type : FilterKind → FilterType
  | lineChars | lineLetters | lineSentences | lineSplit | lineWords => .lineSplit
  | lineCut | lineHead | lineIgnore | linePick | lineTail => .lineCut
  | columnChars | columnDelimiter | columnLetters | columnSentences | columnWords => .columnSplit
  | columnCut | columnHead | columnIgnore | columnPick | columnTail => .columnCut
  | formatArray | formatKeys => .format

end FilterKind

open FilterKind

/-- `m_filterVec`, in the order of `initFilterVec`. -/
def filterVec : List FilterKind :=
  [lineChars, lineCut, lineHead, lineIgnore, lineLetters, linePick, lineSentences,
    lineSplit, lineTail, lineWords, columnChars, columnCut, columnDelimiter, columnHead,
    columnIgnore, columnLetters, columnPick, columnSentences, columnTail, columnWords,
    formatArray, formatKeys]

/-- `m_nameFilterMap.find`. -/
def findFilter (filterName : Str) : Option FilterKind :=
  filterVec.find? fun kind => convertToASCIILowercase kind.name == filterName

/-- The accepted filters and formats.  Names and parameters are kept in two
vectors that are always appended to together. -/
structure State where
  filters : List (Str × Str)
  formats : List (Str × Str)
  deriving DecidableEq, Repr

def initial : State :=
  { filters := [], formats := [] }

def addFilter (state : State) (name param : Str) : State × Bool :=
  if name.isEmpty then (state, false)
  else
    let nameLowerCase := stripWhiteSpace (convertToASCIILowercase name)
    match findFilter nameLowerCase with
    | none => (state, false)
    | some kind =>
      match kind.type with
      | .lineSplit | .lineCut | .columnSplit | .columnCut =>
        ({ state with filters := state.filters ++ [(nameLowerCase, param)] }, true)
      | .format => ({ state with formats := state.formats ++ [(nameLowerCase, param)] }, true)
      | .unknown => (state, false)

/-- A fresh manager after a sequence of requests. -/
def addFilters (requests : List (Str × Str)) : State :=
  requests.foldl (fun state request => (addFilter state request.1 request.2).1) initial

/-! ## Running the chain -/

section Run

variable (unicharType : Char → GUnicodeType) (fuel : ℕ)

/-- `FilterBase::doFilter` of each class.  The early exits on an empty row
vector return what the loop over no rows returns. -/
def FilterKind.doFilter : FilterKind → List Row → Str → Checked (List Row)
  | lineChars, rowVec, _ => appendVectors LineCharsFilter.splitRow rowVec
  | lineCut, rowVec, param => Cut.cut fuel rowVec param
  | lineHead, rowVec, param => Cut.head rowVec param
  | lineIgnore, rowVec, param => Cut.lineIgnore rowVec param
  | lineLetters, rowVec, _ => appendVectors (LineLettersFilter.splitRow unicharType) rowVec
  | linePick, rowVec, param => Cut.pick fuel rowVec param
  | lineSentences, rowVec, _ => appendVectors (LineSentencesFilter.splitRow unicharType) rowVec
  | lineSplit, rowVec, param => LineSplitFilter.doFilter rowVec param
  | lineTail, rowVec, param => Cut.tail rowVec param
  | lineWords, rowVec, _ => appendVectors (LineWordsFilter.splitRow unicharType) rowVec
  | columnChars, rowVec, _ => appendVectors ColumnCharsFilter.splitRow rowVec
  | columnCut, rowVec, param => rowVec.mapM fun row => Cut.cut fuel row param
  | columnDelimiter, rowVec, param =>
    if param.isEmpty then pure rowVec
    else appendVectors (ColumnDelimiterFilter.splitRow param) rowVec
  | columnHead, rowVec, param => rowVec.mapM fun row => Cut.head row param
  | columnIgnore, rowVec, param => rowVec.mapM fun row => Cut.columnIgnore row param
  | columnLetters, rowVec, _ => appendVectors (ColumnLettersFilter.splitRow unicharType) rowVec
  | columnPick, rowVec, param => rowVec.mapM fun row => Cut.pick fuel row param
  | columnSentences, rowVec, _ => appendVectors (ColumnSentencesFilter.splitRow unicharType) rowVec
  | columnTail, rowVec, param => rowVec.mapM fun row => Cut.tail row param
  | columnWords, rowVec, _ => appendVectors (ColumnWordsFilter.splitRow unicharType) rowVec
  | formatArray, rowVec, _ => pure rowVec
  | formatKeys, rowVec, _ => pure rowVec

def doFilterInner (rowVec : List Row) (filter : Str × Str) : Checked (List Row) :=
  match findFilter filter.1 with
  | none => pure rowVec
  | some kind => kind.doFilter unicharType fuel rowVec filter.2

/-- The filter loop of `CmdFilterManager::doFilter`. -/
def runFilters (filters : List (Str × Str)) (rowVec : List Row) : Checked (List Row) :=
  filters.foldlM (doFilterInner unicharType fuel) rowVec

/-- The rows of `CmdFilterManager::doFilter` before they are formatted. -/
def filterRows (state : State) (lines : List Str) : Checked (List Row) :=
  runFilters unicharType fuel state.filters (lines.map fun line => [line])

end Run

/-! ## Chains that stay inside their vectors -/

/-- The row vectors a filter can be given without leaving a vector. -/
def FilterKind.safe : FilterKind → List Row → Str → Bool
  | lineHead, rowVec, param | lineTail, rowVec, param => Cut.limitSafe rowVec param
  | lineIgnore, rowVec, param => Cut.lineIgnoreSafe rowVec param
  | lineSplit, rowVec, param => rowVec.all (LineSplitFilter.rowSafe param)
  | lineWords, rowVec, _ | lineSentences, rowVec, _ => rowVec.all List.isEmpty
  | columnHead, rowVec, param | columnTail, rowVec, param =>
    rowVec.all fun row => Cut.limitSafe row param
  | columnIgnore, rowVec, param => rowVec.all fun row => Cut.columnIgnoreSafe row param
  | _, _, _ => true

def RowsFit (rowVec : List Row) : Prop :=
  Fits rowVec ∧ ∀ row ∈ rowVec, Fits row

theorem inBounds_appendVectors_pure (splitRow : Row → List Row) (rowVec : List Row) :
    InBounds (appendVectors (fun row => pure (splitRow row)) rowVec) := by
  rw [inBounds_appendVectors_iff fun row => finishes_pure _]
  exact fun row _ => inBounds_pure _

theorem inBounds_appendVectors_stops {splitRow : Row → Checked (List Row)}
    (hstops : ∀ row, splitRow row = if row = [] then .ok [] else .error .outOfBounds)
    (rowVec : List Row) :
    InBounds (appendVectors splitRow rowVec) ↔ rowVec.all List.isEmpty = true := by
  have hfinishes : ∀ row, Finishes (splitRow row) := by
    intro row
    rw [Finishes, hstops]
    split_ifs <;> simp
  rw [inBounds_appendVectors_iff hfinishes, List.all_eq_true]
  apply forall₂_congr
  intro row _
  rw [InBounds, hstops, List.isEmpty_iff]
  split_ifs with hrow <;> simp [hrow]

theorem inBounds_columns_iff {inner : Row → Checked Row} {safe : Row → Bool}
    (hfinishes : ∀ row, Finishes (inner row)) (rowVec : List Row)
    (hsafe : ∀ row ∈ rowVec, InBounds (inner row) ↔ safe row = true) :
    InBounds (rowVec.mapM inner) ↔ rowVec.all safe = true := by
  rw [inBounds_mapM_iff rowVec hfinishes, List.all_eq_true]
  exact forall₂_congr hsafe

section Safety

variable (unicharType : Char → GUnicodeType) (fuel : ℕ)

/-- One step of a chain stays inside its vectors exactly on safe rows. -/
theorem FilterKind.inBounds_doFilter_iff (kind : FilterKind) (rowVec : List Row)
    (param : Str) (hfit : RowsFit rowVec) :
    InBounds (kind.doFilter unicharType fuel rowVec param) ↔ kind.safe rowVec param = true := by
  obtain ⟨hrows, hcols⟩ := hfit
  cases kind with
  | lineHead => exact Cut.inBounds_head_iff rowVec param hrows
  | lineTail => exact Cut.inBounds_tail_iff rowVec param
  | lineIgnore => exact Cut.inBounds_lineIgnore_iff rowVec param hrows
  | lineSplit =>
    rw [FilterKind.safe, List.all_eq_true]
    exact LineSplitFilter.inBounds_doFilter_iff rowVec param
  | lineWords => exact inBounds_appendVectors_stops (lineWords_splitRow unicharType) rowVec
  | lineSentences => exact inBounds_appendVectors_stops (lineSentences_splitRow unicharType) rowVec
  | columnHead =>
    apply inBounds_columns_iff fun row => Cut.finishes_head row param
    exact fun row hrow => Cut.inBounds_head_iff row param (hcols row hrow)
  | columnTail =>
    apply inBounds_columns_iff fun row => Cut.finishes_tail row param
    exact fun row _ => Cut.inBounds_tail_iff row param
  | columnIgnore =>
    apply inBounds_columns_iff fun row => Cut.finishes_columnIgnore row param
    exact fun row hrow => Cut.inBounds_columnIgnore_iff row param (hcols row hrow)
  | lineCut => exact iff_of_true (Cut.inBounds_cut fuel rowVec param) rfl
  | linePick => exact iff_of_true (Cut.inBounds_pick fuel rowVec param) rfl
  | columnCut => exact iff_of_true (inBounds_mapM fun row _ => Cut.inBounds_cut fuel row param) rfl
  | columnPick =>
    exact iff_of_true (inBounds_mapM fun row _ => Cut.inBounds_pick fuel row param) rfl
  | columnDelimiter =>
    refine iff_of_true ?_ rfl
    rw [FilterKind.doFilter]
    split_ifs
    · exact inBounds_pure _
    · exact inBounds_appendVectors_pure _ rowVec
  | formatArray | formatKeys => exact iff_of_true (inBounds_pure _) rfl
  | _ => exact iff_of_true (inBounds_appendVectors_pure _ rowVec) rfl

/-- A property of every step of a chain, in the state the step finds. -/
def EveryStep (property : FilterKind → List Row → Str → Prop) :
    List (Str × Str) → List Row → Prop
  | [], _ => True
  | filter :: filters, rowVec =>
    (∀ kind, findFilter filter.1 = some kind → property kind rowVec filter.2) ∧
      ∀ next, doFilterInner unicharType fuel rowVec filter = .ok next →
        EveryStep property filters next

end Safety

end PurcFetcher.CmdFilterManager
