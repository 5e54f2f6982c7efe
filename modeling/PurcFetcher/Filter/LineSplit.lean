import PurcFetcher.Core.PartialJoin
import PurcFetcher.Filter.Base

/-!
# `LineSplitFilter`

The filter splits every row once per delimiter character of its parameter, and
the rows made by one character are the input of the next.  Two things happen to
a column that the filter does not announce: a column without a character other
than the delimiter stops the process, and the piece pending at the end of a row
is dropped.

The module computes the text that survives, column by column, and reads off it
the exact inputs on which nothing but delimiters is lost.
-/

namespace PurcFetcher.LineSplitFilter

open PurcFetcher.Filter List PartialJoin Pieces Text PurcFetcher.Vector

def splitRowByUChar (row : Row) (uc : UChar) : Checked (List Row) :=
  carryLoop (fun column => split column uc) row [] []

/-- `splitRow` with the recursive `doFilter` on the rest of the parameter.
`param[0]` is never read on an empty parameter. -/
def splitRow : Str → Row → Checked (List Row)
  | [], _ => pure []
  | [uc], row => splitRowByUChar row uc
  | uc :: next :: rest, row => do
    let result ← splitRowByUChar row uc
    if result.isEmpty then pure result
    else appendVectors (splitRow (next :: rest)) result

def doFilter (rowVec : List Row) (param : Str) : Checked (List Row) :=
  if param.isEmpty || rowVec.isEmpty then pure rowVec
  else appendVectors (splitRow param) rowVec

/-- The text of a vector of rows: all columns of all rows in order. -/
def text (rowVec : List Row) : Str :=
  rowVec.flatten.flatten

def outText (run : Checked (List Row)) : Option Str :=
  run.toOption.map text

/-! ## The text that survives -/

/-- What is left of a column by the delimiters of the parameter.  `endsRow`
says whether the column is the last of its row, so that the piece pending after
it is dropped; a column that is not split again ends the row it is put into. -/
def columnText : Str → Bool → Str → Option Str
  | [], _, column => some column
  | delimiter :: rest, endsRow, column =>
    match split column delimiter with
    | [] => none
    | [piece] => columnText rest true piece
    | first :: others =>
      append? (join? ((first :: others).dropLast.map (columnText rest true)))
        (if endsRow then some [] else columnText rest false (others.getLastD []))

def rowText (param : Str) : Row → Option Str
  | [] => some []
  | [column] => columnText param true column
  | column :: next :: more => append? (columnText param false column) (rowText param (next :: more))

variable {delimiter : UChar} {rest : Str} {column : Str}

theorem columnText_of_nil (endsRow : Bool) (hsplit : split column delimiter = []) :
    columnText (delimiter :: rest) endsRow column = none := by
  rw [columnText, hsplit]

theorem columnText_of_single (endsRow : Bool) {piece : Str}
    (hsplit : split column delimiter = [piece]) :
    columnText (delimiter :: rest) endsRow column = columnText rest true piece := by
  rw [columnText, hsplit]

theorem exists_others (first trailing : Str) (middle : List Str) :
    ∃ next more, middle ++ [trailing] = next :: more ∧
      (first :: next :: more).dropLast = first :: middle ∧
        (next :: more).getLastD [] = trailing := by
  rcases hothers : middle ++ [trailing] with _ | ⟨next, more⟩
  · simp at hothers
  · grind

theorem columnText_of_many (endsRow : Bool) {first trailing : Str}
    {middle : List Str} (hsplit : split column delimiter = first :: (middle ++ [trailing])) :
    columnText (delimiter :: rest) endsRow column =
      append? (join? ((first :: middle).map (columnText rest true)))
        (if endsRow then some [] else columnText rest false trailing) := by
  obtain ⟨next, more, hothers, hdrop, hlast⟩ := exists_others first trailing middle
  rw [columnText, hsplit, hothers]
  simp only [hdrop, hlast]

variable (param : Str)

theorem rowText_cons (col : Str) (cols : List Str) :
    rowText param (col :: cols) =
      append? (columnText param cols.isEmpty col) (rowText param cols) := by
  cases cols <;> simp [rowText]

theorem rowText_concat (cols : List Str) (col : Str) :
    rowText param (cols ++ [col]) = append? (join? (cols.map (columnText param false)))
        (columnText param true col) := by
  induction cols with
  | nil => simp [rowText]
  | cons head tail ih =>
    have hmore : (tail ++ [col]).isEmpty = false := by simp
    rw [cons_append, rowText_cons, ih, hmore]
    simp [append?_assoc]

theorem rowText_nil_param (row : Row) : rowText [] row = some row.flatten := by
  induction row with
  | nil => rfl
  | cons column cols ih =>
    rw [rowText_cons, ih]
    simp [columnText]

/-- The rows made of a list of columns, with `lastRow` pending at its start,
leave the text of the pending row and of the columns.  The invariant of the
loop: what `rowVec` leaves comes first, and the pending row is used only when
another column follows. -/
theorem join?_carryLoop (delimiter : UChar) (rest : Str) (cols : List Str)
    (rowVec : List Row) (lastRow : Row) :
    ((carryLoop (fun column => split column delimiter) cols rowVec
        lastRow).toOption.bind fun rows => join? (rows.map (rowText rest))) =
      append? (join? (rowVec.map (rowText rest)))
        (if cols.isEmpty then some []
          else append? (join? (lastRow.map (columnText rest false)))
            (rowText (delimiter :: rest) cols)) := by
  induction cols generalizing rowVec lastRow with
  | nil => simp [carryLoop, pure, Except.pure, Except.toOption]
  | cons column cols ih =>
    rcases pieces_cases (split column delimiter) with
      hsplit | ⟨piece, hsplit⟩ | ⟨first, middle, trailing, hsplit⟩
    · rw [carryLoop_cons_of_nil cols rowVec lastRow hsplit, rowText_cons,
        columnText_of_nil _ hsplit]
      simp [Except.toOption]
    · rw [carryLoop_cons_of_single cols rowVec lastRow hsplit, ih,
        rowText_cons, columnText_of_single _ hsplit]
      cases cols <;>
        simp [join?_append, rowText_concat, append?_assoc, rowText]
    · rw [carryLoop_cons_of_many cols rowVec lastRow hsplit, ih,
        rowText_cons, columnText_of_many _ hsplit]
      have hmiddle : (middle.map fun piece => [piece]).map (rowText rest) =
          middle.map (columnText rest true) := by
        simp [rowText]
      cases cols <;>
        simp [join?_append, rowText_concat, append?_assoc, hmiddle, rowText]

theorem splitRow_cons (uc : UChar) (rest : Str) (row : Row) :
    splitRow (uc :: rest) row = (splitRowByUChar row uc >>= fun res => doFilter res rest) := by
  cases rest with
  | nil => exact (bind_pure _).symm
  | cons => simp [splitRow, doFilter]

theorem outText_appendVectors (splitter : Row → Checked (List Row))
    (rowVec : List Row) :
    outText (appendVectors splitter rowVec) =
      join? (rowVec.map fun row => outText (splitter row)) := by
  induction rowVec with
  | nil => rfl
  | cons row rows ih =>
    rw [map_cons, join?_cons, ← ih]
    simp only [appendVectors, mapM_cons]
    cases splitter row with
    | error => rfl
    | ok =>
      cases rows.mapM splitter with
      | error => rfl
      | ok => simp [outText, text, bind, Except.bind, pure, Except.pure, Except.toOption]

/-- The filter leaves exactly the surviving text of each row. -/
theorem outText_doFilter (rowVec : List Row) :
    outText (doFilter rowVec param) = join? (rowVec.map (rowText param)) := by
  induction param generalizing rowVec with
  | nil =>
    have hrows : join? (rowVec.map (rowText [])) = some (rowVec.map flatten).flatten := by
      induction rowVec with
      | nil => rfl
      | cons row rows ih => simp [rowText_nil_param, ih]
    rw [hrows]
    simp [doFilter, outText, text, pure, Except.pure, Except.toOption, flatten_flatten]
  | cons uc rest ih =>
    by_cases hrows : rowVec = []
    · simp [hrows, doFilter, outText, text, pure, Except.pure, Except.toOption]
    · rw [doFilter, if_neg (by simpa using hrows), outText_appendVectors]
      congr 1
      apply map_congr_left
      intro row _
      have hloop := join?_carryLoop uc rest row [] []
      rw [splitRow_cons, splitRowByUChar]
      cases hrun : carryLoop (fun column => split column uc) row [] [] with
      | error =>
        rw [hrun] at hloop
        cases row with
        | nil => simp [carryLoop, pure, Except.pure] at hrun
        | cons => simpa [Except.toOption, outText, bind, Except.bind] using hloop
      | ok rows =>
        rw [hrun] at hloop
        have hrest := ih rows
        cases row with
        | nil =>
          simp only [carryLoop, pure, Except.pure, Except.ok.injEq] at hrun
          subst hrun
          simpa [rowText, bind, Except.bind] using hrest
        | cons =>
          simp only [bind, Except.bind, hrest]
          simpa [Except.toOption] using hloop

/-! ## When nothing but delimiters is lost -/

/-- The text without the characters of the parameter. -/
def residue (param column : Str) : Str :=
  column.filter fun char => !param.contains char

/-- The columns that lose no character outside the parameter.  Every delimiter
must leave a piece of each piece it is applied to, and a column that ends its
row may be split into several pieces only if the last of them consists of
delimiters still to come. -/
def columnKept : Str → Bool → Str → Bool
  | [], _, _ => true
  | delimiter :: rest, endsRow, column =>
    match pieces (· == delimiter) column with
    | [] => false
    | [piece] => columnKept rest true piece
    | first :: others =>
      (first :: others).dropLast.all (columnKept rest true) &&
        (if endsRow then (others.getLastD []).all fun char => rest.contains char
          else columnKept rest false (others.getLastD []))

def rowKept (param : Str) : Row → Bool
  | [] => true
  | [column] => columnKept param true column
  | column :: next :: more => columnKept param false column && rowKept param (next :: more)

variable (endsRow : Bool)

theorem residue_cons (delimiter : UChar) (rest col : Str) :
    residue (delimiter :: rest) col = ((split col delimiter).map (residue rest)).flatten := by
  have hmap : residue rest = List.filter fun char => !rest.contains char := rfl
  rw [split_eq_pieces, hmap, ← filter_flatten, flatten_pieces, filter_filter, residue]
  apply filter_congr
  intro char _
  by_cases hchar : char = delimiter <;> simp [hchar]

theorem residue_eq_nil_iff (col : Str) :
    residue param col = [] ↔ (col.all fun char => param.contains char) = true := by
  simp [residue, filter_eq_nil_iff]

/-- A column never gains text. -/
theorem columnText_sublist (endsRow : Bool) (col left : Str)
    (hleft : columnText param endsRow col = some left) :
    left.Sublist (residue param col) := by
  induction param generalizing endsRow col left with
  | nil =>
    simp only [columnText, Option.some.injEq] at hleft
    simp [residue, hleft]
  | cons delimiter rest ih =>
    rcases pieces_cases (split col delimiter) with
      hsplit | ⟨piece, hsplit⟩ | ⟨first, middle, trailing, hsplit⟩
    · simp [columnText_of_nil endsRow hsplit] at hleft
    · rw [columnText_of_single endsRow hsplit] at hleft
      rw [residue_cons, hsplit]
      simpa using ih true piece left hleft
    · rw [columnText_of_many endsRow hsplit] at hleft
      rw [residue_cons, hsplit, ← cons_append, map_append, flatten_append]
      refine append?_sublist (join?_sublist _ (residue rest) _ ?_) ?_ left hleft
      · exact fun piece _ text htext => ih true piece text htext
      · grind

/-- A column keeps its text exactly when it satisfies `columnKept`. -/
theorem columnText_eq_residue_iff (col : Str) :
    columnText param endsRow col = some (residue param col) ↔
      columnKept param endsRow col = true := by
  induction param generalizing endsRow col with
  | nil => simp [columnText, columnKept, residue]
  | cons delimiter rest ih =>
    rcases pieces_cases (split col delimiter) with
      hsplit | ⟨piece, hsplit⟩ | ⟨first, middle, trailing, hsplit⟩
    · rw [columnText_of_nil endsRow hsplit, columnKept, ← split_eq_pieces, hsplit]
      simp
    · rw [columnText_of_single endsRow hsplit, residue_cons, columnKept, ← split_eq_pieces, hsplit]
      simpa using ih true piece
    · obtain ⟨next, more, hothers, hdrop, hlast⟩ := exists_others first trailing middle
      rw [columnText_of_many endsRow hsplit, residue_cons, columnKept, ← split_eq_pieces, hsplit,
        ← cons_append, map_append, flatten_append, cons_append, hothers]
      simp only [hdrop, hlast]
      have hkept : ∀ piece ∈ first :: middle, ∀ text,
          columnText rest true piece = some text → text.Sublist (residue rest piece) :=
        fun piece _ text htext => columnText_sublist rest true piece text htext
      have htrailing : ∀ text,
          (if endsRow then some [] else columnText rest false trailing) = some text →
            text.Sublist ([trailing].map (residue rest)).flatten := by
        intro text htext
        cases endsRow with
        | true =>
          rw [if_pos rfl, Option.some.injEq] at htext
          simp [← htext]
        | false => simpa using columnText_sublist rest false trailing text htext
      rw [append?_conserves_iff (join?_sublist _ (residue rest) _ hkept) htrailing,
        join?_conserves_iff _ (residue rest) _ hkept, Bool.and_eq_true, all_eq_true]
      refine and_congr (forall₂_congr fun piece _ => ih true piece) ?_
      cases endsRow with
      | true => grind [residue_eq_nil_iff]
      | false => simpa using ih false trailing

theorem rowText_sublist (row : Row) (left : Str) (hleft : rowText param row = some left) :
    left.Sublist (row.map (residue param)).flatten := by
  induction row generalizing left with
  | nil =>
    simp only [rowText, Option.some.injEq] at hleft
    simp [← hleft]
  | cons column cols ih =>
    rw [rowText_cons] at hleft
    exact append?_sublist (columnText_sublist param _ column) ih left hleft

theorem rowText_eq_residue_iff (row : Row) :
    rowText param row = some (row.map (residue param)).flatten ↔ rowKept param row = true := by
  induction row with
  | nil => simp [rowText, rowKept]
  | cons column cols ih =>
    rw [rowText_cons, map_cons, flatten_cons,
      append?_conserves_iff (columnText_sublist param _ column)
        (rowText_sublist param cols), ih, columnText_eq_residue_iff]
    cases cols <;> simp [rowKept]

variable (rowVec : List Row)

theorem residue_text :
    residue param (text rowVec) =
      (rowVec.map fun row => (row.map (residue param)).flatten).flatten := by
  have hmap : residue param = List.filter fun char => !param.contains char := rfl
  simp only [text, hmap, filter_flatten]
  rw [map_flatten, flatten_flatten, map_map, Function.comp_def]

/-- The filter returns, and its output is the input without the characters of
the parameter, exactly on the row vectors all of whose rows are kept. -/
theorem doFilter_conserves_iff (rowVec : List Row) (param : Str) :
    (∃ result, doFilter rowVec param = .ok result ∧
        text result = residue param (text rowVec)) ↔
      ∀ row ∈ rowVec, rowKept param row = true := by
  have hout : (∃ result, doFilter rowVec param = .ok result ∧
      text result = residue param (text rowVec)) ↔
        outText (doFilter rowVec param) = some (residue param (text rowVec)) := by
    cases doFilter rowVec param <;> simp [outText, Except.toOption]
  rw [hout, outText_doFilter, residue_text,
    join?_conserves_iff _ _ _ fun row _ left => rowText_sublist param row left]
  exact forall₂_congr fun row _ => rowText_eq_residue_iff param row

/-- The piece after the last delimiter of a row is lost. -/
theorem doFilter_loses_last_piece :
    doFilter [[lit "a,b"]] (lit ",") = .ok [[lit "a"]] ∧
      text [[lit "a"]] ≠ residue (lit ",") (text [[lit "a,b"]]) := by
  decide

/-! ## When the filter returns -/

/-- The columns on which no delimiter is applied to a piece it leaves nothing
of.  The piece pending at the end of a row is dropped before the delimiters to
come are applied to it. -/
def columnSafe : Str → Bool → Str → Bool
  | [], _, _ => true
  | delimiter :: rest, endsRow, column =>
    match pieces (· == delimiter) column with
    | [] => false
    | [piece] => columnSafe rest true piece
    | first :: others =>
      (first :: others).dropLast.all (columnSafe rest true) &&
        (endsRow || columnSafe rest false (others.getLastD []))

def rowSafe (param : Str) : Row → Bool
  | [] => true
  | [column] => columnSafe param true column
  | column :: next :: more => columnSafe param false column && rowSafe param (next :: more)

theorem isSome_columnText (col : Str) :
    (columnText param endsRow col).isSome = columnSafe param endsRow col := by
  induction param generalizing endsRow col with
  | nil => rfl
  | cons delimiter rest ih =>
    grind [columnText, columnSafe, split_eq_pieces, isSome_append?, isSome_join?]

theorem isSome_rowText (row : Row) : (rowText param row).isSome = rowSafe param row := by
  induction row with
  | nil => rfl
  | cons column cols ih =>
    rw [rowText_cons, isSome_append?, isSome_columnText, ih]
    cases cols <;> simp [rowSafe]

theorem finishes_splitRow (row : Row) : Finishes (splitRow param row) := by
  induction param generalizing row with
  | nil => exact finishes_pure _
  | cons uc rest ih =>
    rw [splitRow_cons]
    apply (finishes_carryLoop _ _ _ _).bind
    intro res
    rw [doFilter]
    split_ifs
    · exact finishes_pure _
    · exact finishes_appendVectors ih res

theorem finishes_doFilter (param : Str) : Finishes (doFilter rowVec param) := by
  rw [doFilter]
  split_ifs
  · exact finishes_pure _
  · exact finishes_appendVectors (finishes_splitRow param) rowVec

/-- `splitRet[0]` is read past the end exactly when some row is not safe. -/
theorem inBounds_doFilter_iff (param : Str) :
    InBounds (doFilter rowVec param) ↔ ∀ row ∈ rowVec, rowSafe param row = true := by
  have hout : (doFilter rowVec param).toOption.isSome =
      (outText (doFilter rowVec param)).isSome := by
    rw [outText, Option.isSome_map]
  rw [inBounds_iff_isSome (finishes_doFilter rowVec param), hout, outText_doFilter,
    isSome_join?, all_map, all_eq_true]
  simp only [Function.comp_apply, isSome_rowText]

end PurcFetcher.LineSplitFilter
