import PurcFetcher.Wtf.Text
import PurcFetcher.Wtf.Vector

/-!
# Rows and the loops shared by the splitting filters

`FilterBase.h` declares a row as a vector of columns, and every filter as a map
on vectors of rows.  All splitting filters append the rows they make of each
input row; three of them (`LineSplitFilter`, `LineWordsFilter` and
`LineSentencesFilter`) make those rows by one loop, which carries the last piece
of a column over to the row opened by the next column.
-/

namespace PurcFetcher.Filter

open Text PurcFetcher.Vector

/-- `typedef Vector<String> Row`. -/
abbrev Row := List Str

/-- `result.appendVector(splitRow(rowVec[i], param))` over all rows. -/
def appendVectors (splitRow : Row → Checked (List Row)) (rowVec : List Row) :
    Checked (List Row) := do
  let parts ← rowVec.mapM splitRow
  pure parts.flatten

/-- The column loop of `splitRowByUChar` and of the two `splitRow` functions
copied from it.  `lastRow` is what is pending when a column begins; what is
pending when the columns end is never appended. -/
def carryLoop (splitLine : Str → List Str) :
    List Str → List Row → Row → Checked (List Row)
  | [], rowVec, _ => pure rowVec
  | column :: columns, rowVec, lastRow => do
    let splitRet := splitLine column
    let first ← elementAt splitRet 0
    let opened := rowVec ++ [lastRow ++ [first]]
    if splitRet.length = 1 then carryLoop splitLine columns opened []
    else
      let last := splitRet.length - 1
      let middle ← (List.range' 1 (last - 1)).mapM (elementAt splitRet)
      let trailing ← elementAt splitRet last
      carryLoop splitLine columns (opened ++ middle.map fun piece => [piece]) [trailing]

section CarryLoop

variable {splitLine : Str → List Str} {column : Str} (columns : List Str)
variable (rowVec : List Row) (lastRow : Row)

/-- `splitRet[0]` is read before the number of pieces is looked at. -/
theorem carryLoop_cons_of_nil (hsplit : splitLine col = []) :
    carryLoop splitLine (col :: columns) rowVec lastRow = .error .outOfBounds := by
  rw [carryLoop, hsplit]
  rfl

theorem carryLoop_cons_of_single {piece : Str} (hsplit : splitLine col = [piece]) :
    carryLoop splitLine (col :: columns) rowVec lastRow =
      carryLoop splitLine columns (rowVec ++ [lastRow ++ [piece]]) [] := by
  rw [carryLoop, hsplit]
  rfl

/-- With two pieces or more the first closes the pending row, those between
become rows of their own, and the last one is pending. -/
theorem carryLoop_cons_of_many {first trailing : Str} {middle : List Str}
    (hsplit : splitLine col = first :: (middle ++ [trailing])) :
    carryLoop splitLine (col :: columns) rowVec lastRow = carryLoop splitLine columns
        (rowVec ++ [lastRow ++ [first]] ++ middle.map fun piece => [piece])
        [trailing] := by
  have hlen : (first :: (middle ++ [trailing])).length = middle.length + 2 := by simp
  have hmiddle := mapM_elementAt_range' (first :: (middle ++ [trailing])) 1
    middle.length (by rw [hlen]; omega)
  have hslice : (List.drop 1 (first :: (middle ++ [trailing]))).take middle.length =
      middle := by
    simp
  rw [hslice] at hmiddle
  have htrailing : elementAt (first :: (middle ++ [trailing])) (middle.length + 1) =
      .ok trailing := by
    rw [elementAt_eq_ok_iff]
    simp
  have hlast : (first :: (middle ++ [trailing])).length - 1 = middle.length + 1 := by omega
  have hsingle : ¬ (first :: (middle ++ [trailing])).length = 1 := by omega
  rw [carryLoop, hsplit]
  simp only [hlast, Nat.add_sub_cancel, hmiddle, htrailing, if_neg hsingle]
  rfl

end CarryLoop

theorem finishes_carryLoop (splitLine : Str → List Str) (cols : List Str)
    (rowVec : List Row) (lastRow : Row) :
    Finishes (carryLoop splitLine cols rowVec lastRow) := by
  induction cols generalizing rowVec lastRow with
  | nil => exact finishes_pure _
  | cons column cols ih =>
    apply (finishes_elementAt _ _).bind
    intro first
    split_ifs
    · exact ih _ _
    · apply (finishes_mapM _ (finishes_elementAt _)).bind
      intro middle
      apply (finishes_elementAt _ _).bind
      intro trailing
      exact ih _ _

theorem finishes_appendVectors {splitRow : Row → Checked (List Row)}
    (hfinishes : ∀ row, Finishes (splitRow row)) (rowVec : List Row) :
    Finishes (appendVectors splitRow rowVec) := by
  apply (finishes_mapM rowVec hfinishes).bind
  intro parts
  exact finishes_pure _

theorem inBounds_appendVectors_iff {splitRow : Row → Checked (List Row)}
    (hfinishes : ∀ row, Finishes (splitRow row)) (rowVec : List Row) :
    InBounds (appendVectors splitRow rowVec) ↔ ∀ row ∈ rowVec, InBounds (splitRow row) := by
  rw [appendVectors, inBounds_bind_iff, inBounds_mapM_iff rowVec hfinishes]
  exact and_iff_left fun parts _ => inBounds_pure _

/-- Every list of pieces is empty, a single piece, or a first and a trailing one
with others between them. -/
theorem pieces_cases (parts : List Str) :
    parts = [] ∨ (∃ piece, parts = [piece]) ∨
      ∃ first middle trailing, parts = first :: (middle ++ [trailing]) := by
  rcases parts with _ | ⟨first, others⟩
  · exact Or.inl rfl
  · rcases List.eq_nil_or_concat others with rfl | ⟨middle, trailing, rfl⟩
    · exact Or.inr (Or.inl ⟨first, rfl⟩)
    · exact Or.inr (Or.inr ⟨first, middle, trailing, by simp⟩)

end PurcFetcher.Filter
