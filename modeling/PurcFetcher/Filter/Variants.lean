import PurcFetcher.Filter.Manager

/-!
# Line and column versions

Head, tail, pick, cut and ignore exist for lines and for columns.  A column filter on one row of
columns is compared with the line filter on as many rows of one column.  The shared bodies never
look at the elements, so they commute with a map of the elements, and the versions agree.
Ignore has two bodies: with a negative start the line version leaves the vector and the column
version returns the columns as they are.
-/

namespace PurcFetcher.Variants

open CmdFilterManager Cut PurcFetcher.Filter Text TextSplit PurcFetcher.Vector

variable {A B : Type} (image : A → B)

/-! ## Vector calls under a map of the elements -/

theorem elementAt_map (values : List A) (idx : ℕ) :
    elementAt (values.map image) idx = (elementAt values idx).map image := by
  rw [elementAt, elementAt, List.getElem?_map]
  cases values[idx]? with
  | none => rfl
  | some => rfl

theorem mapM_elementAt_map (values : List A) (indices : List ℕ) :
    indices.mapM (elementAt (values.map image)) =
      (indices.mapM (elementAt values)).map (List.map image) := by
  induction indices with
  | nil => rfl
  | cons head tail ih =>
    rw [List.mapM_cons, List.mapM_cons, elementAt_map, ih]
    cases elementAt values head with
    | error => rfl
    | ok =>
      cases tail.mapM (elementAt values) with
      | error => rfl
      | ok => rfl

theorem appendRange_map (res values : List A) (offset : ℤ) (len : ℕ) :
    appendRange (res.map image) (values.map image) offset len =
      (appendRange res values offset len).map (List.map image) := by
  rw [appendRange, appendRange, List.length_map]
  split
  · refine congrArg Except.ok ?_
    rw [List.map_append, List.map_take, List.map_drop]
  · rfl

/-! ## The filters under a map of the elements -/

variable (lines : List A) (param : Str)

theorem head_map : head (lines.map image) param = (head lines param).map (List.map image) := by
  rw [head, head, List.isEmpty_map, List.length_map]
  split
  · rfl
  · split
    · rfl
    · split
      · rw [shrink, shrink, List.length_map]
        split
        · exact congrArg Except.ok List.map_take.symm
        · rfl
      · rfl

theorem tail_map : tail (lines.map image) param = (tail lines param).map (List.map image) := by
  rw [tail, tail, List.isEmpty_map, List.length_map]
  split
  · rfl
  · split
    · rfl
    · split
      · rfl
      · exact appendRange_map image [] lines _ _

theorem pickLoop_map (left right : ℤ) (fuel : ℕ) (i : ℤ) (res : List A) :
    pickLoop (lines.map image) left right fuel i (res.map image) =
      (pickLoop lines left right fuel i res).map (List.map image) := by
  induction fuel generalizing i res with
  | zero => rfl
  | succ fuel ih =>
    rw [pickLoop, pickLoop, List.length_map]
    split
    · split
      · rw [elementAt_map]
        cases elementAt lines (toSizeT (progression left right i)) with
        | error => rfl
        | ok line =>
          refine Eq.trans ?_ (ih (wrap32 (i + 1)) (res ++ [line]))
          rw [List.map_append]
          rfl
      · exact ih (wrap32 (i + 1)) res
    · rfl

theorem pick_map (fuel : ℕ) (lines : List A) (param : Str) :
    pick fuel (lines.map image) param = (pick fuel lines param).map (List.map image) := by
  rw [pick, pick, List.isEmpty_map]
  split
  · rfl
  · split
    · rfl
    · exact pickLoop_map image lines _ _ fuel 0 []

theorem cut_map (fuel : ℕ) (lines : List A) (param : Str) :
    cut fuel (lines.map image) param = (cut fuel lines param).map (List.map image) := by
  rw [cut, cut, List.isEmpty_map, List.length_map]
  split
  · rfl
  · split
    · rfl
    · next left right _ =>
      cases indexLoop lines.length left right fuel 0 [] with
      | error => rfl
      | ok => exact mapM_elementAt_map image lines _

theorem appendAround_map (ignoreBegin ignoreSize : ℤ) :
    appendAround (lines.map image) ignoreBegin ignoreSize =
      (appendAround lines ignoreBegin ignoreSize).map (List.map image) := by
  have hfirst := appendRange_map image [] lines 0 (toSizeT ignoreBegin)
  rw [List.map_nil] at hfirst
  rw [appendAround, appendAround, hfirst, List.length_map]
  cases appendRange [] lines 0 (toSizeT ignoreBegin) with
  | error => rfl
  | ok res =>
    change (if wrap32 (ignoreBegin + ignoreSize) < lines.length then _ else _) =
      Except.map (List.map image)
        (if wrap32 (ignoreBegin + ignoreSize) < lines.length then _ else _)
    split
    · exact appendRange_map image res lines _ _
    · rfl

theorem lineIgnore_map :
    lineIgnore (lines.map image) param = (lineIgnore lines param).map (List.map image) := by
  rw [lineIgnore, lineIgnore, List.isEmpty_map, List.length_map]
  split
  · rfl
  · split
    · rfl
    · dsimp only
      split
      · rfl
      · split
        · rfl
        · exact appendAround_map image lines _ _

/-! ## The two bodies of ignore -/

/-- No start is read, or the count is zero, or the start is not negative. -/
def ignoreStartNonneg (lines : List A) (param : Str) : Bool :=
  lines.isEmpty || param.isEmpty ||
    match ignoreParam lines.length param with
    | none => true
    | some (start, limit) => limit = 0 || 0 ≤ start

theorem columnIgnore_eq_lineIgnore_iff (hfits : Fits lines) :
    columnIgnore lines param = lineIgnore lines param ↔ ignoreStartNonneg lines param = true := by
  by_cases hempty : lines.isEmpty || param.isEmpty
  · simp [columnIgnore, lineIgnore, ignoreStartNonneg, hempty]
  · cases hparam : ignoreParam lines.length param with
    | none => simp [columnIgnore, lineIgnore, ignoreStartNonneg, hparam]
    | some parsed =>
      obtain ⟨start, limit⟩ := parsed
      by_cases hzero : limit = 0
      · simp [columnIgnore, lineIgnore, ignoreStartNonneg, hparam, hzero]
      · by_cases hneg : start < 0
        · have hleaves : ¬ InBounds (lineIgnore lines param) := by
            rw [inBounds_lineIgnore_iff lines param hfits, lineIgnoreSafe, hparam]
            rw [Bool.eq_false_of_not_eq_true hempty, Bool.false_or]
            simp only [ignoreSafe, Bool.or_eq_true, Bool.and_eq_true, decide_eq_true_eq]
            omega
          refine iff_of_false (fun hsame => hleaves ?_) ?_
          · rw [← hsame, columnIgnore_of_neg hfits hparam hzero hneg]
            exact inBounds_pure lines
          · simp [ignoreStartNonneg, hempty, hparam, hzero, hneg]
        · refine iff_of_true (columnIgnore_of_nonneg hfits hparam (not_lt.1 hneg)) ?_
          simp [ignoreStartNonneg, hparam, not_lt.1 hneg]

/-! ## Agreement -/

/-- The filters that exist in both versions. -/
inductive Cutting
  | head
  | tail
  | pick
  | cut
  | ignore
  deriving DecidableEq, Repr

namespace Cutting

def lineKind : Cutting → FilterKind
  | head => .lineHead
  | tail => .lineTail
  | pick => .linePick
  | cut => .lineCut
  | ignore => .lineIgnore

def columnKind : Cutting → FilterKind
  | head => .columnHead
  | tail => .columnTail
  | pick => .columnPick
  | cut => .columnCut
  | ignore => .columnIgnore

end Cutting

/-- The column filter on one row of columns gives the row that the line filter leaves of as many
rows of one column.  Where one of them fails, the other fails in the same way. -/
def Agree (unicharType : Char → GUnicodeType) (fuel : ℕ) (filter : Cutting)
    (columns : List Str) (param : Str) : Prop :=
  filter.columnKind.doFilter unicharType fuel [columns] param =
    (filter.lineKind.doFilter unicharType fuel (columns.map ([·])) param).map
      fun rows => [rows.flatten]

theorem mapM_singleton_eq (run : Row → Checked Row) (row : Row) :
    [row].mapM run = (run row).map ([·]) := by
  rw [List.mapM_cons]
  cases run row with
  | error => rfl
  | ok => rfl

end PurcFetcher.Variants
