import PurcFetcher.Filter.Base

/-!
# The cutting filters

Head, tail, ignore, pick and cut.  The line version of each works on the rows
and the column version on the columns of every row, with the same code for the
two except in `ignore`, whose column version keeps its start in a `size_t`.

Limits and positions are `int` values read from the parameter and handed to
vector calls as lengths and offsets.  For each filter the module states which
limits keep those calls inside the vector.
-/

namespace PurcFetcher.Cut

open Text PurcFetcher.Vector

variable {A : Type}

/-! ## Head and tail -/

/-- `LineHeadFilter::doFilter` and `ColumnHeadFilter::doFilterInner`. -/
def head (lines : List A) (param : Str) : Checked (List A) :=
  if lines.isEmpty || param.isEmpty then pure lines
  else
    match toInt param with
    | none => pure lines
    | some limit => if lines.length > limit then shrink lines (toSizeT limit) else pure lines

/-- `LineTailFilter::doFilter` and `ColumnTailFilter::doFilterInner`. -/
def tail (lines : List A) (param : Str) : Checked (List A) :=
  if lines.isEmpty || param.isEmpty then pure lines
  else
    match toInt param with
    | none => pure lines
    | some limit =>
      if lines.length < limit then pure lines
      else appendRange [] lines (lines.length - limit) (toSizeT limit)

/-! ## Ignore -/

/-- `paramVec[0]` and `paramVec[1]`, stripped, when there are two. -/
def twoFields (param : Str) : Option (Str × Str) :=
  match split param 0x2C with
  | first :: second :: _ => some (stripWhiteSpace first, stripWhiteSpace second)
  | _ => none

/-- The start of the ignored range: a number, or the last index for `$`. -/
def startOf (size : ℕ) (begin : Str) : Option ℤ :=
  match toInt begin with
  | some start => some start
  | none => if equalIgnoringASCIICase begin (lit "$") then some (size - 1) else none

/-- The start and the limit of an ignore parameter. -/
def ignoreParam (size : ℕ) (param : Str) : Option (ℤ × ℤ) :=
  match twoFields param with
  | none => none
  | some (begin, limitText) =>
    match toInt limitText with
    | none => none
    | some limit => (startOf size begin).map fun start => (start, limit)

/-- The two `append` calls of both versions. -/
def appendAround (lines : List A) (ignoreBegin ignoreSize : ℤ) : Checked (List A) := do
  let result ← appendRange [] lines 0 (toSizeT ignoreBegin)
  if wrap32 (ignoreBegin + ignoreSize) < lines.length then
    appendRange result lines (ignoreBegin + ignoreSize)
      (toSizeT (lines.length - ignoreBegin - ignoreSize))
  else pure result

/-- `ignoreBegin` of the line version. -/
def rangeBegin (start limit : ℤ) : ℤ :=
  if limit > 0 then start else wrap32 (wrap32 (start + limit) + 1)

/-- `LineIgnoreFilter::doFilter`. -/
def lineIgnore (lines : List A) (param : Str) : Checked (List A) :=
  if lines.isEmpty || param.isEmpty then pure lines
  else
    match ignoreParam lines.length param with
    | none => pure lines
    | some (start, limit) =>
      if limit = 0 then pure []
      else
        let ignoreBegin := rangeBegin start limit
        let ignoreSize := wrap32 |limit|
        if start > lines.length then pure lines
        else appendAround lines ignoreBegin ignoreSize

/-- `ColumnIgnoreFilter::doFilterInner`: `start` is a `size_t`, so a negative
number lies beyond every vector, and `ignoreBegin` is narrowed from a `size_t`. -/
def columnIgnore (lines : List A) (param : Str) : Checked (List A) :=
  if lines.isEmpty || param.isEmpty then pure lines
  else
    match ignoreParam lines.length param with
    | none => pure lines
    | some (parsed, limit) =>
      let start := toSizeT parsed
      if limit = 0 then pure []
      else
        let ignoreBegin := wrap32 (if limit > 0 then start else start + limit + 1)
        let ignoreSize := wrap32 |limit|
        if start > lines.length then pure lines
        else appendAround lines ignoreBegin ignoreSize

/-! ## Pick and cut -/

/-- `left` and `right` of a pick or cut parameter. -/
def progressionParam (param : Str) : Option (ℤ × ℤ) :=
  match twoFields param with
  | none => none
  | some (sleft, sright) =>
    match toInt sleft with
    | none => none
    | some left => (toInt sright).map fun right => (left, right)

/-- `n = left * i + right` in `int` arithmetic. -/
def progression (left right i : ℤ) : ℤ :=
  wrap32 (wrap32 (left * i) + right)

/-- The loop of pick, from round `i` on. -/
def pickLoop (lines : List A) (left right : ℤ) :
    ℕ → ℤ → List A → Checked (List A)
  | 0, _, _ => .error .outOfFuel
  | fuel + 1, i, result =>
    let n := progression left right i
    if n < lines.length then
      if n ≥ 0 then do
        let line ← elementAt lines (toSizeT n)
        pickLoop lines left right fuel (wrap32 (i + 1)) (result ++ [line])
      else pickLoop lines left right fuel (wrap32 (i + 1)) result
    else pure result

/-- `LinePickFilter::doFilter` and `ColumnPickFilter::doFilterInner`. -/
def pick (fuel : ℕ) (lines : List A) (param : Str) : Checked (List A) :=
  if lines.isEmpty || param.isEmpty then pure lines
  else
    match progressionParam param with
    | none => pure lines
    | some (left, right) => pickLoop lines left right fuel 0 []

/-- The first loop of cut, which collects the indices to leave out. -/
def indexLoop (size : ℕ) (left right : ℤ) : ℕ → ℤ → List ℤ → Checked (List ℤ)
  | 0, _, _ => .error .outOfFuel
  | fuel + 1, i, indexVec =>
    let n := progression left right i
    if n < size then
      if n ≥ 0 then indexLoop size left right fuel (wrap32 (i + 1)) (indexVec ++ [n])
      else indexLoop size left right fuel (wrap32 (i + 1)) indexVec
    else pure indexVec

/-- `LineCutFilter::doFilter` and `ColumnCutFilter::doFilterInner`. -/
def cut (fuel : ℕ) (lines : List A) (param : Str) : Checked (List A) :=
  if lines.isEmpty || param.isEmpty then pure lines
  else
    match progressionParam param with
    | none => pure lines
    | some (left, right) => do
      let indexVec ← indexLoop lines.length left right fuel 0 []
      let kept := (List.range lines.length).filter fun (i : ℕ) => !indexVec.contains (i : ℤ)
      kept.mapM (elementAt lines)

/-! ## Which limits stay inside -/

/-- Head and tail: the limit, if it is read at all, is not negative. -/
def limitSafe (lines : List A) (param : Str) : Bool :=
  lines.isEmpty || param.isEmpty ||
    match toInt param with
    | none => true
    | some limit => 0 ≤ limit

/-- Ignoring `limit` elements from `start` on, or up to `start` for a negative
limit, in a vector of `size` elements: the range begins inside and its end is an
`int`. -/
def ignoreSafe (size : ℕ) (start limit : ℤ) : Bool :=
  limit = 0 || size < start || (0 < limit && 0 ≤ start && start + limit < 2 ^ 31) ||
    (limit < 0 && 0 ≤ start + limit + 1)

def lineIgnoreSafe (lines : List A) (param : Str) : Bool :=
  lines.isEmpty || param.isEmpty ||
    match ignoreParam lines.length param with
    | none => true
    | some (start, limit) => ignoreSafe lines.length start limit

/-- The column version takes a negative start for one beyond the end. -/
def columnIgnoreSafe (lines : List A) (param : Str) : Bool :=
  lines.isEmpty || param.isEmpty ||
    match ignoreParam lines.length param with
    | none => true
    | some (start, limit) => start < 0 || ignoreSafe lines.length start limit

variable (lines : List A) (param : Str)

theorem inBounds_head_iff (hfits : Fits lines) :
    InBounds (head lines param) ↔ limitSafe lines param = true := by
  rw [Fits] at hfits
  rw [head, limitSafe]
  by_cases hempty : lines.isEmpty || param.isEmpty
  · simp [hempty]
  · rw [if_neg hempty, Bool.eq_false_of_not_eq_true hempty, Bool.false_or]
    cases hlimit : toInt param with
    | none => simp
    | some limit =>
      obtain ⟨hlower, hupper⟩ := toInt_bounds hlimit
      simp only [decide_eq_true_eq]
      by_cases hneg : limit < 0
      · grind [inBounds_shrink_iff, toSizeT_of_neg]
      · have hlen := toSizeT_of_nonneg (not_lt.1 hneg) (by omega)
        split_ifs with hsize
        · rw [inBounds_shrink_iff]
          omega
        · simpa using hneg

theorem inBounds_tail_iff : InBounds (tail lines param) ↔ limitSafe lines param = true := by
  rw [tail, limitSafe]
  by_cases hempty : lines.isEmpty || param.isEmpty
  · simp [hempty]
  · rw [if_neg hempty, Bool.eq_false_of_not_eq_true hempty, Bool.false_or]
    cases hlimit : toInt param with
    | none => simp
    | some limit =>
      obtain ⟨hlower, hupper⟩ := toInt_bounds hlimit
      simp only [decide_eq_true_eq]
      by_cases hneg : limit < 0
      · grind [inBounds_appendRange_iff, toSizeT_of_neg]
      · have hlen := toSizeT_of_nonneg (not_lt.1 hneg) (by omega)
        split_ifs with hsize
        · simpa using hneg
        · rw [inBounds_appendRange_iff]
          omega

theorem ignoreParam_bounds {size : ℕ} {param : Str} {start limit : ℤ}
    (hsize : 0 < size) (hfits : size < 2 ^ 29)
    (hparam : ignoreParam size param = some (start, limit)) :
    (-2 ^ 31 ≤ start ∧ start < 2 ^ 31) ∧ -2 ^ 31 ≤ limit ∧ limit < 2 ^ 31 := by
  rw [ignoreParam] at hparam
  split at hparam
  · cases hparam
  · rename_i begin limitText _
    split at hparam
    · cases hparam
    · rename_i value hvalue
      rw [Option.map_eq_some_iff] at hparam
      obtain ⟨parsed, hparsed, hpair⟩ := hparam
      cases hpair
      refine ⟨?_, toInt_bounds hvalue⟩
      rw [startOf] at hparsed
      split at hparsed
      · rename_i number hnumber
        cases hparsed
        exact toInt_bounds hnumber
      · split_ifs at hparsed
        cases hparsed
        omega

/-- The two calls stay inside when the range does; the length of the second is
computed only if the end of the range, as an `int`, is below the size. -/
theorem inBounds_appendAround_iff {ignoreBegin ignoreSize : ℤ} (hfits : Fits lines)
    (hbegin : -2 ^ 31 ≤ ignoreBegin ∧ ignoreBegin < 2 ^ 31)
    (hsize : -2 ^ 31 ≤ ignoreSize ∧ ignoreSize < 2 ^ 31) :
    InBounds (appendAround lines ignoreBegin ignoreSize) ↔
      (0 ≤ ignoreBegin ∧ ignoreBegin ≤ lines.length) ∧
        (wrap32 (ignoreBegin + ignoreSize) < lines.length →
          0 ≤ ignoreBegin + ignoreSize ∧
            ignoreBegin + ignoreSize ≤ lines.length) := by
  rw [Fits] at hfits
  have hfirst : InBounds (appendRange [] lines 0 (toSizeT ignoreBegin)) ↔
      0 ≤ ignoreBegin ∧ ignoreBegin ≤ lines.length := by
    rw [inBounds_appendRange_iff]
    by_cases hneg : ignoreBegin < 0
    · have hlen := toSizeT_of_neg hneg (by omega)
      omega
    · have hlen := toSizeT_of_nonneg (not_lt.1 hneg) (by omega)
      omega
  have hsecond : ∀ res, InBounds (appendRange res lines (ignoreBegin + ignoreSize)
      (toSizeT (lines.length - ignoreBegin - ignoreSize))) ↔
        0 ≤ ignoreBegin + ignoreSize ∧ ignoreBegin + ignoreSize ≤ lines.length := by
    intro res
    rw [inBounds_appendRange_iff]
    by_cases hneg : lines.length - ignoreBegin - ignoreSize < 0
    · have hlen := toSizeT_of_neg hneg (by omega)
      omega
    · have hlen := toSizeT_of_nonneg (not_lt.1 hneg) (by omega)
      omega
  rw [appendAround, inBounds_bind_iff, hfirst]
  apply and_congr_right
  intro hinside
  obtain ⟨res, hres⟩ := exists_ok (hfirst.2 hinside) (finishes_appendRange _ _ _ _)
  rw [hres]
  split_ifs with hend
  · simp only [Except.ok.injEq, forall_eq', hsecond, hend, true_imp_iff]
  · simp only [Except.ok.injEq, forall_eq', inBounds_pure, hend, false_imp_iff]

/-- The range of a start inside the vector.  Every wrap that `int` arithmetic can
make here takes the range out of the vector. -/
theorem inBounds_appendAround_rangeBegin_iff {start limit : ℤ} (hfits : Fits lines)
    (hstart : -2 ^ 31 ≤ start ∧ start < 2 ^ 31) (hlimit : -2 ^ 31 ≤ limit ∧ limit < 2 ^ 31)
    (hzero : limit ≠ 0) (hinside : start ≤ lines.length) :
    InBounds (appendAround lines (rangeBegin start limit) (wrap32 |limit|)) ↔
      ignoreSafe lines.length start limit = true := by
  have hbegin : -2 ^ 31 ≤ rangeBegin start limit ∧ rangeBegin start limit < 2 ^ 31 := by
    rw [rangeBegin]
    split_ifs
    · exact hstart
    · exact wrap32_bounds _
  have hsize := wrap32_bounds |limit|
  obtain ⟨sizeTurns, hsizeTurns⟩ := wrap32_eq_sub |limit|
  rw [inBounds_appendAround_iff lines hfits hbegin hsize]
  simp only [ignoreSafe, Bool.or_eq_true, Bool.and_eq_true, decide_eq_true_eq]
  rw [Fits] at hfits
  have hend := wrap32_bounds (rangeBegin start limit + wrap32 |limit|)
  obtain ⟨endTurns, hendTurns⟩ := wrap32_eq_sub (rangeBegin start limit + wrap32 |limit|)
  by_cases hsign : limit > 0
  · rw [rangeBegin, if_pos hsign] at *
    rw [abs_of_pos hsign] at *
    omega
  · rw [rangeBegin, if_neg hsign] at *
    rw [abs_of_neg (by omega)] at *
    obtain ⟨firstTurns, hfirst⟩ := wrap32_eq_sub (start + limit)
    obtain ⟨secondTurns, hsecond⟩ := wrap32_eq_sub (wrap32 (start + limit) + 1)
    omega

/-- The line version: a negative start is never inside. -/
theorem inBounds_lineIgnore_iff (hfits : Fits lines) :
    InBounds (lineIgnore lines param) ↔ lineIgnoreSafe lines param = true := by
  rw [lineIgnore, lineIgnoreSafe]
  by_cases hempty : lines.isEmpty || param.isEmpty
  · simp [hempty]
  · rw [if_neg hempty, Bool.eq_false_of_not_eq_true hempty, Bool.false_or]
    cases hparam : ignoreParam lines.length param with
    | none => simp
    | some parsed =>
      obtain ⟨start, limit⟩ := parsed
      have hlen : 0 < lines.length := by
        cases lines with
        | nil => simp at hempty
        | cons => simp
      obtain ⟨hstart, hlimit⟩ := ignoreParam_bounds hlen hfits hparam
      by_cases hzero : limit = 0
      · simp [hzero, ignoreSafe]
      · by_cases hbeyond : start > lines.length
        · simp [hzero, hbeyond, ignoreSafe]
        · grind [inBounds_appendAround_rangeBegin_iff]

section ColumnStart

variable {lines : List A} {param : Str} {start limit : ℤ}

theorem columnIgnore_of_neg (hfits : Fits lines)
    (hparam : ignoreParam lines.length param = some (start, limit)) (hzero : limit ≠ 0)
    (hneg : start < 0) : columnIgnore lines param = pure lines := by
  rw [columnIgnore]
  split_ifs with hempty
  · rfl
  · have hlen : 0 < lines.length := by
      cases lines with
      | nil => simp at hempty
      | cons => simp
    obtain ⟨hstart, -⟩ := ignoreParam_bounds hlen hfits hparam
    have hlarge := toSizeT_of_neg hneg (by omega)
    have hbeyond : toSizeT start > lines.length := by
      rw [Fits] at hfits
      omega
    simp [hparam, hzero, hbeyond]

/-- From any other start the column version computes what the line version does. -/
theorem columnIgnore_of_nonneg (hfits : Fits lines)
    (hparam : ignoreParam lines.length param = some (start, limit)) (hnonneg : 0 ≤ start) :
    columnIgnore lines param = lineIgnore lines param := by
  rw [columnIgnore, lineIgnore]
  split_ifs with hempty
  · rfl
  · have hlen : 0 < lines.length := by
      cases lines with
      | nil => simp at hempty
      | cons => simp
    obtain ⟨hstart, hlimit⟩ := ignoreParam_bounds hlen hfits hparam
    have hstartNat := toSizeT_of_nonneg hnonneg (by omega)
    have hbegin : wrap32 (if limit > 0 then (toSizeT start : ℤ)
        else toSizeT start + limit + 1) = rangeBegin start limit := by
      rw [hstartNat, rangeBegin]
      split_ifs with hsign
      · exact wrap32_of_bounds hstart.1 hstart.2
      · grind [wrap32_of_bounds]
    have hbeyond : toSizeT start > lines.length ↔ start > lines.length := by omega
    simp only [hparam, hbegin, hbeyond]

end ColumnStart

theorem inBounds_columnIgnore_iff (hfits : Fits lines) :
    InBounds (columnIgnore lines param) ↔ columnIgnoreSafe lines param = true := by
  by_cases hempty : lines.isEmpty || param.isEmpty
  · simp [columnIgnore, columnIgnoreSafe, hempty]
  · cases hparam : ignoreParam lines.length param with
    | none => simp [columnIgnore, columnIgnoreSafe, hparam]
    | some parsed =>
      obtain ⟨start, limit⟩ := parsed
      by_cases hneg : start < 0
      · by_cases hzero : limit = 0
        · simp [columnIgnore, columnIgnoreSafe, hempty, hparam, hneg, hzero]
        · rw [columnIgnore_of_neg hfits hparam hzero hneg]
          simp [columnIgnoreSafe, hparam, hneg]
      · grind [lineIgnoreSafe, columnIgnoreSafe, columnIgnore_of_nonneg, inBounds_lineIgnore_iff]

theorem inBounds_pickLoop (left right : ℤ) (fuel : ℕ) (i : ℤ) (res : List A) :
    InBounds (pickLoop lines left right fuel i res) := by
  induction fuel generalizing i res with
  | zero =>
    intro hstop
    cases hstop
  | succ fuel ih =>
    rw [pickLoop]
    split_ifs with hbelow hnonneg
    · have hbounds := wrap32_bounds (wrap32 (left * i) + right)
      rw [← progression] at hbounds
      have hidx := toSizeT_of_nonneg hnonneg (by omega)
      rw [inBounds_bind_iff, inBounds_elementAt_iff]
      exact ⟨by omega, fun line _ => ih _ _⟩
    · exact ih _ _
    · exact inBounds_pure _

theorem inBounds_pick (fuel : ℕ) (lines : List A) (param : Str) :
    InBounds (pick fuel lines param) := by
  rw [pick]
  split_ifs
  · exact inBounds_pure _
  · split
    · exact inBounds_pure _
    · exact inBounds_pickLoop _ _ _ _ _ _

theorem inBounds_indexLoop (size : ℕ) (left right : ℤ) (fuel : ℕ) (i : ℤ)
    (idxVec : List ℤ) : InBounds (indexLoop size left right fuel i idxVec) := by
  induction fuel generalizing i idxVec with
  | zero =>
    intro hstop
    cases hstop
  | succ fuel ih => grind [indexLoop, inBounds_pure]

theorem inBounds_cut (fuel : ℕ) (lines : List A) (param : Str) :
    InBounds (cut fuel lines param) := by
  rw [cut]
  split_ifs
  · exact inBounds_pure _
  · split
    · exact inBounds_pure _
    · rw [inBounds_bind_iff]
      refine ⟨inBounds_indexLoop _ _ _ _ _ _, fun idxVec _ => ?_⟩
      apply inBounds_mapM
      intro idx hidx
      rw [inBounds_elementAt_iff]
      exact List.mem_range.1 (List.mem_of_mem_filter hidx)

/-! ## Head, tail and ignore have no loop to cut off -/

theorem finishes_head : Finishes (head lines param) := by
  rw [head]
  split_ifs
  · exact finishes_pure _
  · grind [Finishes, shrink, finishes_pure]

theorem finishes_tail : Finishes (tail lines param) := by
  grind [tail, finishes_pure, finishes_appendRange]

theorem finishes_appendAround (ignoreBegin ignoreSize : ℤ) :
    Finishes (appendAround lines ignoreBegin ignoreSize) := by
  apply (finishes_appendRange _ _ _ _).bind
  intro res
  split_ifs
  · exact finishes_appendRange _ _ _ _
  · exact finishes_pure _

theorem finishes_columnIgnore : Finishes (columnIgnore lines param) := by
  grind [columnIgnore, finishes_pure, finishes_appendAround]

end PurcFetcher.Cut
