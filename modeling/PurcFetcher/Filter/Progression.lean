import PurcFetcher.Filter.Manager

/-!
# The loops of pick and cut

Pick and cut visit the terms of the progression `left * i + right` until one is not below the
number of elements.  The terms are `int` values, and a product or a sum that does not fit has no
meaning in C++.  The loop is taken here with every operation checked.  Where no check fails, it
is the loop of the filters, and it visits the indices that are congruent to `right` modulo
`left` and not below `right`.
-/

namespace PurcFetcher.Progression

open CmdFilterManager List Cut PurcFetcher.Filter Text TextSplit PurcFetcher.Vector

variable {A R : Type}

/-! ## The checked loop -/

/-- Why a loop over `int` values has no result. -/
inductive Fault
  | overflow
  | outOfFuel
  deriving DecidableEq, Repr

def IsInt (value : ℤ) : Prop := -2 ^ 31 ≤ value ∧ value < 2 ^ 31

instance (value : ℤ) : Decidable (IsInt value) := inferInstanceAs (Decidable (_ ∧ _))

/-- The result of an `int` operation. -/
def checked (value : ℤ) : Except Fault ℤ :=
  if IsInt value then .ok value else .error .overflow

/-- `left * i + right`. -/
def checkedTerm (left right i : ℤ) : Except Fault ℤ := do
  let product ← checked (left * i)
  checked (product + right)

/-- The loop, from round `i` on.  `body` is what a round does with a term that is an index. -/
def checkedLoop (size : ℕ) (left right : ℤ) (body : R → ℤ → R) :
    ℕ → ℤ → R → Except Fault R
  | 0, _, _ => .error .outOfFuel
  | fuel + 1, i, result => do
    let n ← checkedTerm left right i
    if n < size then
      let next ← checked (i + 1)
      checkedLoop size left right body fuel next (if n ≥ 0 then body result n else result)
    else pure result

/-- What both filters do around the loop: the early exits on their arguments before it and
`finish` after it. -/
def checkedFilter (body : R → ℤ → R) (start : R) (finish : R → List A) (fuel : ℕ)
    (lines : List A) (param : Str) : Except Fault (List A) :=
  if lines.isEmpty || param.isEmpty then pure lines
  else
    match progressionParam param with
    | none => pure lines
    | some (left, right) => do
      let reached ← checkedLoop lines.length left right body fuel 0 start
      pure (finish reached)

/-- `LinePickFilter::doFilter` and `ColumnPickFilter::doFilterInner`. -/
def checkedPick (fuel : ℕ) (lines : List A) (param : Str) : Except Fault (List A) :=
  checkedFilter (fun result n => result ++ lines[n.toNat]?.toList) [] id fuel lines param

/-- `LineCutFilter::doFilter` and `ColumnCutFilter::doFilterInner`. -/
def checkedCut (fuel : ℕ) (lines : List A) (param : Str) : Except Fault (List A) :=
  checkedFilter (fun indexVec n => indexVec ++ [n]) []
    (fun indexVec : List ℤ =>
      ((List.range lines.length).filter fun i : ℕ => !indexVec.contains (i : ℤ)).flatMap
        fun i => lines[i]?.toList)
    fuel lines param

/-- The filters with such a loop. -/
inductive ProgressionFilter
  | linePick
  | lineCut
  | columnPick
  | columnCut
  deriving DecidableEq, Repr

namespace ProgressionFilter

def doFilter (fuel : ℕ) : ProgressionFilter → List Row → Str → Except Fault (List Row)
  | linePick, rowVec, param => checkedPick fuel rowVec param
  | lineCut, rowVec, param => checkedCut fuel rowVec param
  | columnPick, rowVec, param => rowVec.mapM fun row => checkedPick fuel row param
  | columnCut, rowVec, param => rowVec.mapM fun row => checkedCut fuel row param

/-- All loops of the filter end, and no operation of them overflows. -/
def Terminates (filter : ProgressionFilter) (rowVec : List Row) (param : Str) : Prop :=
  ∃ fuel result, filter.doFilter fuel rowVec param = .ok result

end ProgressionFilter

/-! ## The rounds of the loop -/

/-- The loop that is in round `first` leaves in round `rounds`, and no operation of it
overflows. -/
structure Stops (size : ℕ) (left right : ℤ) (first rounds : ℕ) : Prop where
  le : first ≤ rounds
  below : ∀ i : ℕ, first ≤ i → i < rounds → left * i + right < size
  reached : size ≤ left * rounds + right
  product : ∀ i : ℕ, first ≤ i → i ≤ rounds → IsInt (left * i)
  sum : ∀ i : ℕ, first ≤ i → i ≤ rounds → IsInt (left * i + right)
  counter : ∀ i : ℕ, first < i → i ≤ rounds → IsInt i

/-- The indices that are visited from round `first` on. -/
def visited (left right : ℤ) (first rounds : ℕ) : List ℤ :=
  ((List.range' first (rounds - first)).map fun i : ℕ => left * i + right).filter (0 ≤ ·)

theorem checked_of_isInt {val : ℤ} (hint : IsInt val) : checked val = .ok val := if_pos hint

theorem isInt_of_checked {val res : ℤ} (hok : checked val = .ok res) : IsInt val ∧ val = res := by
  grind [checked]

theorem checkedTerm_of_isInt {left right i : ℤ} (hproduct : IsInt (left * i))
    (hsum : IsInt (left * i + right)) :
    checkedTerm left right i = .ok (left * i + right) := by
  rw [checkedTerm, checked_of_isInt hproduct]
  exact checked_of_isInt hsum

theorem isInt_of_checkedTerm {left right i n : ℤ} (hok : checkedTerm left right i = .ok n) :
    IsInt (left * i) ∧ IsInt (left * i + right) ∧ left * i + right = n := by
  obtain ⟨product, hproduct, hsum⟩ := bind_eq_ok_iff.1 hok
  obtain ⟨hint, rfl⟩ := isInt_of_checked hproduct
  exact ⟨hint, isInt_of_checked hsum⟩

section Rounds

variable {size : ℕ} {left right : ℤ} {first rounds : ℕ}

theorem Stops.here (hreached : size ≤ left * first + right) (hproduct : IsInt (left * first))
    (hsum : IsInt (left * first + right)) : Stops size left right first first where
  le := le_rfl
  below _ hfirst hlt := absurd hlt (not_lt.2 hfirst)
  reached := hreached
  product _ hfirst hle := le_antisymm hfirst hle ▸ hproduct
  sum _ hfirst hle := le_antisymm hfirst hle ▸ hsum
  counter _ hfirst hle := absurd hfirst (not_lt.2 hle)

/-- A round that is not the last one. -/
theorem Stops.round (hstops : Stops size left right (first + 1) rounds)
    (hbelow : left * first + right < size) (hproduct : IsInt (left * first))
    (hsum : IsInt (left * first + right)) (hcounter : IsInt (first + 1 : ℕ)) :
    Stops size left right first rounds where
  le := (Nat.le_succ first).trans hstops.le
  below i hfirst hlt := by
    rcases hfirst.eq_or_lt with rfl | hlater
    · exact hbelow
    · exact hstops.below i hlater hlt
  reached := hstops.reached
  product i hfirst hle := by
    rcases hfirst.eq_or_lt with rfl | hlater
    · exact hproduct
    · exact hstops.product i hlater hle
  sum i hfirst hle := by
    rcases hfirst.eq_or_lt with rfl | hlater
    · exact hsum
    · exact hstops.sum i hlater hle
  counter i hfirst hle := by
    rcases (Nat.succ_le_of_lt hfirst).eq_or_lt with rfl | hlater
    · exact hcounter
    · exact hstops.counter i hlater hle

theorem Stops.next (hstops : Stops size left right first rounds)
    (hbelow : left * first + right < size) : Stops size left right (first + 1) rounds where
  le := by
    refine Nat.succ_le_of_lt (hstops.le.lt_of_ne fun heq => ?_)
    subst heq
    exact absurd hstops.reached (not_le.2 hbelow)
  below i hfirst := hstops.below i (Nat.le_of_succ_le hfirst)
  reached := hstops.reached
  product i hfirst := hstops.product i (Nat.le_of_succ_le hfirst)
  sum i hfirst := hstops.sum i (Nat.le_of_succ_le hfirst)
  counter i hfirst := hstops.counter i (Nat.lt_of_succ_lt hfirst)

theorem visited_self (left right : ℤ) (first : ℕ) : visited left right first first = [] := by
  rw [visited, Nat.sub_self]
  rfl

theorem visited_of_lt (left right : ℤ) (hlt : first < rounds) :
    visited left right first rounds =
      (if 0 ≤ left * first + right then [left * first + right] else []) ++
        visited left right (first + 1) rounds := by
  have hrounds : rounds - first = rounds - (first + 1) + 1 := by omega
  rw [visited, hrounds, range'_succ, map_cons, filter_cons, visited]
  by_cases hnonneg : 0 ≤ left * first + right
  · rw [if_pos (decide_eq_true hnonneg), if_pos hnonneg]
    rfl
  · rw [if_neg fun htrue => hnonneg (of_decide_eq_true htrue), if_neg hnonneg]
    rfl

/-- The loop returns if and only if it leaves in some round without an overflow, and then its
result is what the visited indices lead to. -/
theorem checkedLoop_eq_ok_iff (body : R → ℤ → R) (fuel first : ℕ) (start res : R) :
    checkedLoop size left right body fuel first start = .ok res ↔
      ∃ rounds, rounds < first + fuel ∧ Stops size left right first rounds ∧
        (visited left right first rounds).foldl body start = res := by
  induction fuel generalizing first start with
  | zero =>
    refine iff_of_false (fun hok => by cases hok) ?_
    rintro ⟨rounds, hfuel, hstops, -⟩
    exact absurd hstops.le (not_le.2 hfuel)
  | succ fuel ih =>
    have hbody : ∀ n : ℤ, (if n ≥ 0 then body start n else start) =
        (if 0 ≤ n then [n] else []).foldl body start := by
      intro n
      split
      · rfl
      · rfl
    rw [checkedLoop]
    constructor
    · intro hok
      obtain ⟨n, hterm, hrest⟩ := bind_eq_ok_iff.1 hok
      obtain ⟨hproduct, hsum, rfl⟩ := isInt_of_checkedTerm hterm
      split at hrest
      · next hbelow =>
        obtain ⟨next, hnext, hloop⟩ := bind_eq_ok_iff.1 hrest
        obtain ⟨hcounter, rfl⟩ := isInt_of_checked hnext
        obtain ⟨rounds, hfuel, hstops, hres⟩ := (ih (first + 1) _).1 hloop
        refine ⟨rounds, by omega, hstops.round hbelow hproduct hsum hcounter, ?_⟩
        rw [visited_of_lt left right hstops.le, foldl_append, ← hbody]
        exact hres
      · next hreached =>
        refine ⟨first, by omega, .here (not_lt.1 hreached) hproduct hsum, ?_⟩
        rw [visited_self]
        exact Except.ok.inj hrest
    · rintro ⟨rounds, hfuel, hstops, hres⟩
      rw [checkedTerm_of_isInt (hstops.product first le_rfl hstops.le)
        (hstops.sum first le_rfl hstops.le)]
      change (if left * first + right < size then _ else _) = _
      by_cases hbelow : left * first + right < size
      · have hnext := hstops.next hbelow
        have hcounter : checked (first + 1 : ℤ) = .ok ((first + 1 : ℕ) : ℤ) :=
          checked_of_isInt (hstops.counter (first + 1) (Nat.lt_succ_self first) hnext.le)
        rw [if_pos hbelow, hcounter]
        refine (ih (first + 1) _).2 ⟨rounds, by omega, hnext, ?_⟩
        rw [hbody, ← foldl_append, ← visited_of_lt left right hnext.le]
        exact hres
      · have hrounds : rounds = first := by
          by_contra hne
          exact hbelow (hstops.below first le_rfl (by have := hstops.le; omega))
        subst hrounds
        rw [visited_self] at hres
        rw [if_neg hbelow]
        exact congrArg Except.ok hres

end Rounds

/-! ## When the loop stops -/

/-- The first term from `right` on that is not below `size`, for a positive `left`. -/
def firstBeyond (size : ℕ) (left right : ℤ) : ℤ := size + (right - size) % left

/-- There is no round at all, or the terms grow and the first one beyond the elements is still
an `int`, as is the product it comes from. -/
def LoopSafe (size : ℕ) (left right : ℤ) : Prop :=
  size ≤ right ∨
    0 < left ∧ IsInt (firstBeyond size left right - right) ∧ IsInt (firstBeyond size left right)

instance (size : ℕ) (left right : ℤ) : Decidable (LoopSafe size left right) :=
  inferInstanceAs (Decidable (_ ∨ _ ∧ _ ∧ _))

theorem exists_round_firstBeyond {size : ℕ} {left right : ℤ} (hleft : 0 < left)
    (hright : right < size) :
    ∃ round : ℕ, firstBeyond size left right = left * round + right := by
  have hsplit := Int.mul_ediv_add_emod (right - size) left
  have hquotient : (right - size) / left ≤ 0 := Int.ediv_nonpos_of_nonpos_of_neg (by omega) hleft
  refine ⟨(-((right - size) / left)).toNat, ?_⟩
  rw [Int.toNat_of_nonneg (by omega), firstBeyond, mul_neg]
  omega

theorem Stops.left_pos {size rounds : ℕ} {left right : ℤ}
    (hstops : Stops size left right 0 rounds) (hbelow : right < size) : 0 < left := by
  have hreached := hstops.reached
  by_contra hneg
  have hproduct := mul_nonpos_of_nonpos_of_nonneg (not_lt.1 hneg) (Int.natCast_nonneg rounds)
  omega

/-- The loop leaves at the first term beyond the elements if it gets there. -/
theorem exists_stops_of_firstBeyond {size : ℕ} {left right : ℤ} (hright : IsInt right)
    (hbelow : right < size) (hleft : 0 < left)
    (hproduct : IsInt (firstBeyond size left right - right))
    (hsum : IsInt (firstBeyond size left right)) :
    ∃ rounds, Stops size left right 0 rounds := by
  obtain ⟨round, hround⟩ := exists_round_firstBeyond hleft hbelow
  have hmod := Int.emod_lt_of_pos (right - size) hleft
  have hmodNonneg := Int.emod_nonneg (right - size) hleft.ne'
  rw [hround, add_sub_cancel_right] at hproduct
  rw [hround] at hsum
  rw [firstBeyond] at hround
  have hgrows : ∀ {i j : ℕ}, i ≤ j → left * (i : ℤ) ≤ left * j := by
    intro i j hle
    exact mul_le_mul_of_nonneg_left (by omega) hleft.le
  have hnonneg : ∀ i : ℕ, 0 ≤ left * (i : ℤ) := by
    intro i
    exact mul_nonneg hleft.le (Int.natCast_nonneg i)
  rw [IsInt] at hproduct hsum hright
  refine ⟨round, Nat.zero_le round, fun i _ hlt => ?_, by omega, fun i _ hle => ?_,
    fun i _ hle => ?_, fun i _ hle => ?_⟩
  · grind
  · have hstep := hgrows hle
    have hterm := hnonneg i
    rw [IsInt]
    omega
  · have hstep := hgrows hle
    have hterm := hnonneg i
    rw [IsInt]
    omega
  · have hstep : (i : ℤ) ≤ left * round :=
      (le_mul_of_one_le_left (Int.natCast_nonneg i) hleft).trans (hgrows hle)
    rw [IsInt]
    omega

theorem stops_iff {size : ℕ} {left right : ℤ} (hright : IsInt right) :
    (∃ rounds, Stops size left right 0 rounds) ↔ LoopSafe size left right := by
  by_cases hbeyond : size ≤ right
  · have hzero : left * (0 : ℕ) = 0 := by simp
    refine iff_of_true ⟨0, .here ?_ ?_ ?_⟩ (Or.inl hbeyond)
    · rwa [hzero, zero_add]
    · rw [hzero]
      decide
    · rwa [hzero, zero_add]
  · rw [not_le] at hbeyond
    refine Iff.trans ?_ (or_iff_right (not_le.2 hbeyond)).symm
    constructor
    · rintro ⟨rounds, hstops⟩
      have hreached := hstops.reached
      have hleft := hstops.left_pos hbeyond
      obtain ⟨round, hround⟩ := exists_round_firstBeyond hleft hbeyond
      have hmod := Int.emod_lt_of_pos (right - size) hleft
      have hle : round ≤ rounds := by
        by_contra hlt
        have hearlier : left * (rounds + 1 : ℤ) ≤ left * round :=
          mul_le_mul_of_nonneg_left (by omega) hleft.le
        rw [mul_add, mul_one] at hearlier
        rw [firstBeyond] at hround
        omega
      rw [hround, add_sub_cancel_right]
      exact ⟨hleft, hstops.product round (Nat.zero_le round) hle,
        hstops.sum round (Nat.zero_le round) hle⟩
    · rintro ⟨hleft, hproduct, hsum⟩
      exact exists_stops_of_firstBeyond hright hbeyond hleft hproduct hsum

/-! ## The filters of a parameter that parses -/

section Parameter

variable {param : Str} {left right : ℤ}

section

variable (hparam : progressionParam param = some (left, right))
include hparam

theorem isInt_of_progressionParam :
    IsInt right := by
  rw [progressionParam] at hparam
  split at hparam
  · cases hparam
  · split at hparam
    · cases hparam
    · obtain ⟨val, hval, hpair⟩ := Option.map_eq_some_iff.1 hparam
      cases hpair
      exact toInt_bounds hval

theorem ne_nil_of_progressionParam :
    param.isEmpty = false := by
  cases param with
  | nil => cases hparam
  | cons => rfl

/-- A filter of an empty vector returns it, and any other filter runs its loop. -/
theorem checkedFilter_eq_ok_iff (body : R → ℤ → R) (start : R) (finish : R → List A) (fuel : ℕ)
    {lines res : List A} :
    checkedFilter body start finish fuel lines param = .ok res ↔
      lines = [] ∧ res = [] ∨
        lines ≠ [] ∧ ∃ rounds, rounds < fuel ∧ Stops lines.length left right 0 rounds ∧
          finish ((visited left right 0 rounds).foldl body start) = res := by
  rw [checkedFilter, ne_nil_of_progressionParam hparam, Bool.or_false, hparam]
  cases lines with
  | nil =>
    constructor
    · intro hok
      exact Or.inl ⟨rfl, (Except.ok.inj hok).symm⟩
    · rintro (⟨-, rfl⟩ | ⟨hne, -⟩)
      · rfl
      · exact absurd rfl hne
  | cons =>
    rw [isEmpty_cons, if_neg Bool.false_ne_true]
    simp only [reduceCtorEq, false_and, ne_eq, not_false_eq_true, true_and, false_or]
    rw [bind_eq_ok_iff]
    constructor
    · rintro ⟨reached, hloop, hfinish⟩
      obtain ⟨rounds, hfuel, hstops, rfl⟩ := (checkedLoop_eq_ok_iff _ _ 0 _ _).1 hloop
      exact ⟨rounds, by omega, hstops, Except.ok.inj hfinish⟩
    · rintro ⟨rounds, hfuel, hstops, rfl⟩
      exact ⟨_, (checkedLoop_eq_ok_iff _ _ 0 _ _).2 ⟨rounds, by omega, hstops, rfl⟩, rfl⟩

theorem checkedFilter_mono (body : R → ℤ → R) (start : R) (finish : R → List A) {fuel more : ℕ}
    {lines res : List A} (hmore : fuel ≤ more)
    (hok : checkedFilter body start finish fuel lines param = .ok res) :
    checkedFilter body start finish more lines param = .ok res := by
  rw [checkedFilter_eq_ok_iff hparam] at hok ⊢
  refine hok.imp_right (And.imp_right ?_)
  rintro ⟨rounds, hfuel, hstops⟩
  exact ⟨rounds, hfuel.trans_le hmore, hstops⟩

end

/-- A vector whose loop is safe, the empty one having no loop. -/
def VectorSafe (lines : List A) (left right : ℤ) : Prop :=
  lines.isEmpty = true ∨ LoopSafe lines.length left right

instance (lines : List A) (left right : ℤ) : Decidable (VectorSafe lines left right) :=
  inferInstanceAs (Decidable (_ ∨ _))

section

variable (hparam : progressionParam param = some (left, right))
include hparam

theorem checkedFilter_terminates_iff (body : R → ℤ → R) (start : R) (finish : R → List A)
    (lines : List A) :
    (∃ fuel result, checkedFilter body start finish fuel lines param = .ok result) ↔
      VectorSafe lines left right := by
  rw [VectorSafe, ← stops_iff (isInt_of_progressionParam hparam), List.isEmpty_iff]
  constructor
  · grind [checkedFilter_eq_ok_iff]
  · intro hsafe
    by_cases hnil : lines = []
    · exact ⟨0, [], (checkedFilter_eq_ok_iff hparam _ _ _ _).2 (Or.inl ⟨hnil, rfl⟩)⟩
    · obtain ⟨rounds, hstops⟩ := hsafe.resolve_left hnil
      exact ⟨rounds + 1, _, (checkedFilter_eq_ok_iff hparam _ _ _ _).2
        (Or.inr ⟨hnil, rounds, Nat.lt_succ_self rounds, hstops, rfl⟩)⟩

end

theorem checkedPick_mono (hparam : progressionParam param = some (left, right)) {fuel more : ℕ}
    (lines : List A) {res : List A} :
    fuel ≤ more → checkedPick fuel lines param = .ok res → checkedPick more lines param = .ok res :=
  checkedFilter_mono hparam _ _ _

theorem checkedCut_mono (hparam : progressionParam param = some (left, right)) {fuel more : ℕ}
    (lines : List A) {res : List A} :
    fuel ≤ more → checkedCut fuel lines param = .ok res → checkedCut more lines param = .ok res :=
  checkedFilter_mono hparam _ _ _

theorem exists_common_bound {P : ℕ → A → Prop}
    (hmono : ∀ {bound more} val, bound ≤ more → P bound val → P more val)
    {values : List A} (hvals : ∀ val ∈ values, ∃ bound, P bound val) :
    ∃ bound, ∀ val ∈ values, P bound val := by
  induction values with
  | nil => exact ⟨0, fun val hval => absurd hval not_mem_nil⟩
  | cons head tail ih =>
    obtain ⟨⟨first, hhead⟩, htail⟩ := forall_mem_cons.1 hvals
    obtain ⟨second, hrest⟩ := ih htail
    refine ⟨max first second, forall_mem_cons.2 ⟨?_, fun val hval => ?_⟩⟩
    · exact hmono head (le_max_left first second) hhead
    · exact hmono val (le_max_right first second) (hrest val hval)

theorem mapM_terminates_iff {run : ℕ → List A → Except Fault (List A)}
    (hmono : ∀ {fuel more} lines {result}, fuel ≤ more →
      run fuel lines = .ok result → run more lines = .ok result) (rows : List (List A)) :
    (∃ fuel results, rows.mapM (run fuel) = .ok results) ↔
      ∀ row ∈ rows, ∃ fuel result, run fuel row = .ok result := by
  simp only [exists_mapM_eq_ok_iff]
  constructor
  · rintro ⟨fuel, hrows⟩ row hrow
    exact ⟨fuel, hrows row hrow⟩
  · refine exists_common_bound fun row hmore => ?_
    rintro ⟨result, hres⟩
    exact ⟨result, hmono row hmore hres⟩

end Parameter

namespace ProgressionFilter

/-- The vectors whose loops the filter runs are safe: the rows for a line filter, the columns
of each row for a column filter. -/
def Safe (filter : ProgressionFilter) (rowVec : List Row) (left right : ℤ) : Prop :=
  match filter with
  | linePick | lineCut => VectorSafe rowVec left right
  | columnPick | columnCut => ∀ row ∈ rowVec, VectorSafe row left right

instance (filter : ProgressionFilter) (rowVec : List Row) (left right : ℤ) :
    Decidable (filter.Safe rowVec left right) :=
  match filter with
  | linePick | lineCut => inferInstanceAs (Decidable (VectorSafe rowVec left right))
  | columnPick | columnCut =>
    inferInstanceAs (Decidable (∀ row ∈ rowVec, VectorSafe row left right))

end ProgressionFilter

/-- The indices congruent to `right` modulo `left` and not below `right`. -/
def selected (left right : ℤ) (i : ℕ) : Bool := left ∣ i - right ∧ max right 0 ≤ i

section Visited

variable {size : ℕ} {left right : ℤ} {rounds : ℕ}

theorem mem_visited_iff {n : ℤ} :
    n ∈ visited left right 0 rounds ↔ 0 ≤ n ∧ ∃ i < rounds, left * (i : ℕ) + right = n := by
  simp [visited, and_comm]

variable (hstops : Stops size left right 0 rounds)
include hstops

theorem pairwise_visited :
    (visited left right 0 rounds).Pairwise (· < ·) := by
  rcases Nat.eq_zero_or_pos rounds with rfl | hrounds
  · rw [visited_self]
    exact List.Pairwise.nil
  · refine List.Pairwise.filter _ (List.Pairwise.map _ (fun i j hlt => ?_) (pairwise_lt_range'))
    have hbelow := hstops.below 0 le_rfl hrounds
    have hproduct : left * (i : ℤ) < left * j :=
      mul_lt_mul_of_pos_left (Int.ofNat_lt.2 hlt) (hstops.left_pos (by omega))
    omega

/-- The loop visits the selected indices, in order. -/
theorem visited_eq :
    visited left right 0 rounds =
      ((List.range size).filter (selected left right)).map fun i : ℕ => (i : ℤ) := by
  have hrange : (((List.range size).filter (selected left right)).map
      fun i : ℕ => (i : ℤ)).Pairwise (· < ·) :=
    (pairwise_lt_range.filter _).map _ fun i j hlt => Int.ofNat_lt.2 hlt
  refine (pairwise_visited hstops).eq_of_mem_iff hrange fun n => ?_
  rw [mem_visited_iff]
  simp only [mem_map, mem_filter, mem_range, selected, decide_eq_true_eq]
  constructor
  · rintro ⟨hnonneg, i, hlt, rfl⟩
    have hbelow := hstops.below i (Nat.zero_le i) hlt
    have hfirst := hstops.below 0 le_rfl (Nat.zero_lt_of_lt hlt)
    have hproduct : 0 ≤ left * (i : ℤ) :=
      mul_nonneg (hstops.left_pos (by omega)).le (Int.natCast_nonneg i)
    have hidx := Int.toNat_of_nonneg hnonneg
    refine ⟨(left * i + right).toNat, ⟨by omega, ?_, by omega⟩, hidx⟩
    rw [hidx, add_sub_cancel_right]
    exact dvd_mul_right left i
  · rintro ⟨k, ⟨hsize, ⟨quotient, hquotient⟩, hlower⟩, rfl⟩
    have hreached := hstops.reached
    have hleft := hstops.left_pos (by omega)
    have hnonneg : 0 ≤ quotient := nonneg_of_mul_nonneg_right (by omega : 0 ≤ left * quotient) hleft
    have hlt : quotient < rounds := by
      by_contra hge
      have hproduct := mul_le_mul_of_nonneg_left (not_lt.1 hge) hleft.le
      omega
    have hidx := Int.toNat_of_nonneg hnonneg
    refine ⟨Int.natCast_nonneg k, quotient.toNat, by omega, ?_⟩
    rw [hidx]
    omega

end Visited

/-! ## What pick and cut return -/

section Results

variable {param : Str} {left right : ℤ} {fuel : ℕ} {lines result : List A}

section

variable (hparam : progressionParam param = some (left, right))
include hparam

theorem checkedPick_eq (hok : checkedPick fuel lines param = .ok result) :
    result = select (selected left right) lines := by
  rcases (checkedFilter_eq_ok_iff hparam _ _ _ _).1 hok with
    ⟨rfl, rfl⟩ | ⟨-, rounds, -, hstops, rfl⟩
  · rfl
  · rw [visited_eq hstops, select_eq_flatMap, foldl_map]
    exact foldl_append_eq_append

theorem checkedCut_eq (hok : checkedCut fuel lines param = .ok result) :
    result = select (fun i => !selected left right i) lines := by
  rcases (checkedFilter_eq_ok_iff hparam _ _ _ _).1 hok with
    ⟨rfl, rfl⟩ | ⟨-, rounds, -, hstops, rfl⟩
  · rfl
  · have hindices : (visited left right 0 rounds).foldl (fun idxVec n => idxVec ++ [n]) [] =
        ((List.range lines.length).filter (selected left right)).map fun i : ℕ => (i : ℤ) := by
      rw [visited_eq hstops, foldl_append_eq_append, nil_append, ← flatMap_def, flatMap_singleton']
    rw [select_eq_flatMap, hindices]
    congr 1
    refine filter_congr fun i hi => congrArg not ?_
    rw [Bool.eq_iff_iff, contains_iff_mem, mem_map]
    constructor
    · grind
    · intro hselected
      exact ⟨i, mem_filter.2 ⟨hi, hselected⟩, rfl⟩

end

/-! ## The loops of the filters -/

theorem wrap32_of_isInt {val : ℤ} (hint : IsInt val) : wrap32 val = val :=
  wrap32_of_bounds hint.1 hint.2

theorem progression_of_checkedTerm {i n : ℤ} (hterm : checkedTerm left right i = .ok n) :
    progression left right i = n ∧ IsInt n := by
  obtain ⟨hproduct, hsum, rfl⟩ := isInt_of_checkedTerm hterm
  rw [progression, wrap32_of_isInt hproduct, wrap32_of_isInt hsum]
  exact ⟨rfl, hsum⟩

theorem checkedLoop_succ {size : ℕ} {body : R → ℤ → R} {i : ℤ} {start reached : R}
    (hok : checkedLoop size left right body (fuel + 1) i start = .ok reached) :
    IsInt (progression left right i) ∧
      ((progression left right i < size ∧ checkedLoop size left right body fuel (wrap32 (i + 1))
          (if 0 ≤ progression left right i then body start (progression left right i) else start) =
            .ok reached) ∨
        ¬ progression left right i < size ∧ start = reached) := by
  obtain ⟨n, hterm, hrest⟩ := bind_eq_ok_iff.1 hok
  obtain ⟨rfl, hint⟩ := progression_of_checkedTerm hterm
  refine ⟨hint, ?_⟩
  split at hrest
  · next hbelow =>
    obtain ⟨next, hnext, hloop⟩ := bind_eq_ok_iff.1 hrest
    obtain ⟨hcounter, rfl⟩ := isInt_of_checked hnext
    rw [wrap32_of_isInt hcounter]
    exact .inl ⟨hbelow, hloop⟩
  · next hreached => exact .inr ⟨hreached, Except.ok.inj hrest⟩

theorem pickLoop_of_checkedLoop {i : ℤ} {start : List A}
    (hok : checkedLoop lines.length left right
      (fun result n => result ++ lines[n.toNat]?.toList) fuel i start = .ok result) :
    pickLoop lines left right fuel i start = .ok result := by
  induction fuel generalizing i start with
  | zero => cases hok
  | succ fuel ih =>
    obtain ⟨hint, ⟨hbelow, hloop⟩ | ⟨hreached, rfl⟩⟩ := checkedLoop_succ hok
    · rw [pickLoop, if_pos hbelow]
      split
      · next hnonneg =>
        have hidx := toSizeT_of_nonneg hnonneg (by have := hint.2; omega)
        have hlt : toSizeT (progression left right i) < lines.length := by omega
        rw [if_pos hnonneg, ← hidx, Int.toNat_natCast, getElem?_eq_getElem hlt] at hloop
        rw [elementAt_of_lt lines hlt]
        exact ih hloop
      · next hneg =>
        rw [if_neg hneg] at hloop
        exact ih hloop
    · rw [pickLoop, if_neg hreached]
      rfl

theorem indexLoop_of_checkedLoop {size : ℕ} {i : ℤ} {start idxVec : List ℤ}
    (hok : checkedLoop size left right (fun idxVec n => idxVec ++ [n]) fuel i start =
      .ok idxVec) :
    indexLoop size left right fuel i start = .ok idxVec := by
  induction fuel generalizing i start with
  | zero => cases hok
  | succ fuel ih =>
    obtain ⟨-, ⟨hbelow, hloop⟩ | ⟨hreached, rfl⟩⟩ := checkedLoop_succ hok
    · grind [indexLoop]
    · rw [indexLoop, if_neg hreached]
      rfl

/-- A filter whose loop follows the checked one is the checked filter. -/
theorem filter_of_checkedFilter {body : R → ℤ → R} {start : R} {finish : R → List A}
    {loop : ℤ → ℤ → Checked (List A)}
    (hloop : ∀ left right reached,
      checkedLoop lines.length left right body fuel 0 start = .ok reached →
        loop left right = .ok (finish reached))
    (hok : checkedFilter body start finish fuel lines param = .ok result) :
    (if lines.isEmpty || param.isEmpty then pure lines
      else
        match progressionParam param with
        | none => pure lines
        | some (left, right) => loop left right) = Except.ok result := by
  rw [checkedFilter] at hok
  split at hok
  · next hempty =>
    rw [if_pos hempty]
    exact congrArg Except.ok (Except.ok.inj hok)
  · next hempty =>
    rw [if_neg hempty]
    split at hok
    · exact congrArg Except.ok (Except.ok.inj hok)
    · next left right _ =>
      obtain ⟨reached, hrounds, hfinish⟩ := bind_eq_ok_iff.1 hok
      rw [← Except.ok.inj hfinish]
      exact hloop left right reached hrounds

theorem pick_of_checkedPick (hok : checkedPick fuel lines param = .ok result) :
    pick fuel lines param = .ok result :=
  filter_of_checkedFilter (fun _ _ _ hrounds => pickLoop_of_checkedLoop hrounds) hok

theorem cut_of_checkedCut (hok : checkedCut fuel lines param = .ok result) :
    cut fuel lines param = .ok result := by
  refine filter_of_checkedFilter (fun left right reached hrounds => ?_) hok
  rw [← select_eq_flatMap]
  exact bind_eq_ok_iff.2 ⟨reached, indexLoop_of_checkedLoop hrounds,
    mapM_elementAt_filter_range _ lines⟩

section

variable (hparam : progressionParam param = some (left, right))
include hparam

theorem exists_pick_eq (hterminates : ∃ fuel result, checkedPick fuel lines param = .ok result) :
    ∃ enough, ∀ fuel ≥ enough,
      pick fuel lines param = .ok (select (selected left right) lines) := by
  obtain ⟨enough, result, hok⟩ := hterminates
  refine ⟨enough, fun fuel hfuel => pick_of_checkedPick ?_⟩
  rw [← checkedPick_eq hparam hok]
  exact checkedFilter_mono hparam _ _ _ hfuel hok

theorem exists_cut_eq (hterminates : ∃ fuel result, checkedCut fuel lines param = .ok result) :
    ∃ enough, ∀ fuel ≥ enough,
      cut fuel lines param = .ok (select (fun i => !selected left right i) lines) := by
  obtain ⟨enough, result, hok⟩ := hterminates
  refine ⟨enough, fun fuel hfuel => cut_of_checkedCut ?_⟩
  rw [← checkedCut_eq hparam hok]
  exact checkedFilter_mono hparam _ _ _ hfuel hok

end

theorem exists_mapM_eq {run : ℕ → List A → Checked (List A)} {output : List A → List A}
    {rows : List (List A)}
    (hrows : ∀ row ∈ rows, ∃ enough, ∀ fuel ≥ enough, run fuel row = .ok (output row)) :
    ∃ enough, ∀ fuel ≥ enough, rows.mapM (run fuel) = .ok (rows.map output) := by
  obtain ⟨enough, hall⟩ := exists_common_bound
    (fun row hmore hrow fuel hfuel => hrow fuel (hmore.trans hfuel)) hrows
  exact ⟨enough, fun fuel hfuel => mapM_of_forall_ok fun row hrow => hall row hrow fuel hfuel⟩

end Results

end PurcFetcher.Progression
