import Mathlib

/-!
# Checked accesses to `WTF::Vector`

`Vector::at` stops the process when the index is not below the size, and the
pointer/length forms of `append` and `shrink` do not check at all.  The model
lets every access that leaves the vector end the run in `Trap.outOfBounds`, so
that a run without that trap is one whose accesses all stay inside.

A `Vector` holds fewer than `2 ^ 32` bytes (`allocateBuffer` stops the process
beyond that), so a vector of strings or rows has a size below `2 ^ 29`, which
an `int` holds.
-/

namespace PurcFetcher.Vector

open List

variable {A B : Type}

/-- Why a run ended without a result. -/
inductive Trap
  | outOfBounds
  /-- A builder was given more characters than a string can have. -/
  | tooLong
  /-- The loop was cut off by the bound on its number of rounds. -/
  | outOfFuel
  deriving DecidableEq, Repr

abbrev Checked := Except Trap

/-- Conversion of an `int` to the `size_t` index or length of a vector call. -/
def toSizeT (value : ℤ) : ℕ :=
  (value % 2 ^ 64).toNat

/-- `Vector::at`. -/
def elementAt (values : List A) (index : ℕ) : Checked A :=
  match values[index]? with
  | some value => .ok value
  | none => .error .outOfBounds

/-- `append(data + offset, length)` with `data` the buffer of `values`. -/
def appendRange (result values : List A) (offset : ℤ) (length : ℕ) :
    Checked (List A) :=
  if 0 ≤ offset ∧ offset + length ≤ values.length then
    .ok (result ++ (values.drop offset.toNat).take length)
  else .error .outOfBounds

/-- `Vector::shrink`. -/
def shrink (values : List A) (size : ℕ) : Checked (List A) :=
  if size ≤ values.length then .ok (values.take size) else .error .outOfBounds

/-- The size of a vector that could be allocated. -/
def Fits (values : List A) : Prop :=
  values.length < 2 ^ 29

theorem toSizeT_of_nonneg {val : ℤ} (hnonneg : 0 ≤ val)
    (hbound : val < 2 ^ 63) : (toSizeT val : ℤ) = val := by
  rw [toSizeT, Int.emod_eq_of_lt hnonneg (by omega)]
  exact Int.toNat_of_nonneg hnonneg

theorem toSizeT_of_neg {val : ℤ} (hneg : val < 0)
    (hbound : -2 ^ 63 ≤ val) : 2 ^ 63 ≤ toSizeT val := by
  have hmod : val % 2 ^ 64 = val + 2 ^ 64 := by
    rw [← Int.add_emod_right, Int.emod_eq_of_lt (by omega) (by omega)]
  rw [toSizeT, hmod]
  omega

theorem elementAt_of_lt (values : List A) {idx : ℕ}
    (hidx : idx < values.length) :
    elementAt values idx = .ok values[idx] := by
  simp [elementAt, hidx]

variable {values : List A} {run : Checked A}

theorem elementAt_eq_ok_iff {idx : ℕ} {val : A} :
    elementAt values idx = .ok val ↔ values[idx]? = some val := by
  rw [elementAt]
  cases values[idx]? <;> simp

theorem bind_eq_ok_iff {E : Type} {run : Except E A} {next : A → Except E B} {res : B} :
    run >>= next = .ok res ↔ ∃ val, run = .ok val ∧ next val = .ok res := by
  cases run with
  | error | ok => simp [bind, Except.bind]

theorem mapM_elementAt_range' (values : List A) (start count : ℕ)
    (hrange : start + count ≤ values.length) :
    (List.range' start count).mapM (elementAt values) = .ok ((values.drop start).take count) := by
  induction count generalizing start with
  | zero => simp [pure, Except.pure]
  | succ count ih =>
    have hstart : start < values.length := by omega
    rw [range'_succ, mapM_cons, elementAt_of_lt values hstart,
      ih (start + 1) (by omega), drop_eq_getElem_cons hstart]
    rfl

/-! ## Loops over all elements -/

theorem mapM_of_forall_ok {E : Type} {run : A → Except E B} {output : A → B}
    (hrun : ∀ val ∈ values, run val = .ok (output val)) :
    values.mapM run = .ok (values.map output) := by
  induction values with
  | nil => rfl
  | cons head tail ih =>
    rw [mapM_cons, hrun head mem_cons_self, ih fun val hval => hrun val (mem_cons_of_mem head hval)]
    rfl

theorem exists_mapM_eq_ok_iff {E : Type} {run : A → Except E B} (values : List A) :
    (∃ results, values.mapM run = .ok results) ↔ ∀ val ∈ values, ∃ res, run val = .ok res := by
  induction values with
  | nil => exact iff_of_true ⟨[], rfl⟩ fun val hval => absurd hval not_mem_nil
  | cons head tail ih =>
    rw [forall_mem_cons, ← ih]
    constructor
    · rintro ⟨results, hloop⟩
      rw [mapM_cons] at hloop
      obtain ⟨first, hhead, hrest⟩ := bind_eq_ok_iff.1 hloop
      obtain ⟨rest, htail, -⟩ := bind_eq_ok_iff.1 hrest
      exact ⟨⟨first, hhead⟩, rest, htail⟩
    · rintro ⟨⟨first, hhead⟩, rest, htail⟩
      rw [mapM_cons, hhead, htail]
      exact ⟨first :: rest, rfl⟩

/-! ## The elements at chosen indices -/

/-- The elements whose index is chosen, in order. -/
def select (chosen : ℕ → Bool) (values : List A) : List A :=
  (values.zipIdx.filter fun entry => chosen entry.2).map Prod.fst

variable (chosen : ℕ → Bool)

theorem select_eq_flatMap (values : List A) :
    select chosen values =
      ((List.range values.length).filter chosen).flatMap fun idx => values[idx]?.toList := by
  have hindices : (List.range values.length).filter chosen =
      (values.zipIdx.filter fun entry => chosen entry.2).map Prod.snd := by
    rw [range_eq_range', ← zipIdx_map_snd, filter_map]
    rfl
  rw [hindices, flatMap_map, select, map_eq_flatMap]
  refine flatMap_congr fun entry hentry => ?_
  rw [mem_zipIdx_iff_getElem?.1 (mem_of_mem_filter hentry)]
  rfl

theorem mapM_elementAt_filter_range (values : List A) :
    ((List.range values.length).filter chosen).mapM (elementAt values) =
      .ok (select chosen values) := by
  have hloop : ∀ indices : List ℕ, (∀ idx ∈ indices, idx < values.length) →
      indices.mapM (elementAt values) = .ok (indices.flatMap fun idx => values[idx]?.toList) := by
    intro indices hindices
    induction indices with
    | nil => rfl
    | cons head tail ih =>
      have hhead := hindices head mem_cons_self
      rw [mapM_cons, elementAt_of_lt values hhead, flatMap_cons,
        ih fun idx hidx => hindices idx (mem_cons_of_mem head hidx),
        getElem?_eq_getElem hhead]
      rfl
  rw [select_eq_flatMap]
  exact hloop _ fun idx hidx => mem_range.1 (mem_of_mem_filter hidx)

theorem length_select_add (values : List A) :
    (select chosen values).length + (select (fun idx => !chosen idx) values).length =
      values.length := by
  rw [select, select, length_map, length_map,
    ← length_eq_length_filter_add fun entry : A × ℕ => chosen entry.2, length_zipIdx]

theorem select_cons (head : A) (tail : List A) :
    select chosen (head :: tail) =
      (if chosen 0 then [head] else []) ++ select (fun idx => chosen (idx + 1)) tail := by
  rw [select, zipIdx_cons, zipIdx_succ, filter_cons, filter_map, select]
  split
  · rw [map_cons, map_map]
    rfl
  · rw [map_map]
    rfl

/-- Nothing is left out only if all indices are chosen. -/
theorem select_eq_self_iff {chosen : ℕ → Bool} :
    select chosen values = values ↔ ∀ idx < values.length, chosen idx = true := by
  constructor
  · intro hselect idx hidx
    have hlen := congrArg List.length hselect
    rw [select, length_map, ← length_zipIdx (l := values) (i := 0),
      length_filter_eq_length_iff] at hlen
    exact hlen (values[idx], idx) (mem_zipIdx_iff_getElem?.2 (getElem?_eq_getElem hidx))
  · intro hchosen
    rw [select, filter_eq_self.2, zipIdx_map_fst]
    intro entry hentry
    obtain ⟨hidx, -⟩ := List.getElem?_eq_some_iff.1 (mem_zipIdx_iff_getElem?.1 hentry)
    exact hchosen entry.2 hidx

/-- Leaving out a range leaves what is before it and what is behind it. -/
theorem select_outside {first last : ℕ} (hle : first ≤ last) (values : List A) :
    select (fun idx => decide (idx < first ∨ last ≤ idx)) values =
      values.take first ++ values.drop last := by
  induction values generalizing first last with
  | nil => simp [select]
  | cons head tail ih =>
    rw [select_cons]
    cases first with
    | zero =>
      cases last with
      | zero =>
        have hall : select (fun idx => decide (idx + 1 < 0 ∨ 0 ≤ idx + 1)) tail = tail :=
          select_eq_self_iff.2 fun idx _ => by simp
        rw [hall]
        simp
      | succ last =>
        have htail := ih (Nat.zero_le last)
        simpa using htail
    | succ first =>
      cases last with
      | zero => exact absurd hle (Nat.not_succ_le_zero first)
      | succ =>
        have htail := ih (Nat.le_of_succ_le_succ hle)
        simpa using htail

/-! ## Runs whose accesses stay inside -/

/-- No access outside a vector ended the run. -/
def InBounds (run : Checked A) : Prop :=
  run ≠ .error .outOfBounds

/-- Nothing but an access outside a vector ends the run. -/
def Finishes (run : Checked A) : Prop :=
  ∀ trap, run = .error trap → trap = .outOfBounds

@[simp]
theorem inBounds_pure (val : A) : InBounds (pure val : Checked A) := by
  intro hstop
  cases hstop

@[simp]
theorem finishes_pure (val : A) : Finishes (pure val : Checked A) := by
  intro _ hstop
  cases hstop

/-- A run stays inside in both of its parts. -/
theorem inBounds_bind_iff (run : Checked A) (next : A → Checked B) :
    InBounds (run >>= next) ↔ InBounds run ∧ ∀ val, run = .ok val → InBounds (next val) := by
  cases run with
  | error | ok => simp [InBounds, bind, Except.bind]

theorem exists_ok (hinside : InBounds run) (hfinishes : Finishes run) : ∃ val, run = .ok val := by
  cases run with
  | error trap => exact absurd (hfinishes trap rfl ▸ rfl) hinside
  | ok val => exact ⟨val, rfl⟩

theorem inBounds_iff_isSome (hfinishes : Finishes run) :
    InBounds run ↔ run.toOption.isSome = true := by
  refine ⟨fun hinside => ?_, fun hsome hstop => ?_⟩
  · obtain ⟨val, rfl⟩ := exists_ok hinside hfinishes
    rfl
  · rw [hstop] at hsome
    cases hsome

theorem Finishes.bind {next : A → Checked B} (hrun : Finishes run)
    (hnext : ∀ val, Finishes (next val)) : Finishes (run >>= next) := by
  cases run with
  | error => simpa [Finishes, Bind.bind, Except.bind] using hrun
  | ok val => exact hnext val

theorem inBounds_elementAt_iff (values : List A) (idx : ℕ) :
    InBounds (elementAt values idx) ↔ idx < values.length := by
  by_cases hidx : idx < values.length
  · simp [InBounds, elementAt_of_lt values hidx, hidx]
  · simp [InBounds, elementAt, hidx]

theorem finishes_elementAt (values : List A) (idx : ℕ) : Finishes (elementAt values idx) := by
  rw [Finishes, elementAt]
  cases values[idx]? <;> simp

theorem inBounds_appendRange_iff (res values : List A) (offset : ℤ) (len : ℕ) :
    InBounds (appendRange res values offset len) ↔ 0 ≤ offset ∧ offset + len ≤ values.length := by
  rw [InBounds, appendRange]
  split_ifs with hinside <;> simp [hinside]

theorem finishes_appendRange (res values : List A) (offset : ℤ) (len : ℕ) :
    Finishes (appendRange res values offset len) := by
  rw [Finishes, appendRange]
  split_ifs <;> simp

theorem inBounds_shrink_iff (values : List A) (size : ℕ) :
    InBounds (shrink values size) ↔ size ≤ values.length := by
  rw [InBounds, shrink]
  split_ifs with hinside <;> simp [hinside]

theorem inBounds_mapM {run : A → Checked B} (hrun : ∀ val ∈ values, InBounds (run val)) :
    InBounds (values.mapM run) := by
  induction values with
  | nil => simp
  | cons head tail ih => grind [inBounds_bind_iff, inBounds_pure]

theorem finishes_mapM {run : A → Checked B} (values : List A)
    (hrun : ∀ val, Finishes (run val)) : Finishes (values.mapM run) := by
  induction values with
  | nil => simp
  | cons head tail ih =>
    rw [mapM_cons]
    apply (hrun head).bind
    intro val
    apply ih.bind
    intro values
    exact finishes_pure _

/-- A loop over all elements stays inside exactly when each round does, unless a
round can be cut off before a later one leaves its vector. -/
theorem inBounds_mapM_iff {run : A → Checked B} (values : List A)
    (hfinishes : ∀ val, Finishes (run val)) :
    InBounds (values.mapM run) ↔ ∀ val ∈ values, InBounds (run val) := by
  refine ⟨fun hloop => ?_, inBounds_mapM⟩
  induction values with
  | nil => simp
  | cons head tail ih =>
    rw [mapM_cons, inBounds_bind_iff] at hloop
    obtain ⟨hhead, hrest⟩ := hloop
    intro val hval
    cases hval with
    | head => exact hhead
    | tail _ htail =>
      cases hrun : run head with
      | error trap => exact absurd (hfinishes head trap hrun ▸ hrun) hhead
      | ok first =>
        have hnext := hrest first hrun
        rw [inBounds_bind_iff] at hnext
        exact ih hnext.1 val htail

end PurcFetcher.Vector
