import PurcFetcher.Filter.Cut

/-!
# The window of ignore

An ignore parameter names a window of indices: `count` indices from `start` on, or `-count`
indices up to `start` for a negative count.  The module states for which windows the line filter
returns the rows outside of it.  A count of zero empties the result, a window that sticks out
at the front leaves the vector, and one that goes back from a start beyond the end is not
applied.
-/

namespace PurcFetcher.Ignore

open Cut PurcFetcher.Filter Text PurcFetcher.Vector

variable {A : Type}

def inWindow (start count : ℤ) (i : ℕ) : Bool :=
  if count > 0 then start ≤ i ∧ i < start + count else start + count < i ∧ i ≤ start

/-- The two calls around a range that begins inside and whose end is an `int`. -/
theorem appendAround_eq (lines : List A) {ignoreBegin ignoreSize : ℤ} (hfits : Fits lines)
    (hbegin : 0 ≤ ignoreBegin) (hinside : ignoreBegin ≤ lines.length) (hsize : 0 ≤ ignoreSize)
    (hend : ignoreBegin + ignoreSize < 2 ^ 31) :
    appendAround lines ignoreBegin ignoreSize =
      .ok (lines.take ignoreBegin.toNat ++ lines.drop (ignoreBegin + ignoreSize).toNat) := by
  rw [Fits] at hfits
  have hlen := toSizeT_of_nonneg hbegin (by omega)
  have hfirst : appendRange [] lines 0 (toSizeT ignoreBegin) =
      .ok (lines.take ignoreBegin.toNat) := by
    rw [appendRange, if_pos ⟨le_rfl, by omega⟩, Int.toNat_zero, List.drop_zero, List.nil_append,
      ← Int.toNat_natCast (toSizeT ignoreBegin), hlen]
  rw [appendAround, hfirst, wrap32_of_bounds (by omega) hend]
  by_cases hbelow : ignoreBegin + ignoreSize < lines.length
  · have hrest := toSizeT_of_nonneg
      (by omega : 0 ≤ (lines.length : ℤ) - ignoreBegin - ignoreSize) (by omega)
    refine (if_pos hbelow).trans ?_
    have hwhole : (lines.drop (ignoreBegin + ignoreSize).toNat).length ≤
        toSizeT (lines.length - ignoreBegin - ignoreSize) := by
      rw [List.length_drop]
      omega
    rw [appendRange, if_pos ⟨by omega, by omega⟩, List.take_of_length_le hwhole]
  · refine (if_neg hbelow).trans ?_
    rw [List.drop_eq_nil_of_le (by omega), List.append_nil]
    rfl

/-- The window is removed exactly when the count is not zero, the calls stay inside, and a start
beyond the end does not reach back into the vector. -/
def windowRemoved (size : ℕ) (start count : ℤ) : Bool :=
  count ≠ 0 && ignoreSafe size start count &&
    (start ≤ size || 0 < count || size ≤ start + count + 1)

theorem select_window_eq (lines : List A) {start count : ℤ} (hbegin : 0 ≤ start) :
    select (fun i => !inWindow start count i) lines =
      if count > 0 then lines.take start.toNat ++ lines.drop (start + count).toNat
      else lines.take (start + count + 1).toNat ++ lines.drop (start + 1).toNat := by
  split
  · grind [inWindow, select_outside]
  · grind [inWindow, select_outside]

/-- A safe window that starts inside is left out by the two calls. -/
theorem appendAround_window (lines : List A) {start count : ℤ} (hfits : Fits lines)
    (hstart : start ≤ lines.length) (hlower : -2 ^ 31 ≤ count) (hcount : count ≠ 0)
    (hsafe : ignoreSafe lines.length start count = true) :
    appendAround lines (rangeBegin start count) (wrap32 |count|) =
      .ok (select (fun i => !inWindow start count i) lines) := by
  simp only [ignoreSafe, Bool.or_eq_true, Bool.and_eq_true, decide_eq_true_eq] at hsafe
  have hlen : lines.length < 2 ^ 29 := hfits
  rw [select_window_eq lines (by omega)]
  by_cases hpos : count > 0
  · grind [rangeBegin, wrap32_of_bounds, appendAround_eq]
  · grind [rangeBegin, wrap32_of_bounds, appendAround_eq]

theorem select_window_beyond_iff {lines : List A} {start : ℤ} (count : ℤ)
    (hnonempty : lines ≠ []) (hbeyond : start > lines.length) :
    select (fun i => !inWindow start count i) lines = lines ↔
      0 < count ∨ lines.length ≤ start + count + 1 := by
  have hlen := List.length_pos_iff.2 hnonempty
  rw [select_eq_self_iff]
  by_cases hpos : count > 0
  · grind [inWindow]
  · simp only [inWindow, if_neg hpos, ← decide_not, decide_eq_true_eq]
    constructor
    · intro houtside
      have hlast := houtside (lines.length - 1) (by omega)
      omega
    · intro hreach i hi
      omega

end PurcFetcher.Ignore
