import Mathlib.Tactic.Common

/-!
# Bloom filters

A filter is a table of bits.  An element has a few positions in the table: adding it
sets the bits at its positions, and the filter may contain it when all of them are set.
The positions are a parameter, so nothing is assumed about the hash behind them, and the
one promise of a filter is proved here: what was added is never denied.
-/

namespace PurcFetcher.BloomFilter

variable {A : Type*} (positions : A → List ℕ)

def Table : Type := ℕ → Bool

def empty : Table := fun _ => false

def add (table : Table) (element : A) : Table :=
  fun position => decide (position ∈ positions element) || table position

def addAll (table : Table) (elements : List A) : Table :=
  elements.foldl (add positions) table

def mayContain (table : Table) (element : A) : Bool :=
  (positions element).all table

variable {positions} {tbl : Table} {element other : A} {elements : List A}

theorem mayContain_add_self : mayContain positions (add positions tbl element) element := by
  apply List.all_eq_true.2
  intro pos hpos
  simp [add, hpos]

theorem mayContain_add (hother : mayContain positions tbl other) :
    mayContain positions (add positions tbl element) other := by
  apply List.all_eq_true.2
  intro pos hpos
  rw [add, List.all_eq_true.1 hother pos hpos, Bool.or_true]

/-- What the filter may contain stays so. -/
theorem mayContain_addAll (hother : mayContain positions tbl other) :
    mayContain positions (addAll positions tbl elements) other := by
  induction elements generalizing tbl with
  | nil => exact hother
  | cons head tail ih => exact ih (mayContain_add hother)

/-- No element that was added is ever denied. -/
theorem mayContain_addAll_of_mem (hmem : element ∈ elements) :
    mayContain positions (addAll positions tbl elements) element := by
  induction elements generalizing tbl with
  | nil => exact absurd hmem List.not_mem_nil
  | cons head tail ih =>
    cases List.mem_cons.1 hmem with
    | inl hhead =>
      rw [hhead]
      change mayContain positions (addAll positions (add positions tbl head) tail) head
      exact mayContain_addAll mayContain_add_self
    | inr htail => exact ih htail

end PurcFetcher.BloomFilter
