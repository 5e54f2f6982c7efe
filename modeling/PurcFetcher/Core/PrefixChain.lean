import Mathlib

/-!
# Lists collected by extension

A list that is extended by each of a sequence of lists, where it is shorter,
keeps all of them as its beginnings exactly when any two of them are comparable.
-/

namespace PurcFetcher.PrefixChain

open List

variable {A : Type*}

/-- Append what `list` has beyond the length of `collected`. -/
def extend (collected list : List A) : List A :=
  collected ++ list.drop collected.length

/-- One of the two lists begins with the other. -/
def Comparable (left right : List A) : Prop :=
  left <+: right ∨ right <+: left

instance [DecidableEq A] (left right : List A) : Decidable (Comparable left right) :=
  inferInstanceAs (Decidable (left <+: right ∨ right <+: left))

theorem extend_of_le {collected list : List A} (hlen : list.length ≤ collected.length) :
    extend collected list = collected := by
  rw [extend, drop_eq_nil_of_le hlen, append_nil]

theorem extend_of_comparable {collected list : List A} (hleads : collected <+: list) :
    extend collected list = list := by
  obtain ⟨rest, rfl⟩ := hleads
  rw [extend, drop_left]

theorem prefix_map_iff {B : Type*} {f : A → B} (hinjective : Function.Injective f)
    {left right : List A} : left.map f <+: right.map f ↔ left <+: right := by
  rw [prefix_iff_eq_take, length_map, ← map_take,
    (map_injective_iff.2 hinjective).eq_iff, ← prefix_iff_eq_take]

/-- The same list extends only once. -/
@[simp]
theorem extend_extend (collected list : List A) :
    extend (extend collected list) list = extend collected list := by
  apply extend_of_le
  rw [extend, length_append, length_drop]
  omega

/-- All lists are kept, and the collected list is one of them or empty. -/
theorem foldl_extend_of_comparable (lists : List (List A))
    (hcomparable : ∀ left ∈ lists, ∀ right ∈ lists, Comparable left right) :
    (∀ list ∈ lists, list <+: lists.foldl extend []) ∧
      (lists.foldl extend [] = [] ∨ lists.foldl extend [] ∈ lists) := by
  induction lists using reverseRecOn with
  | nil => exact ⟨by simp, Or.inl rfl⟩
  | append_singleton lists list ih =>
    obtain ⟨hkept, hone⟩ := ih fun left hleft right hright =>
      hcomparable left (mem_append_left _ hleft) right (mem_append_left _ hright)
    have hlast : list ∈ lists ++ [list] := by simp
    have hcases : Comparable (lists.foldl extend []) list := by
      cases hone with
      | inl hempty =>
        rw [hempty]
        exact Or.inl nil_prefix
      | inr hmem => exact hcomparable _ (mem_append_left _ hmem) list hlast
    rw [foldl_append, foldl_cons, foldl_nil]
    cases hcases with
    | inl hshorter => grind [extend_of_comparable]
    | inr hlonger => grind [extend_of_le]

/-- All lists begin the collected one exactly if of any two one begins the other. -/
theorem forall_prefix_foldl_extend_iff (lists : List (List A)) :
    (∀ list ∈ lists, list <+: lists.foldl extend []) ↔
      ∀ left ∈ lists, ∀ right ∈ lists, Comparable left right := by
  constructor
  · intro hkept left hleft right hright
    exact prefix_or_prefix_of_prefix (hkept left hleft) (hkept right hright)
  · intro hcomparable
    exact (foldl_extend_of_comparable lists hcomparable).1

end PurcFetcher.PrefixChain
