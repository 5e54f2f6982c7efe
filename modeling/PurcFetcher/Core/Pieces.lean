import Mathlib

/-!
# Nonempty pieces of a list between separators

Splitting a list at every separator and dropping the empty pieces, over an
arbitrary element type: what the pieces are, that nothing but separators is
lost, how the pieces of a list are found by cutting it at its first separator,
and how they change with the encoding of the elements.
-/

namespace PurcFetcher.Pieces

open List

variable {A : Type*}

/-- Close the piece under construction, which is dropped when it is empty. -/
def emit (current : List A) : List (List A) :=
  if current.isEmpty then [] else [current]

def piecesFrom (sep : A → Bool) (current : List A) : List A → List (List A)
  | [] => emit current
  | head :: tail =>
    if sep head then emit current ++ piecesFrom sep [] tail
    else piecesFrom sep (current ++ [head]) tail

/-- The nonempty maximal runs of nonseparators, in order. -/
def pieces (sep : A → Bool) (values : List A) : List (List A) :=
  piecesFrom sep [] values

@[simp]
theorem emit_nil : emit ([] : List A) = [] := rfl

theorem emit_of_ne_nil {cur : List A} (hne : cur ≠ []) : emit cur = [cur] := by
  simp [emit, hne]

@[simp]
theorem flatten_emit (cur : List A) : (emit cur).flatten = cur := by
  by_cases hne : cur = []
  · simp [hne]
  · simp [emit_of_ne_nil hne]

variable (sep : A → Bool) (cur : List A)

theorem piecesFrom_append_of_free (run rest : List A) (hfree : ∀ val ∈ run, sep val = false) :
    piecesFrom sep cur (run ++ rest) = piecesFrom sep (cur ++ run) rest := by
  induction run generalizing cur with
  | nil => simp
  | cons head tail ih => grind [piecesFrom]

/-- The first piece ends at the first separator. -/
theorem pieces_append_cons (run rest : List A) (val : A)
    (hfree : ∀ other ∈ run, sep other = false) (hsep : sep val = true) :
    pieces sep (run ++ val :: rest) = emit run ++ pieces sep rest := by
  rw [pieces, piecesFrom_append_of_free sep [] run _ hfree, piecesFrom, if_pos hsep]
  simp [pieces]

variable (values : List A)

theorem pieces_of_free (hfree : ∀ val ∈ values, sep val = false) :
    pieces sep values = emit values := by
  have hrun := piecesFrom_append_of_free sep [] values [] hfree
  simpa [pieces, piecesFrom] using hrun

theorem flatten_piecesFrom :
    (piecesFrom sep cur values).flatten = cur ++ values.filter (fun val => !sep val) := by
  induction values generalizing cur with
  | nil => simp [piecesFrom]
  | cons head tail ih =>
    by_cases hhead : sep head = true
    · simp [piecesFrom, hhead, ih]
    · simp [piecesFrom, hhead, ih]

/-- The pieces are all that is between separators. -/
theorem flatten_pieces : (pieces sep values).flatten = values.filter (fun val => !sep val) := by
  simp [pieces, flatten_piecesFrom]

/-- A list has no separator, or a first one. -/
theorem exists_first_separator :
    (∀ val ∈ values, sep val = false) ∨
      ∃ run val rest, values = run ++ val :: rest ∧ sep val = true ∧
        ∀ other ∈ run, sep other = false := by
  induction values with
  | nil => exact Or.inl (by simp)
  | cons head tail ih =>
    by_cases hhead : sep head = true
    · exact Or.inr ⟨[], head, tail, rfl, hhead, by simp⟩
    · grind

/-- Parts that are joined by a separator are the pieces again. -/
theorem pieces_intercalate {sep : A → Bool} {val : A} (hsep : sep val = true)
    {parts : List (List A)} (hne : ∀ part ∈ parts, part ≠ [])
    (hfree : ∀ part ∈ parts, ∀ other ∈ part, sep other = false) :
    pieces sep ([val].intercalate parts) = parts := by
  induction parts with
  | nil => rfl
  | cons part parts ih =>
    obtain ⟨hpart, hparts⟩ := forall_mem_cons.1 hne
    obtain ⟨hpartFree, hpartsFree⟩ := forall_mem_cons.1 hfree
    by_cases hlast : parts = []
    · subst hlast
      rw [intercalate_singleton, pieces_of_free sep part hpartFree, emit_of_ne_nil hpart]
    · rw [intercalate_cons_of_ne_nil hlast, append_assoc, singleton_append,
        pieces_append_cons sep part _ val hpartFree hsep, emit_of_ne_nil hpart,
        ih hparts hpartsFree, singleton_append]

/-- What holds of the separators holds of a joined list just if it holds of its parts. -/
theorem forall_mem_intercalate_iff {P : A → Prop} {sep : List A} (hsep : ∀ val ∈ sep, P val)
    (parts : List (List A)) :
    (∀ val ∈ sep.intercalate parts, P val) ↔ ∀ part ∈ parts, ∀ val ∈ part, P val := by
  induction parts with
  | nil => exact iff_of_true nofun nofun
  | cons part parts ih =>
    by_cases hlast : parts = []
    · rw [hlast, intercalate_singleton, forall_mem_singleton]
    · rw [intercalate_cons_of_ne_nil hlast, forall_mem_append, forall_mem_append, ih,
        and_iff_left hsep, forall_mem_cons]

/-! ## Several separators -/

theorem piecesFrom_congr {sep other : A → Bool} {values : List A}
    (hsame : ∀ val ∈ values, sep val = other val) :
    piecesFrom sep cur values = piecesFrom other cur values := by
  induction values generalizing cur with
  | nil => rfl
  | cons head tail ih => grind [piecesFrom]

/-- A separator splits the list in two. -/
theorem piecesFrom_append_sep {sep : A → Bool} (before after : List A) {val : A}
    (hsep : sep val = true) :
    piecesFrom sep cur (before ++ val :: after) =
      piecesFrom sep cur before ++ pieces sep after := by
  induction before generalizing cur with
  | nil => simp [piecesFrom, pieces, hsep]
  | cons head tail ih => grind [piecesFrom]

theorem flatMap_pieces_emit : (emit cur).flatMap (pieces sep) = pieces sep cur := by
  by_cases hne : cur = []
  · subst hne
    rfl
  · rw [emit_of_ne_nil hne, flatMap_singleton]

/-- Splitting the pieces at a second separator is splitting at both. -/
theorem flatMap_pieces (first second : A → Bool) (values : List A) :
    (pieces first values).flatMap (pieces second) =
      pieces (fun val => first val || second val) values := by
  -- up to the first `first` separator only `second` separates
  have hrun : ∀ run : List A, (∀ val ∈ run, first val = false) →
      pieces (fun val => first val || second val) run = pieces second run := by
    intro run hfree
    refine piecesFrom_congr [] fun val hval => ?_
    rw [hfree val hval, Bool.false_or]
  induction hlen : values.length using Nat.strong_induction_on generalizing values with
  | _ len ih =>
    rcases exists_first_separator first values with
      hfree | ⟨run, val, rest, rfl, hsep, hfree⟩
    · rw [pieces_of_free first values hfree, flatMap_pieces_emit, hrun values hfree]
    · have hshorter : rest.length < len := by
        rw [← hlen, length_append, length_cons]
        omega
      have hboth : (first val || second val) = true := by rw [hsep, Bool.true_or]
      rw [pieces_append_cons first run rest val hfree hsep, flatMap_append,
        flatMap_pieces_emit, ih rest.length hshorter rest rfl, ← hrun run hfree]
      exact (piecesFrom_append_sep [] run rest hboth).symm

section Encoding

variable {B : Type*}

variable {encode : A → List B}

theorem map_flatMap_emit (cur : List A) (hne : ∀ val ∈ cur, encode val ≠ []) :
    (emit cur).map (fun piece => piece.flatMap encode) = emit (cur.flatMap encode) := by
  cases cur with
  | nil => rfl
  | cons head tail =>
    have hhead : (head :: tail).flatMap encode ≠ [] := by
      simp [flatMap_cons, hne head mem_cons_self]
    rw [emit_of_ne_nil (cons_ne_nil head tail), emit_of_ne_nil hhead]
    rfl

/-- An encoding of the elements that keeps separators apart from the rest keeps
the pieces. -/
theorem piecesFrom_flatMap {sep : A → Bool} {sepEncoded : B → Bool}
    (hsep : ∀ val, sep val = true → ∃ encoded, encode val = [encoded] ∧ sepEncoded encoded = true)
    (hother : ∀ val, sep val = false → encode val ≠ [] ∧
      ∀ encoded ∈ encode val, sepEncoded encoded = false)
    (cur values : List A) (hcur : ∀ val ∈ cur, sep val = false) :
    piecesFrom sepEncoded (cur.flatMap encode) (values.flatMap encode) =
      (piecesFrom sep cur values).map fun piece => piece.flatMap encode := by
  have hne : ∀ val ∈ cur, encode val ≠ [] := fun val hval => (hother val (hcur val hval)).1
  induction values generalizing cur with
  | nil => rw [piecesFrom, map_flatMap_emit cur hne, flatMap_nil, piecesFrom]
  | cons head tail ih =>
    rw [flatMap_cons]
    cases hhead : sep head with
    | true => grind [piecesFrom, map_flatMap_emit]
    | false => grind [piecesFrom, piecesFrom_append_of_free]

end Encoding

end PurcFetcher.Pieces
