import Mathlib

/-!
# Concatenation of partial texts

A run that may stop half way produces a text or nothing.  Concatenating such
results is a monoid whose absorbing element is failure.  The main fact is the
conservation rule: when every part yields at most a sublist of what it was
given, the whole is conserved exactly when every part is.
-/

namespace PurcFetcher.PartialJoin

variable {A B : Type*}

def append? (left right : Option (List A)) : Option (List A) :=
  left.bind fun first => right.map (first ++ ·)

/-- Concatenation of a list of partial texts. -/
def join? (parts : List (Option (List A))) : Option (List A) :=
  parts.foldr append? (some [])

@[simp]
theorem append?_some_some (left right : List A) :
    append? (some left) (some right) = some (left ++ right) := rfl

@[simp]
theorem append?_none_left (right : Option (List A)) : append? none right = none := rfl

@[simp]
theorem append?_none_right (left : Option (List A)) : append? left none = none := by
  cases left <;> rfl

@[simp]
theorem append?_some_nil_left (right : Option (List A)) : append? (some []) right = right := by
  cases right <;> simp

@[simp]
theorem append?_some_nil_right (left : Option (List A)) : append? left (some []) = left := by
  cases left <;> simp

/-- Joining is associative. -/
theorem append?_assoc (first second third : Option (List A)) :
    append? (append? first second) third = append? first (append? second third) := by
  cases first <;> cases second <;> cases third <;> simp

theorem append?_eq_some_iff {left right : Option (List A)} {text : List A} :
    append? left right = some text ↔
      ∃ first second, left = some first ∧ right = some second ∧ text = first ++ second := by
  cases left <;> cases right <;> simp [eq_comm]

@[simp]
theorem join?_nil : join? ([] : List (Option (List A))) = some [] := rfl

@[simp]
theorem join?_cons (head : Option (List A)) (tail : List (Option (List A))) :
    join? (head :: tail) = append? head (join? tail) := rfl

/-- A join in two parts. -/
theorem join?_append (left right : List (Option (List A))) :
    join? (left ++ right) = append? (join? left) (join? right) := by
  induction left with
  | nil => simp
  | cons head tail ih => simp [ih, append?_assoc]

section Conservation

variable {left right : Option (List A)} {leftWhole rightWhole : List A}

@[simp]
theorem isSome_append? (left right : Option (List A)) :
    (append? left right).isSome = (left.isSome && right.isSome) := by
  cases left <;> cases right <;> rfl

/-- A join has a result if each part has one. -/
@[simp]
theorem isSome_join? (parts : List (Option (List A))) :
    (join? parts).isSome = parts.all Option.isSome := by
  induction parts with
  | nil => rfl
  | cons head tail ih => rw [join?_cons, isSome_append?, ih, List.all_cons]

variable (hleft : ∀ text, left = some text → text.Sublist leftWhole)
include hleft

variable (hright : ∀ text, right = some text → text.Sublist rightWhole)
include hright

theorem append?_sublist (text : List A) (htext : append? left right = some text) :
    text.Sublist (leftWhole ++ rightWhole) := by
  obtain ⟨first, second, hfirst, hsecond, rfl⟩ := append?_eq_some_iff.1 htext
  exact (hleft first hfirst).append (hright second hsecond)

/-- Nothing is lost in a join of two only if nothing is lost in either. -/
theorem append?_conserves_iff :
    append? left right = some (leftWhole ++ rightWhole) ↔
      left = some leftWhole ∧ right = some rightWhole := by
  constructor
  · intro hwhole
    obtain ⟨first, second, rfl, rfl, heq⟩ := append?_eq_some_iff.1 hwhole
    have hfirst := hleft first rfl
    have hsecond := hright second rfl
    have hlen := congrArg List.length heq
    simp only [List.length_append] at hlen
    have hfirstLen := hfirst.length_le
    have hsecondLen := hsecond.length_le
    rw [hfirst.eq_of_length (by omega), hsecond.eq_of_length (by omega)]
    exact ⟨rfl, rfl⟩
  · rintro ⟨rfl, rfl⟩
    rfl

end Conservation

variable (part : B → Option (List A)) (whole : B → List A)

/-- A join of parts in which nothing was added. -/
theorem join?_sublist (values : List B)
    (hpart : ∀ val ∈ values, ∀ text, part val = some text → text.Sublist (whole val))
    (text : List A) (htext : join? (values.map part) = some text) :
    text.Sublist (values.map whole).flatten := by
  induction values generalizing text with
  | nil =>
    simp only [List.map_nil, join?_nil, Option.some.injEq] at htext
    simp [← htext]
  | cons head tail ih =>
    refine append?_sublist (hpart head (by simp)) ?_ text htext
    exact ih fun val hval => hpart val (by simp [hval])

/-- The conservation rule: a concatenation of lossy parts is the whole input
exactly when every part is its whole input. -/
theorem join?_conserves_iff (values : List B)
    (hpart : ∀ val ∈ values, ∀ text, part val = some text →
      text.Sublist (whole val)) :
    join? (values.map part) = some (values.map whole).flatten ↔
      ∀ val ∈ values, part val = some (whole val) := by
  induction values with
  | nil => simp
  | cons head tail ih => grind [join?_cons, append?_conserves_iff, join?_sublist]

end PurcFetcher.PartialJoin
