import Mathlib

/-!
# Templates with named holes

A template is a text with holes: a leading constant, then pairs of a name and
the constant after it.  Rendering puts the value of each name into its hole and
nothing else, so the values cannot reach the constants or one another.
-/

namespace PurcFetcher.Templates

variable {A : Type*}

structure Template (A : Type*) where
  lead : List A
  holes : List (List A × List A)
  deriving DecidableEq, Repr

namespace Template

def empty : Template A :=
  { lead := [], holes := [] }

def literal (text : List A) (template : Template A) : Template A :=
  { template with lead := text ++ template.lead }

def hole (name : List A) (template : Template A) : Template A :=
  { lead := [], holes := (name, template.lead) :: template.holes }

def render (value : List A → List A) (template : Template A) : List A :=
  template.lead ++ template.holes.flatMap fun hole => value hole.1 ++ hole.2

section Render

variable (val : List A → List A) (template : Template A)

@[simp]
theorem render_empty : render val empty = [] := rfl

@[simp]
theorem render_literal (text : List A) :
    render val (literal text template) = text ++ render val template := by
  simp [render, literal]

@[simp]
theorem render_hole (name : List A) :
    render val (hole name template) = val name ++ render val template := by
  simp [render, hole]

/-- Texts that follow each other are one. -/
@[simp]
theorem literal_literal (first second : List A) :
    literal first (literal second template) = literal (first ++ second) template := by
  simp [literal]

@[simp]
theorem literal_nil : literal [] template = template := rfl

end Render

end Template

end PurcFetcher.Templates
