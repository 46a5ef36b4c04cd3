import Mathlib.Data.List.Forall2

/-! # Templates of segments

A template is a list of segments, which are literals or parameters. A path fits a
template when it can be read segment by segment; what the parameters stand for is then
determined, and putting it in gives the path again. Of two templates that a path fits
the one is more specific that has a literal where they first differ.
-/

namespace Foundation

variable {Name Text : Type*}

inductive Segment (Name Text : Type*) where
  | literal (text : Text)
  | parameter (name : Name)

namespace Segment

/-- A literal fits itself, a parameter fits all that is admissible. -/
def Matches (admissible : Text → Prop) : Segment Name Text → Text → Prop
  | .literal text, part => text = part
  | .parameter _, part => admissible part

def substitute (assignment : Name → Text) : Segment Name Text → Text
  | .literal text => text
  | .parameter name => assignment name

end Segment

namespace Template

/-- What the parameters stand for in a path, one entry for each occurrence. -/
def bindings : List (Segment Name Text) → List Text → List (Name × Text)
  | .parameter name :: template, part :: path => (name, part) :: bindings template path
  | .literal _ :: template, _ :: path => bindings template path
  | _, _ => []

def Matches (admissible : Text → Prop) (template : List (Segment Name Text))
    (path : List Text) : Prop :=
  List.Forall₂ (Segment.Matches admissible) template path

/-- Where the templates first differ, the one has a literal and the other a parameter. -/
def Beats : List (Segment Name Text) → List (Segment Name Text) → Prop
  | .literal _ :: _, .parameter _ :: _ => True
  | .parameter _ :: _, .literal _ :: _ => False
  | _ :: first, _ :: second => Beats first second
  | _, _ => False

theorem not_beats_self (template : List (Segment Name Text)) : ¬ Beats template template := by
  induction template with
  | nil => exact id
  | cons segment template ih => cases segment <;> exact ih

variable {template : List (Segment Name Text)} {path : List Text}

theorem map_substitute_eq_iff {admissible : Text → Prop}
    (hmatches : Matches admissible template path) (assignment : Name → Text) :
    template.map (Segment.substitute assignment) = path ↔
      ∀ binding ∈ bindings template path, assignment binding.1 = binding.2 := by
  induction hmatches with
  | nil => exact iff_of_true rfl fun _ hbinding => absurd hbinding List.not_mem_nil
  | @cons segment part template path hsegment _ ih =>
    rw [List.map_cons, List.cons_eq_cons, ih]
    cases segment with
    | literal text =>
      have htext : text = part := hsegment
      exact and_iff_right htext
    | parameter name =>
      change _ ↔ ∀ binding ∈ (name, part) :: bindings template path,
        assignment binding.1 = binding.2
      rw [List.forall_mem_cons]
      exact Iff.rfl

def names : List (Segment Name Text) → List Name
  | [] => []
  | .literal _ :: template => names template
  | .parameter name :: template => name :: names template

theorem map_fst_bindings {admissible : Text → Prop} (hmatches : Matches admissible template path) :
    (bindings template path).map Prod.fst = names template := by
  induction hmatches with
  | nil => rfl
  | @cons segment part template path _ _ ih =>
    cases segment with
    | literal text => exact ih
    | parameter name => exact congrArg (List.cons name) ih

theorem mem_of_mem_bindings
    {binding : Name × Text} (hbinding : binding ∈ bindings template path) : binding.2 ∈ path := by
  induction template generalizing path with
  | nil => cases hbinding
  | cons segment template ih =>
    cases path with
    | nil => cases segment <;> cases hbinding
    | cons part path =>
      cases segment with
      | literal text => exact List.mem_cons_of_mem _ (ih hbinding)
      | parameter name =>
        rcases List.mem_cons.mp hbinding with rfl | hlater
        · exact List.mem_cons_self
        · exact List.mem_cons_of_mem _ (ih hlater)

end Template

end Foundation
