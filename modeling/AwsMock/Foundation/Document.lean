import Mathlib.Data.List.Basic

/-! # Documents of named fields

A document is a list of named values, and a value may be a document again.
Fields are read and written by name or along a path of names. Writing an
existing field keeps its place; a new field goes to the end.
-/

namespace Foundation

inductive Scalar where
  | null
  | bool (value : Bool)
  | int32 (value : Int)
  | int64 (value : Int)
  | double (value : Rat)
  | date (milliseconds : Int)
  | string (value : String)
  | objectId (value : String)
deriving DecidableEq, Repr

inductive Value where
  | scalar (value : Scalar)
  | binary (bytes : List UInt8)
  | array (values : List Value)
  | document (fields : List (String × Value))

abbrev Document := List (String × Value)

def Value.is (expected : Scalar) : Value → Bool
  | .scalar value => value = expected
  | _ => false

@[simp] theorem Value.is_scalar (expected value : Scalar) :
    (Value.scalar value).is expected = decide (value = expected) := rfl

namespace Document

def get? (name : String) : Document → Option Value
  | [] => none
  | field :: rest => if field.1 = name then some field.2 else get? name rest

/-- Overwrite the field of the given name, or add it at the end. -/
def set (name : String) (value : Value) : Document → Document
  | [] => [(name, value)]
  | field :: rest =>
    if field.1 = name then (name, value) :: rest else field :: set name value rest

variable (name : String)

@[simp] theorem get?_nil : get? name [] = none := rfl

theorem get?_cons (name key : String) (value : Value) (rest : Document) :
    get? name ((key, value) :: rest) = if key = name then some value else get? name rest := rfl

theorem set_cons (name key : String) (value old : Value) (rest : Document) :
    set name value ((key, old) :: rest) =
      if key = name then (name, value) :: rest else (key, old) :: set name value rest := rfl

theorem get?_set (name other : String) (value : Value) (document : Document) :
    get? other (set name value document) =
      if name = other then some value else get? other document := by
  induction document with
  | nil => rfl
  | cons field rest ih =>
    obtain ⟨key, old⟩ := field
    rw [set_cons]
    split
    next hkey =>
      rw [get?_cons, get?_cons]
      subst hkey
      split <;> rfl
    next hkey =>
      rw [get?_cons, get?_cons, ih]
      split
      next hother =>
        have hne : name ≠ other := fun heq => hkey (hother.trans heq.symm)
        rw [if_neg hne]
      next => rfl

theorem get?_append (first second : Document) :
    get? name (first ++ second) = (get? name first).or (get? name second) := by
  induction first with
  | nil => rfl
  | cons field rest ih =>
    obtain ⟨key, value⟩ := field
    rw [List.cons_append, get?_cons, get?_cons]
    split
    · rfl
    · exact ih

theorem get?_of_mem {name : String} {value : Value} {document : Document}
    (hnodup : (document.map Prod.fst).Nodup) (hmem : (name, value) ∈ document) :
    get? name document = some value := by
  induction document with
  | nil => cases hmem
  | cons field rest ih =>
    obtain ⟨key, old⟩ := field
    simp only [List.map_cons, List.nodup_cons] at hnodup
    rw [get?_cons]
    rcases List.mem_cons.mp hmem with heq | hrest
    · cases heq
      exact if_pos rfl
    · have hne : key ≠ name := by
        rintro rfl
        exact hnodup.1 (List.mem_map_of_mem hrest)
      rw [if_neg hne, ih hnodup.2 hrest]

def getPath : List String → Document → Option Value
  | [], _ => none
  | [name], document => get? name document
  | name :: path, document =>
    match get? name document with
    | some (.document inner) => getPath path inner
    | _ => none

/-- Write along a path, adding the documents on the way that are missing. -/
def setPath : List String → Value → Document → Document
  | [], _, document => document
  | [name], value, document => set name value document
  | name :: path, value, document =>
    match get? name document with
    | some (.document inner) => set name (.document (setPath path value inner)) document
    | none => set name (.document (setPath path value [])) document
    | some _ => document

@[simp] theorem getPath_singleton (document : Document) :
    getPath [name] document = get? name document := rfl

@[simp] theorem setPath_singleton (value : Value) (document : Document) :
    setPath [name] value document = set name value document := rfl

end Document

end Foundation
