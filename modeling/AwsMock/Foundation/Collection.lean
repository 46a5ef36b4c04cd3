import Mathlib.Data.List.Sort
import AwsMock.Foundation.Document
import AwsMock.Foundation.ListUpdate

/-! # Document collections

The operations of a document database on one collection: filters, updates and
the find, count, update and delete commands. A collection lists its documents
in natural order. Every command acts on the documents its filter matches, so a
relation between documents and the values they store carries over from filters
and updates to whole collections.
-/

namespace Foundation

inductive Condition where
  | eq (value : Scalar)
  | eqBinary (bytes : List UInt8)
  | lt (milliseconds : Int)
  | startsWith (characters : String)
  | notIn (values : List Scalar)

/-- Evaluate a condition on the value of its field, if the field exists. Range
conditions only match values of their own type. -/
def Condition.holds : Condition → Option Value → Bool
  | .eq expected, some value => value.is expected
  | .eq _, none => false
  | .eqBinary expected, some (.binary bytes) => bytes = expected
  | .eqBinary _, _ => false
  | .lt bound, some (.scalar (.date milliseconds)) => milliseconds < bound
  | .lt _, _ => false
  | .startsWith characters, some (.scalar (.string text)) =>
    characters.toList.isPrefixOf text.toList
  | .startsWith _, _ => false
  | .notIn values, some value => values.all fun excluded => !value.is excluded
  | .notIn _, none => true

theorem Condition.holds_eq_some (expected : Scalar) (value : Value) :
    (Condition.eq expected).holds (some value) = value.is expected := rfl

abbrev Filter := List (List String × Condition)

def Filter.accepts (filter : Filter) (document : Document) : Bool :=
  filter.all fun clause => clause.2.holds (document.getPath clause.1)

@[simp] theorem Filter.accepts_nil (document : Document) :
    Filter.accepts [] document = true := rfl

@[simp] theorem Filter.accepts_cons (clause : List String × Condition) (filter : Filter)
    (document : Document) :
    Filter.accepts (clause :: filter) document =
      (clause.2.holds (document.getPath clause.1) && Filter.accepts filter document) := rfl

/-- Field assignments (`$set`) and increments (`$inc`). -/
structure Update where
  set : List (List String × Scalar) := []
  inc : List (List String × Int) := []

def FitsInt32 (value : Int) : Prop := -2147483648 ≤ value ∧ value < 2147483648

instance (value : Int) : Decidable (FitsInt32 value) :=
  inferInstanceAs (Decidable (_ ∧ _))

/-- A 32-bit sum that overflows is stored as a 64-bit integer. -/
def Scalar.ofSum (value : Int) : Scalar :=
  if FitsInt32 value then .int32 value else .int64 value

/-- Add to a numeric field; a missing field starts at the amount. -/
def Document.increment (path : List String) (amount : Int) (document : Document) : Document :=
  match document.getPath path with
  | some (.scalar (.int32 value)) => document.setPath path (.scalar (.ofSum (value + amount)))
  | some (.scalar (.int64 value)) => document.setPath path (.scalar (.int64 (value + amount)))
  | none => document.setPath path (.scalar (.int32 amount))
  | some _ => document

def Update.apply (update : Update) (document : Document) : Document :=
  let assigned := update.set.foldl
    (fun current field => current.setPath field.1 (.scalar field.2)) document
  update.inc.foldl (fun current field => current.increment field.1 field.2) assigned

/-- Whether an update leaves a document different from what it was. -/
def Update.modifies (update : Update) (document : Document) : Bool :=
  (update.set.any fun field =>
      match document.getPath field.1 with
      | some value => !value.is field.2
      | none => true) ||
    update.inc.any fun field => decide (field.2 ≠ 0)

/-- Whether an update writes neither a field nor anything inside it. -/
def Update.spares (update : Update) (name : String) : Bool :=
  (update.set.all fun field => field.1.head? ≠ some name) &&
    update.inc.all fun field => field.1.head? ≠ some name

section Spares

variable {name : String} {document : Document}

theorem get?_setPath {path : List String} (value : Value) (hpath : path.head? ≠ some name) :
    (document.setPath path value).get? name = document.get? name := by
  cases path with
  | nil => rfl
  | cons head path =>
    have hne : head ≠ name := fun heq => hpath (congrArg some heq)
    cases path with
    | nil => rw [Document.setPath_singleton, Document.get?_set, if_neg hne]
    | cons next path =>
      rw [Document.setPath]
      split
      · rw [Document.get?_set, if_neg hne]
      · rw [Document.get?_set, if_neg hne]
      · rfl
      · exact List.cons_ne_nil _ _

theorem get?_increment {path : List String} (amount : Int) (hpath : path.head? ≠ some name) :
    (document.increment path amount).get? name = document.get? name := by
  rw [Document.increment]
  split
  · exact get?_setPath _ hpath
  · exact get?_setPath _ hpath
  · exact get?_setPath _ hpath
  · rfl

theorem Update.get?_apply {update : Update} (hspares : update.spares name = true) :
    (update.apply document).get? name = document.get? name := by
  rw [spares, Bool.and_eq_true, List.all_eq_true, List.all_eq_true] at hspares
  have hset : ∀ (fields : List (List String × Scalar)) (start : Document),
      (∀ field ∈ fields, field.1.head? ≠ some name) →
      (fields.foldl (fun current field => current.setPath field.1 (.scalar field.2))
        start).get? name = start.get? name := by
    intro fields
    induction fields with
    | nil => intro start _; rfl
    | cons field fields ih =>
      intro start hfields
      rw [List.foldl_cons, ih _ fun other hother => hfields other (List.mem_cons_of_mem _ hother)]
      exact get?_setPath _ (hfields field List.mem_cons_self)
  have hinc : ∀ (fields : List (List String × Int)) (start : Document),
      (∀ field ∈ fields, field.1.head? ≠ some name) →
      (fields.foldl (fun current field => current.increment field.1 field.2)
        start).get? name = start.get? name := by
    intro fields
    induction fields with
    | nil => intro start _; rfl
    | cons field fields ih =>
      intro start hfields
      rw [List.foldl_cons, ih _ fun other hother => hfields other (List.mem_cons_of_mem _ hother)]
      exact get?_increment _ (hfields field List.mem_cons_self)
  rw [apply, hinc _ _ fun field hfield => of_decide_eq_true (hspares.2 field hfield),
    hset _ _ fun field hfield => of_decide_eq_true (hspares.1 field hfield)]

end Spares

abbrev Collection := List Document

namespace Collection

def find (filter : Filter) (collection : Collection) : List Document :=
  List.filter filter.accepts collection

def findOne (filter : Filter) (collection : Collection) : Option Document :=
  List.find? filter.accepts collection

def countDocuments (filter : Filter) (collection : Collection) : Nat :=
  List.countP filter.accepts collection

def insertOne (document : Document) (collection : Collection) : Collection :=
  collection ++ [document]

def updateMany (filter : Filter) (update : Update) (collection : Collection) : Collection :=
  rewriteWhere filter.accepts update.apply collection

/-- The number of documents `updateMany` changes (`modified_count`). -/
def modifiedCount (filter : Filter) (update : Update) (collection : Collection) : Nat :=
  List.countP (fun document => filter.accepts document && update.modifies document) collection

def updateOne (filter : Filter) (update : Update) (collection : Collection) : Collection :=
  rewriteFirst filter.accepts update.apply collection

/-- Claim the first matching document: the updated document, if any, and the
collection with that document updated. -/
def findOneAndUpdate (filter : Filter) (update : Update) (collection : Collection) :
    Option Document × Collection :=
  ((findOne filter collection).map update.apply, updateOne filter update collection)

/-- Replace the first matching document but for its `_id`. -/
def findOneAndReplace (filter : Filter) (replacement : Document) (collection : Collection) :
    Option Document × Collection :=
  let replace (document : Document) : Document :=
    match document.get? "_id" with
    | some id => ("_id", id) :: replacement
    | none => replacement
  ((findOne filter collection).map replace, rewriteFirst filter.accepts replace collection)

def deleteMany (filter : Filter) (collection : Collection) : Collection :=
  List.filter (fun document => !filter.accepts document) collection

def deleteOne (filter : Filter) (collection : Collection) : Collection :=
  List.eraseP filter.accepts collection

end Collection

structure FindOptions where
  limit : Nat := 0
  skip : Int := 0
  sort : List (List String × Int) := []

/-- Compare documents field by field. `order` is the server's order on field
values; a direction of `1` is ascending, any other is descending. -/
def sortsBefore (order : Option Value → Option Value → Bool) :
    List (List String × Int) → Document → Document → Bool
  | [], _, _ => true
  | (path, direction) :: rest, left, right =>
    let first := if direction = 1 then left.getPath path else right.getPath path
    let second := if direction = 1 then right.getPath path else left.getPath path
    if order first second && order second first then sortsBefore order rest left right
    else order first second

/-- The server rejects a negative skip and a sort direction other than ±1. -/
def FindOptions.valid (options : FindOptions) : Bool :=
  decide (0 ≤ options.skip) && options.sort.all fun key => decide (key.2 = 1) || decide (key.2 = -1)

/-- Filter, sort, skip, then limit; `none` when the server rejects the options. -/
def Collection.findPage (order : Option Value → Option Value → Bool) (filter : Filter)
    (options : FindOptions) (collection : Collection) : Option (List Document) :=
  if options.valid then
    let matching := collection.find filter
    let sorted := if options.sort.isEmpty then matching
      else matching.insertionSort fun left right => sortsBefore order options.sort left right
    let rest := sorted.drop options.skip.toNat
    some (if options.limit = 0 then rest else rest.take options.limit)
  else none

end Foundation
