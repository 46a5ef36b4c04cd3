import Mathlib.Algebra.Order.Ring.Rat
import Mathlib.Data.String.Basic
import AwsMock.Foundation.Document

/-! # Filters that are documents

A filter given to the server as a document: fields named by dotted paths,
compared with an operand or by operators, and conjunctions of filters. A field
that holds an array satisfies a comparison when one of its elements does. Paths
lead through documents only, and operands are strings and numbers.
-/

namespace Foundation

inductive Comparison where
  | eq
  | gt
  | gte
  | lt
  | lte
deriving DecidableEq, Repr

namespace Comparison

def compares {α : Type*} [LinearOrder α] : Comparison → α → α → Bool
  | .eq, value, operand => value = operand
  | .gt, value, operand => operand < value
  | .gte, value, operand => operand ≤ value
  | .lt, value, operand => value < operand
  | .lte, value, operand => value ≤ operand

def operator : Comparison → String
  | .eq => "$eq"
  | .gt => "$gt"
  | .gte => "$gte"
  | .lt => "$lt"
  | .lte => "$lte"

def ofOperator (name : String) : Option Comparison :=
  [eq, gt, gte, lt, lte].find? fun comparison => comparison.operator = name

@[simp] theorem ofOperator_operator (comparison : Comparison) :
    ofOperator comparison.operator = some comparison := by
  cases comparison <;> rfl

end Comparison

def Scalar.number : Scalar → Option ℚ
  | .int32 value | .int64 value => some value
  | .double value => some value
  | _ => none

/-- Values are only compared with operands of their own kind: strings with
strings, and numbers with numbers. -/
def Comparison.comparesScalar (comparison : Comparison) (operand : Scalar) (value : Scalar) : Bool :=
  match operand, value with
  | .string operand, .string value => comparison.compares value operand
  | operand, value =>
    match operand.number, value.number with
    | some operand, some value => comparison.compares value operand
    | _, _ => false

/-- A value passes a test when it does itself, or when an element of it does. -/
def Value.passes (test : Scalar → Bool) : Value → Bool
  | .scalar value => test value
  | .array values => values.any fun
      | .scalar value => test value
      | _ => false
  | _ => false

namespace FilterDocument

def fieldPath (key : String) : List String := (key.toList.splitOn '.').map String.ofList

def acceptsOperator (value : Option Value) (operator : String × Value) : Bool :=
  match Comparison.ofOperator operator.1, operator.2, value with
  | some comparison, .scalar operand, some value => value.passes (comparison.comparesScalar operand)
  | _, _, _ => false

def acceptsField (value : Option Value) : Value → Bool
  | .document operators => operators.all (acceptsOperator value)
  | operand => acceptsOperator value (Comparison.eq.operator, operand)

mutual

def accepts (document : Document) : Document → Bool
  | [] => true
  | (key, operand) :: rest => acceptsEntry document key operand && accepts document rest

def acceptsEntry (document : Document) (key : String) : Value → Bool
  | .array filters => decide (key = "$and") && acceptsAll document filters
  | operand => acceptsField (document.getPath (fieldPath key)) operand

def acceptsAll (document : Document) : List Value → Bool
  | [] => true
  | filter :: rest => acceptsFilter document filter && acceptsAll document rest

def acceptsFilter (document : Document) : Value → Bool
  | .document filter => accepts document filter
  | _ => false

end

variable (document : Document)

theorem acceptsAll_documents (filters : List Document) :
    acceptsAll document (filters.map Value.document) = filters.all (accepts document) := by
  induction filters with
  | nil => rfl
  | cons filter filters ih => rw [List.map_cons, acceptsAll, ih, List.all_cons, acceptsFilter]

theorem accepts_and (filters : List Document) :
    accepts document [("$and", .array (filters.map .document))] = filters.all (accepts document) := by
  rw [accepts, accepts, acceptsEntry, acceptsAll_documents, decide_eq_true rfl, Bool.and_true,
    Bool.true_and]

theorem accepts_operators (key : String) (operators : List (String × Value)) :
    accepts document [(key, .document operators)] =
      operators.all (acceptsOperator (document.getPath (fieldPath key))) := by
  rw [accepts, accepts, Bool.and_true, acceptsEntry, acceptsField]
  intro filters heq
  cases heq

theorem accepts_operator (key : String) (operator : String × Value) :
    accepts document [(key, .document [operator])] =
      acceptsOperator (document.getPath (fieldPath key)) operator := by
  rw [accepts_operators, List.all_cons, List.all_nil, Bool.and_true]

theorem accepts_scalar (key : String) (scalar : Scalar) :
    accepts document [(key, .scalar scalar)] =
      accepts document [(key, .document [(Comparison.eq.operator, .scalar scalar)])] := by
  rw [accepts_operator, accepts, accepts, Bool.and_true, acceptsEntry, acceptsField]
  · intro operators heq
    cases heq
  · intro filters heq
    cases heq

theorem fieldPath_pair {outer inner : String} (houter : '.' ∉ outer.toList)
    (hinner : '.' ∉ inner.toList) : fieldPath (outer ++ "." ++ inner) = [outer, inner] := by
  have hsplit : (outer ++ "." ++ inner).toList.splitOn '.' = [outer.toList, inner.toList] := by
    rw [String.toList_append, String.toList_append, List.append_assoc]
    change (outer.toList ++ '.' :: inner.toList).splitOn '.' = _
    rw [List.splitOn_append_cons_self_of_not_mem houter, List.splitOn_eq_singleton hinner]
  rw [fieldPath, hsplit]
  simp

theorem fieldPath_singleton {name : String} (hname : '.' ∉ name.toList) :
    fieldPath name = [name] := by
  rw [fieldPath, List.splitOn_eq_singleton hname]
  simp

end FilterDocument

end Foundation
