import Mathlib.Data.List.Dedup
import Mathlib.Data.List.Sort
import Mathlib.Data.String.Basic
import AwsMock.Core.Numbers

/-! # Attribute values

The attribute value of a request, the one of an item, the mapper between the
two, and the BSON values items are stored as. The model keeps the tag of a
value and the field the tag is about. Maps are lists of entries with distinct
keys, and copying a map copies its entries.
-/

namespace AwsMock.DynamoDb

open Foundation

/-- `Dto::DynamoDb::AttributeValue`. A value without a known tag has an empty type. -/
inductive AttributeValue where
  | untyped
  | s (stringValue : String)
  | n (numberValue : String)
  | b (binaryValue : List UInt8)
  | bool (boolValue : Bool)
  | null (nullValue : Option Bool)
  | ss (stringSetValue : List String)
  | ns (numberSetValue : List String)
  | bs (binarySetValue : List (List UInt8))
  | l (listValue : List AttributeValue)
  | m (mapValue : List (String × AttributeValue))

/-- `Entity::DynamoDb::DynamoValue`. Sets are sorted and without duplicates. -/
inductive DynamoValue where
  | string (value : String)
  | double (value : ℚ)
  | binary (value : List UInt8)
  | bool (value : Bool)
  | null
  | stringSet (value : List String)
  | doubleSet (value : List ℚ)
  | binarySet (values : List (List UInt8))
  | list (value : List DynamoValue)
  | map (value : List (String × DynamoValue))

/-- The field `stringValue`, which is empty unless the value is a string. -/
def AttributeValue.stringValue : AttributeValue → String
  | .s stringValue => stringValue
  | _ => ""

/-- `std::set` of the elements of a range, in order. -/
def orderedSet {α : Type} [LinearOrder α] (values : List α) : List α :=
  values.dedup.insertionSort (· ≤ ·)

theorem mem_orderedSet {α : Type} [LinearOrder α] {values : List α} {value : α} :
    value ∈ orderedSet values ↔ value ∈ values := by
  rw [orderedSet, List.mem_insertionSort, List.mem_dedup]

theorem orderedSet_eq_iff {α : Type} [LinearOrder α] {first second : List α} :
    orderedSet first = orderedSet second ↔ ∀ value, value ∈ first ↔ value ∈ second := by
  constructor
  · intro heq value
    rw [← mem_orderedSet, heq, mem_orderedSet]
  · intro hmem
    have hperm : first.dedup.Perm second.dedup := by
      rw [List.perm_ext_iff_of_nodup (List.nodup_dedup _) (List.nodup_dedup _)]
      intro value
      rw [List.mem_dedup, List.mem_dedup]
      exact hmem value
    have hsorted : (orderedSet first).Perm (orderedSet second) :=
      ((List.perm_insertionSort _ _).trans hperm).trans (List.perm_insertionSort _ _).symm
    exact hsorted.eq_of_pairwise' (List.pairwise_insertionSort _ _)
      (List.pairwise_insertionSort _ _)

theorem orderedSet_orderedSet {α : Type} [LinearOrder α] (values : List α) :
    orderedSet (orderedSet values) = orderedSet values :=
  orderedSet_eq_iff.mpr fun _ => mem_orderedSet

namespace Mapper

/-- `DoubleToString`: whole numbers without a point, others without trailing zeros. -/
def doubleToString (val : ℚ) : String :=
  if val = val.floor ∧ |val| < 10 ^ 15 then toString val.floor
  else
    let digits := ((toStringDouble val).toList.reverse.dropWhile (· = '0'))
    let kept := if digits.head? = some '.' then digits.tail else digits
    String.ofList kept.reverse

mutual

/-- `Mapper::map`, from the value of an item. The bytes of binaries are copied
from the empty value the result starts with. -/
def mapDynamoValue : DynamoValue → AttributeValue
  | .string val => .s val
  | .double val => .n (doubleToString val)
  | .binary _ => .b []
  | .bool val => .bool val
  | .null => .null none
  | .stringSet val => .ss val
  | .doubleSet val => .ns (val.map toStringDouble)
  | .binarySet values => .bs (values.map fun _ => [])
  | .list val => .l (mapDynamoList val)
  | .map val => .m (mapDynamoMap val)

def mapDynamoList : List DynamoValue → List AttributeValue
  | [] => []
  | el :: rest => mapDynamoValue el :: mapDynamoList rest

def mapDynamoMap : List (String × DynamoValue) → List (String × AttributeValue)
  | [] => []
  | (k, v) :: rest => (k, mapDynamoValue v) :: mapDynamoMap rest

end

mutual

/-- `Mapper::map`, to the value of an item. -/
def mapAttributeValue : AttributeValue → Except CoreException DynamoValue
  | .untyped => .error (.database "Unknown DynamoDB attribute type: ")
  | .s stringValue => .ok (.string stringValue)
  | .n numberValue => return .double (← stod numberValue)
  | .b binaryValue => .ok (.binary binaryValue)
  | .bool boolValue => .ok (.bool boolValue)
  | .null _ => .ok .null
  | .ss stringSetValue => .ok (.stringSet (orderedSet stringSetValue))
  | .ns numberSetValue => return .doubleSet (orderedSet (← numberSetValue.mapM stod))
  | .bs binarySetValue => .ok (.binarySet binarySetValue)
  | .l listValue => return .list (← mapAttributeList listValue)
  | .m mapValue => return .map (← mapAttributeMap mapValue)

def mapAttributeList : List AttributeValue → Except CoreException (List DynamoValue)
  | [] => .ok []
  | el :: rest => return (← mapAttributeValue el) :: (← mapAttributeList rest)

def mapAttributeMap :
    List (String × AttributeValue) → Except CoreException (List (String × DynamoValue))
  | [] => .ok []
  | (k, v) :: rest => return (k, ← mapAttributeValue v) :: (← mapAttributeMap rest)

end

end Mapper

mutual

/-- `Item::DynamoValueToBson`. Sets of binaries are not handled. -/
def DynamoValue.toBson : DynamoValue → Except CoreException Value
  | .string value => .ok (.scalar (.string value))
  | .double value => .ok (.scalar (.double value))
  | .bool value => .ok (.scalar (.bool value))
  | .null => .ok (.scalar .null)
  | .binary value => .ok (.binary value)
  | .stringSet value => .ok (.array (value.map fun s => .scalar (.string s)))
  | .doubleSet value => .ok (.array (value.map fun n => .scalar (.double n)))
  | .list value => return .array (← toBsonList value)
  | .map value => return .document (← toBsonMap value)
  | .binarySet _ => .error (.database "Unhandled KeyValue type")

def toBsonList : List DynamoValue → Except CoreException (List Value)
  | [] => .ok []
  | item :: rest => return (← item.toBson) :: (← toBsonList rest)

def toBsonMap : List (String × DynamoValue) → Except CoreException (List (String × Value))
  | [] => .ok []
  | (k, v) :: rest => return (k, ← v.toBson) :: (← toBsonMap rest)

end

/-- The driver's `get_double`. -/
def getDouble : Value → Except CoreException ℚ
  | .scalar (.double value) => .ok value
  | _ => .error (.standard "expected element type k_double")

mutual

/-- `Item::DynamoValueFromBson`. The first element of an array decides what the
array is read as. -/
def DynamoValue.fromBson : Value → Except CoreException DynamoValue
  | .scalar (.string value) => .ok (.string value)
  | .scalar (.double value) => .ok (.double value)
  | .scalar (.int32 value) => .ok (.double value)
  | .scalar (.int64 value) => .ok (.double (nearestDouble value))
  | .scalar (.bool value) => .ok (.bool value)
  | .scalar .null => .ok .null
  | .binary bytes => .ok (.binary bytes)
  | .array values =>
    match values with
    | [] => .ok (.list [])
    | .scalar (.string _) :: _ =>
      return .stringSet (orderedSet (← values.mapM fun el => BsonUtils.getString (some el)))
    | .scalar (.double _) :: _ => return .doubleSet (orderedSet (← values.mapM getDouble))
    | _ => return .list (← fromBsonList values)
  | .document fields => return .map (← fromBsonMap fields)
  | .scalar (.date _) | .scalar (.objectId _) =>
    .error (.standard "Unexpected BSON type for DynamoValue")

def fromBsonList : List Value → Except CoreException (List DynamoValue)
  | [] => .ok []
  | el :: rest => return (← DynamoValue.fromBson el) :: (← fromBsonList rest)

def fromBsonMap : List (String × Value) → Except CoreException (List (String × DynamoValue))
  | [] => .ok []
  | (key, value) :: rest => return (key, ← DynamoValue.fromBson value) :: (← fromBsonMap rest)

end

end AwsMock.DynamoDb
