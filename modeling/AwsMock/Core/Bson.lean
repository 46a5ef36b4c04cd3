import Std.Data.ExtTreeMap
import AwsMock.Foundation.Document
import AwsMock.Core.Environment

/-! # Reading and writing document fields

The field accessors of `BsonUtils` and `MongoUtils`, and the number parsers of
the standard library they call. A missing field or a null reads as a default
value; a value of a type an accessor cannot convert reads as the default or
throws, as the accessor does.
-/

namespace AwsMock

open Foundation

/-- `std::map<std::string, α>`. -/
abbrev StringMap (α : Type) := Std.ExtTreeMap String α

namespace StringMap

variable {α : Type} {map : StringMap α}

theorem nodup_keys_toList : (map.toList.map Prod.fst).Nodup := by
  rw [List.Nodup, List.pairwise_map]
  refine Std.ExtTreeMap.distinct_keys_toList.imp ?_
  intro first second hne heq
  exact hne (Std.compare_eq_iff_eq.mpr heq)

theorem getElem?_foldl_insert (base : StringMap α) (key : String) :
    (map.toList.foldl (fun result entry => result.insert entry.1 entry.2) base)[key]? =
      (map[key]?).or base[key]? := by
  rw [← Std.ExtTreeMap.insertMany_list_eq_foldl]
  cases hvalue : map[key]? with
  | some value =>
    exact Std.ExtTreeMap.getElem?_insertMany_list_of_mem Std.compare_self
      Std.ExtTreeMap.distinct_keys_toList
      (Std.ExtTreeMap.mem_toList_iff_getElem?_eq_some.mpr hvalue)
  | none =>
    rw [Std.ExtTreeMap.getElem?_insertMany_list_of_contains_eq_false]
    · rfl
    · rw [← Bool.not_eq_true, List.contains_iff_mem]
      intro hmem
      obtain ⟨entry, hentry, rfl⟩ := List.mem_map.mp hmem
      rw [Std.ExtTreeMap.mem_toList_iff_getElem?_eq_some.mp hentry] at hvalue
      cases hvalue

theorem foldl_insert_toList :
    map.toList.foldl (fun result entry => result.insert entry.1 entry.2) (∅ : StringMap α) =
      map := by
  refine Std.ExtTreeMap.ext_getElem? fun {key} => ?_
  rw [getElem?_foldl_insert, Std.ExtTreeMap.getElem?_empty, Option.or_none]

theorem foldl_insertIfNew_eq_foldl_insert {entries : List (String × α)} {acc : StringMap α}
    (hnodup : (entries.map Prod.fst).Nodup) (hfresh : ∀ entry ∈ entries, entry.1 ∉ acc) :
    entries.foldl (fun result entry => result.insertIfNew entry.1 entry.2) acc =
      entries.foldl (fun result entry => result.insert entry.1 entry.2) acc := by
  induction entries generalizing acc with
  | nil => rfl
  | cons entry entries ih =>
    simp only [List.map_cons, List.nodup_cons] at hnodup
    have hinsert : acc.insertIfNew entry.1 entry.2 = acc.insert entry.1 entry.2 := by
      refine Std.ExtTreeMap.ext_getElem? fun key => ?_
      have hentry := hfresh entry List.mem_cons_self
      simp [Std.ExtTreeMap.getElem?_insertIfNew, Std.ExtTreeMap.getElem?_insert, hentry]
    rw [List.foldl_cons, List.foldl_cons, hinsert]
    refine ih hnodup.2 fun other hother hmem => ?_
    rcases Std.ExtTreeMap.mem_insert.mp hmem with heq | hacc
    · rw [Std.compare_eq_iff_eq] at heq
      exact hnodup.1 (heq ▸ List.mem_map_of_mem hother)
    · exact hfresh other (List.mem_cons_of_mem _ hother) hacc

theorem foldl_insertIfNew_toList :
    map.toList.foldl (fun result entry => result.insertIfNew entry.1 entry.2)
      (∅ : StringMap α) = map := by
  rw [foldl_insertIfNew_eq_foldl_insert nodup_keys_toList fun _ _ => by simp,
    foldl_insert_toList]

end StringMap

theorem bind_eq_ok {ε α β : Type} {first : Except ε α} {next : α → Except ε β} {result : β} :
    (first >>= next) = .ok result ↔ ∃ value, first = .ok value ∧ next value = .ok result := by
  cases first <;> simp [bind, Except.bind]

theorem mapError_eq_ok {ε ε' α : Type} {translate : ε → ε'} {first : Except ε α} {result : α} :
    first.mapError translate = .ok result ↔ first = .ok result := by
  cases first <;> simp [Except.mapError]

/-- `strtol` in base ten, without its range: leading blanks and a sign are
skipped, and parsing stops at the first character that is not a digit. -/
def parseDecimal (s : String) : Option Int :=
  let text := s.toList.dropWhile fun c => c = ' ' || ('\t' ≤ c && c ≤ '\r')
  let unsigned := match text with
    | '-' :: rest => rest
    | '+' :: rest => rest
    | rest => rest
  let digits := unsigned.takeWhile Char.isDigit
  let magnitude : Int := digits.foldl (fun value c => 10 * value + (c.toNat - 48 : Nat)) 0
  if digits.isEmpty then none
  else if text.head? = some '-' then some (-magnitude) else some magnitude

/-- `std::stol`. -/
def stol (s : String) : Except CoreException Int :=
  match parseDecimal s with
  | some value =>
    if -9223372036854775808 ≤ value ∧ value ≤ 9223372036854775807 then .ok value
    else .error (.standard "stol")
  | none => .error (.standard "stol")

/-- `std::stoi`. -/
def stoi (s : String) : Except CoreException Int :=
  match parseDecimal s with
  | some value =>
    if -2147483648 ≤ value ∧ value ≤ 2147483647 then .ok value else .error (.standard "stoi")
  | none => .error (.standard "stoi")

/-- A conversion to `int`: values outside the range wrap. -/
def toInt32 (value : Int) : Int := value.bmod 4294967296

theorem toInt32_of_fits {value : Int} (hlow : -2147483648 ≤ value) (hhigh : value < 2147483648) :
    toInt32 value = value := by
  rw [toInt32, Int.bmod_def]
  omega

theorem toInt32_fits (value : Int) :
    -2147483648 ≤ toInt32 value ∧ toInt32 value < 2147483648 := by
  rw [toInt32, Int.bmod_def]
  omega

namespace BsonUtils

def setStringValue (document : Document) (name value : String) : Document :=
  if value = "" then document else document ++ [(name, .scalar (.string value))]

def setLongValue (document : Document) (name : String) (value : Int) : Document :=
  document ++ [(name, .scalar (.int64 value))]

def setDateValue (document : Document) (name : String) (value : Time) : Document :=
  document ++ [(name, .scalar (.date value))]

def setDocumentValue (document : Document) (name : String) (value : Document) : Document :=
  document ++ [(name, .document value)]

section

variable (document : Document) (name other : String)

theorem get?_setStringValue (value : String) :
    (setStringValue document name value).get? other = (document.get? other).or
        (if name = other ∧ value ≠ "" then some (.scalar (.string value)) else none) := by
  by_cases hvalue : value = ""
  · simp [setStringValue, hvalue]
  · simp [setStringValue, hvalue, Document.get?_append, Document.get?_cons]

theorem get?_setLongValue (value : Int) :
    (setLongValue document name value).get? other =
      (document.get? other).or (if name = other then some (.scalar (.int64 value)) else none) := by
  simp [setLongValue, Document.get?_append, Document.get?_cons]

theorem get?_setDateValue (value : Time) :
    (setDateValue document name value).get? other =
      (document.get? other).or (if name = other then some (.scalar (.date value)) else none) := by
  simp [setDateValue, Document.get?_append, Document.get?_cons]

theorem get?_setDocumentValue (value : Document) :
    (setDocumentValue document name value).get? other =
      (document.get? other).or (if name = other then some (.document value) else none) := by
  simp [setDocumentValue, Document.get?_append, Document.get?_cons]

end

def getOidValue (document : Document) (name : String) : String :=
  match document.get? name with
  | some (.scalar (.objectId value)) => value
  | _ => ""

def getStringValue (document : Document) (name : String) : String :=
  match document.get? name with
  | some (.scalar (.string value)) => value
  | _ => ""

/-- What a field holds that `setStringValue` wrote: an empty string is left out. -/
def textField (value : String) : Option Value :=
  if value = "" then none else some (.scalar (.string value))

theorem getStringValue_of_textField {document : Document} {name value : String}
    (hfield : document.get? name = textField value) : getStringValue document name = value := by
  rw [getStringValue, hfield, textField]
  by_cases hvalue : value = ""
  · rw [if_pos hvalue, hvalue]
  · rw [if_neg hvalue]

theorem textField_inj {first second : String} (heq : textField first = textField second) :
    first = second := by
  by_cases hfirst : first = "" <;> by_cases hsecond : second = "" <;>
    simp_all [textField]

theorem getStringValue_of_string {document : Document} {name value : String}
    (hfield : document.get? name = some (.scalar (.string value))) :
    getStringValue document name = value := by
  rw [getStringValue, hfield]

theorem get?_setStringValue_two (first second : String) (hne : first ≠ second)
    (value other : String) :
    (setStringValue (setStringValue [] first value) second other).get? first = textField value ∧
      (setStringValue (setStringValue [] first value) second other).get? second =
        textField other := by
  constructor
  · by_cases hvalue : value = "" <;>
      simp [get?_setStringValue, textField, hvalue, hne.symm]
  · by_cases hother : other = "" <;>
      simp [get?_setStringValue, textField, hother, hne]

def getLongValue (document : Document) (name : String) : Except CoreException Int :=
  match document.get? name with
  | some (.scalar (.int32 value)) => .ok value
  | some (.scalar (.int64 value)) => .ok value
  | some (.scalar (.string value)) => stol value
  | _ => .ok 0

def getIntValue (document : Document) (name : String) : Except CoreException Int :=
  match document.get? name with
  | some (.scalar (.int32 value)) => .ok value
  | some (.scalar (.int64 value)) => .ok (toInt32 value)
  | some (.scalar (.string value)) => stoi value
  | _ => .ok 0

def getBoolValue (document : Document) (name : String) : Bool :=
  match document.get? name with
  | some (.scalar (.bool value)) => value
  | _ => false

def getDateValue (document : Document) (name : String) : Time :=
  match document.get? name with
  | some (.scalar (.date milliseconds)) => milliseconds
  | _ => 0

/-- The driver's `get_string`. -/
def getString : Option Value → Except CoreException String
  | some (.scalar (.string value)) => .ok value
  | _ => .error (.standard "expected element type k_string")

/-- The driver's `get_document`. -/
def getDocument : Option Value → Except CoreException Document
  | some (.document fields) => .ok fields
  | _ => .error (.standard "expected element type k_document")

/-- The driver's `get_array`. -/
def getArray : Option Value → Except CoreException (List Value)
  | some (.array values) => .ok values
  | _ => .error (.standard "expected element type k_array")

/-- The driver's `get_binary`. -/
def getBinary : Option Value → Except CoreException (List UInt8)
  | some (.binary bytes) => .ok bytes
  | _ => .error (.standard "expected element type k_binary")

end BsonUtils

namespace MongoUtils

/-- The value a time is written as: times up to the epoch are written as null. -/
def datetimeValue (datetime : Time) : Value :=
  if 0 < datetime then .scalar (.date datetime) else .scalar .null

def setDatetime (document : Document) (name : String) (datetime : Time) : Document :=
  document ++ [(name, datetimeValue datetime)]

def getDatetime (document : Document) (name : String) : Except CoreException Time :=
  match document.get? name with
  | none => .ok timePointMin
  | some (.scalar .null) => .ok timePointMin
  | some (.scalar (.date milliseconds)) => .ok milliseconds
  | some _ => .error (.standard "expected element type k_date")

end MongoUtils

end AwsMock
