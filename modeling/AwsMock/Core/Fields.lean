import AwsMock.Core.Bson
import AwsMock.Foundation.Fields
import AwsMock.Foundation.Traverse

/-! # Entities as tables of fields

What the accessors read from a document that is given by a table, and maps and lists in fields:
how they are written, and how they are read into what an entity already holds.
-/

namespace AwsMock

open Foundation

namespace StringMap

variable {α : Type} {map base : StringMap α} {key : String}

/-- The entries of a map are emplaced: a key that is there keeps its value. -/
def emplaceAll (base map : StringMap α) : StringMap α :=
  map.toList.foldl (fun result entry => result.insertIfNew entry.1 entry.2) base

def assignAll (base map : StringMap α) : StringMap α :=
  map.toList.foldl (fun result entry => result.insert entry.1 entry.2) base

theorem emplaceAll_empty : emplaceAll ∅ map = map := foldl_insertIfNew_toList

theorem assignAll_empty : assignAll ∅ map = map := foldl_insert_toList

theorem getElem?_foldl_insertIfNew {entries : List (String × α)} :
    (entries.foldl (fun result entry => result.insertIfNew entry.1 entry.2) base)[key]? =
      (base[key]?).or ((entries.find? (compare ·.1 key == .eq)).map Prod.snd) := by
  induction entries generalizing base with
  | nil => exact Option.or_none.symm
  | cons entry entries ih =>
    rw [List.foldl_cons, ih, Std.ExtTreeMap.getElem?_insertIfNew, List.find?_cons]
    by_cases hcompare : compare entry.1 key = .eq
    · obtain rfl := Std.compare_eq_iff_eq.mp hcompare
      cases hvalue : base[entry.1]? with
      | some value =>
        have hmem : entry.1 ∈ base :=
          Std.ExtTreeMap.mem_iff_isSome_getElem?.mpr (by rw [hvalue]; rfl)
        rw [if_neg fun hnew => hnew.2 hmem]
        rfl
      | none =>
        have hnot : entry.1 ∉ base := fun hmem => by
          rw [Std.ExtTreeMap.mem_iff_isSome_getElem?, hvalue] at hmem
          cases hmem
        rw [if_pos ⟨hcompare, hnot⟩, hcompare]
        rfl
    · rw [if_neg fun hnew => hcompare hnew.1, beq_false_of_ne hcompare]

theorem getElem?_emplaceAll : (emplaceAll base map)[key]? = (base[key]?).or map[key]? := by
  rw [emplaceAll, getElem?_foldl_insertIfNew]
  cases hfind : map.toList.find? (compare ·.1 key == .eq) with
  | none =>
    rw [Std.ExtTreeMap.getElem?_eq_none (Std.ExtTreeMap.find?_toList_eq_none_iff_not_mem.mp hfind)]
    rfl
  | some entry =>
    have hentry :=
      Std.ExtTreeMap.find?_toList_eq_some_iff_getKey?_eq_some_and_getElem?_eq_some.mp hfind
    rw [hentry.2]
    rfl

theorem getElem?_assignAll : (assignAll base map)[key]? = (map[key]?).or base[key]? :=
  getElem?_foldl_insert base key

theorem emplaceAll_eq_iff :
    emplaceAll base map = map ↔ ∀ (key : String) (value : α), base[key]? = some value → map[key]? = some value := by
  constructor
  · intro heq key value hvalue
    rw [← heq, getElem?_emplaceAll, hvalue]
    rfl
  · intro hentries
    refine Std.ExtTreeMap.ext_getElem? fun {key} => ?_
    rw [getElem?_emplaceAll]
    cases hvalue : base[key]? with
    | none => rfl
    | some value => exact (hentries key value hvalue).symm

theorem assignAll_eq_iff : assignAll base map = map ↔ ∀ key ∈ base, key ∈ map := by
  constructor
  · intro heq key hkey
    rw [Std.ExtTreeMap.mem_iff_isSome_getElem?] at hkey ⊢
    rw [← heq, getElem?_assignAll, Option.isSome_or, hkey, Bool.or_true]
  · intro hkeys
    refine Std.ExtTreeMap.ext_getElem? fun {key} => ?_
    rw [getElem?_assignAll]
    cases hvalue : map[key]? with
    | some value => rfl
    | none =>
      have hnot : key ∉ base := fun hkey => by
        have hmem := hkeys key hkey
        rw [Std.ExtTreeMap.mem_iff_isSome_getElem?, hvalue] at hmem
        cases hmem
      exact Std.ExtTreeMap.getElem?_eq_none hnot

theorem map_eq_iff {image : α → α} :
    (map.map fun _ => image) = map ↔
      ∀ (key : String) (value : α), map[key]? = some value → image value = value := by
  constructor
  · intro heq key value hvalue
    have hread : (map.map fun _ => image)[key]? = map[key]? := by rw [heq]
    rw [Std.ExtTreeMap.getElem?_map, hvalue] at hread
    exact Option.some.inj hread
  · intro hvalues
    refine Std.ExtTreeMap.ext_getElem? fun {key} => ?_
    rw [Std.ExtTreeMap.getElem?_map]
    cases hvalue : map[key]? with
    | none => rfl
    | some value => exact congrArg some (hvalues key value hvalue)

end StringMap

def Fits32 (value : Int) : Prop := -2147483648 ≤ value ∧ value < 2147483648

theorem toInt32_eq_iff {value : Int} : toInt32 value = value ↔ Fits32 value := by
  constructor
  · intro heq
    have hfits := toInt32_fits value
    rwa [heq] at hfits
  · rintro ⟨hlow, hhigh⟩
    exact toInt32_of_fits hlow hhigh

namespace BsonUtils

section Values

variable {fields : List (String × Option Value)} {name : String}

theorem setStringValue_eq (document : Document) (name value : String) :
    setStringValue document name value = document ++ Document.ofFields [(name, textField value)] := by
  unfold setStringValue textField
  split <;> simp [Document.ofFields]

theorem setLongValue_eq (document : Document) (name : String) (value : Int) :
    setLongValue document name value =
      document ++ Document.ofFields [(name, some (.scalar (.int64 value)))] := rfl

theorem setDateValue_eq (document : Document) (name : String) (value : Time) :
    setDateValue document name value =
      document ++ Document.ofFields [(name, some (.scalar (.date value)))] := rfl

theorem setDocumentValue_eq (document : Document) (name : String) (value : Document) :
    setDocumentValue document name value =
      document ++ Document.ofFields [(name, some (.document value))] := rfl

def setBoolValue (document : Document) (name : String) (value : Bool) : Document :=
  document ++ [(name, .scalar (.bool value))]

def setArrayValue (document : Document) (name : String) (values : List Value) : Document :=
  document ++ [(name, .array values)]

def getDoubleValue (document : Document) (name : String) : Rat :=
  match document.get? name with
  | some (.scalar (.double value)) => value
  | _ => 0

theorem setBoolValue_eq (document : Document) (name : String) (value : Bool) :
    setBoolValue document name value =
      document ++ Document.ofFields [(name, some (.scalar (.bool value)))] := rfl

theorem setArrayValue_eq (document : Document) (name : String) (values : List Value) :
    setArrayValue document name values =
      document ++ Document.ofFields [(name, some (.array values))] := rfl

/-- The driver's `append` of one field. -/
def appendField (document : Document) (name : String) (value : Value) : Document :=
  document ++ [(name, value)]

theorem appendField_eq (document : Document) (name : String) (value : Value) :
    appendField document name value = document ++ Document.ofFields [(name, some value)] := rfl

variable {document : Document} {value : Int}

theorem getOidValue_of_none {name : String}
    (hfield : document.get? name = none) : getOidValue document name = "" := by
  rw [getOidValue, hfield]

theorem getStringValue_of_none {name : String}
    (hfield : document.get? name = none) : getStringValue document name = "" := by
  rw [getStringValue, hfield]

theorem getLongValue_of_int64 {name : String}
    (hfield : document.get? name = some (.scalar (.int64 value))) :
    getLongValue document name = .ok value := by
  rw [getLongValue, hfield]

theorem getIntValue_of_int32 {name : String}
    (hfield : document.get? name = some (.scalar (.int32 value))) :
    getIntValue document name = .ok value := by
  rw [getIntValue, hfield]

theorem getIntValue_of_int64 {name : String}
    (hfield : document.get? name = some (.scalar (.int64 value))) :
    getIntValue document name = .ok (toInt32 value) := by
  rw [getIntValue, hfield]

theorem getBoolValue_of_bool {name : String} {value : Bool}
    (hfield : document.get? name = some (.scalar (.bool value))) :
    getBoolValue document name = value := by
  rw [getBoolValue, hfield]

theorem getDateValue_of_date {name : String} {value : Time}
    (hfield : document.get? name = some (.scalar (.date value))) :
    getDateValue document name = value := by
  rw [getDateValue, hfield]

end Values

section Containers

variable {α β : Type}

def mapDocument (write : α → Value) (map : StringMap α) : Document :=
  map.toList.map fun entry => (entry.1, write entry.2)

/-- Read every field of a document into a map: `select` is the element that is read, that of the
iteration or the one that the key gives, and `store` what becomes of a key that is there. -/
def readMap (select : Document → String × Value → Option Value)
    (read : Option Value → Except CoreException α)
    (store : StringMap α → String → α → StringMap α) (base : StringMap α) (document : Document) :
    Except CoreException (StringMap α) :=
  document.foldlM
    (fun map field => do
      let value ← read (select document field)
      return store map field.1 value) base

def element (_ : Document) (field : String × Value) : Option Value := some field.2

def byKey (document : Document) (field : String × Value) : Option Value := document.get? field.1

def readElements (read : Option Value → Except CoreException α) (base : List α)
    (values : List Value) : Except CoreException (List α) := do
  let elements ← values.mapM fun value => read (some value)
  return base ++ elements

def readDocumentField (read : Document → Except CoreException α) (value : Option Value) :
    Except CoreException α := do
  read (← getDocument value)

def readIfFound (document : Document) (name : String) (base : α)
    (read : Option Value → Except CoreException α) : Except CoreException α :=
  match document.get? name with
  | some value => read (some value)
  | none => .ok base

variable {read : Option Value → Except CoreException α} {write : α → Value}

theorem readIfFound_of_some {document : Document} {name : String} {base : α} {value : Value}
    (hfield : document.get? name = some value) :
    readIfFound document name base read = read (some value) := by
  rw [readIfFound, hfield]

theorem readIfFound_of_none {document : Document} {name : String} {base : α}
    (hfield : document.get? name = none) :
    readIfFound document name base read = .ok base := by
  rw [readIfFound, hfield]

theorem readDocumentField_document (read : Document → Except CoreException α)
    (document : Document) : readDocumentField read (some (.document document)) = read document := rfl

theorem byKey_mapDocument {map : StringMap α} {entry : String × α} (hentry : entry ∈ map.toList) :
    byKey (mapDocument write map) (entry.1, write entry.2) = some (write entry.2) := by
  have hnodup : ((mapDocument write map).map Prod.fst).Nodup := by
    rw [mapDocument, List.map_map]
    exact StringMap.nodup_keys_toList
  exact Document.get?_of_mem hnodup (List.mem_map.mpr ⟨entry, hentry, rfl⟩)

theorem readMap_mapDocument {select : Document → String × Value → Option Value}
    {read : Option Value → Except CoreException β} {store : StringMap β → String → β → StringMap β}
    {image : α → β} {map : StringMap α}
    (hselect : ∀ entry ∈ map.toList,
      select (mapDocument write map) (entry.1, write entry.2) = some (write entry.2))
    (hread : ∀ value, read (some (write value)) = .ok (image value)) (base : StringMap β) :
    readMap select read store base (mapDocument write map) =
      .ok ((map.map fun _ => image).toList.foldl
        (fun result entry => store result entry.1 entry.2) base) := by
  have hstep : ∀ entries : List (String × α), (∀ entry ∈ entries, entry ∈ map.toList) →
      ∀ base, (entries.map fun entry => (entry.1, write entry.2)).foldlM
        (fun map' field => do
          let value ← read (select (mapDocument write map) field)
          return store map' field.1 value) base =
        .ok ((entries.map fun entry => (entry.1, image entry.2)).foldl
          (fun result entry => store result entry.1 entry.2) base) := by
    intro entries hentries
    induction entries with
    | nil => exact fun _ => rfl
    | cons entry entries ih =>
      intro base
      rw [List.map_cons, List.foldlM_cons, hselect entry (hentries entry List.mem_cons_self), hread]
      exact ih (fun other hother => hentries other (List.mem_cons_of_mem _ hother)) _
  rw [Std.ExtTreeMap.toList_map]
  exact hstep map.toList (fun _ hentry => hentry) base

theorem readElements_map {read : Option Value → Except CoreException β}
    {image : α → β} (hread : ∀ value, read (some (write value)) = .ok (image value))
    (base : List β) (elements : List α) :
    readElements read base (elements.map write) = .ok (base ++ elements.map image) := by
  have hmap : (elements.map write).mapM (fun value => read (some value)) =
      .ok (elements.map image) := by
    induction elements with
    | nil => rfl
    | cons first elements ih =>
      rw [List.map_cons, List.mapM_cons, hread, ih]
      rfl
  rw [readElements, hmap]
  rfl

theorem map_eq_self_iff {image : α → α} {elements : List α} :
    elements.map image = elements ↔ ∀ element ∈ elements, image element = element := by
  conv_lhs => rw [← List.map_id elements, List.map_map]
  exact List.map_inj_left

theorem readElements_exact
    (hread : ∀ value, read (some (write value)) = .ok value) (base elements : List α) :
    readElements read base (elements.map write) = .ok (base ++ elements) := by
  rw [@readElements_map _ _ write read id hread, List.map_id]

theorem map_same (map : StringMap α) : (map.map fun _ value => value) = map :=
  Std.ExtTreeMap.map_id

def stringsDocument (map : StringMap String) : Document :=
  mapDocument (fun text => .scalar (.string text)) map

def stringValues (texts : List String) : List Value :=
  texts.map fun text => .scalar (.string text)

theorem readMap_stringsDocument (store : StringMap String → String → String → StringMap String)
    (base map : StringMap String) :
    readMap byKey getString store base (stringsDocument map) =
      .ok (map.toList.foldl (fun result entry => store result entry.1 entry.2) base) := by
  have hread : ∀ text : String, getString (some (.scalar (.string text))) = .ok text :=
    fun _ => rfl
  rw [stringsDocument, readMap_mapDocument (fun _ hentry => byKey_mapDocument hentry) hread,
    map_same]

theorem readElements_stringValues (base texts : List String) :
    readElements getString base (stringValues texts) = .ok (base ++ texts) :=
  readElements_exact (fun _ => rfl) base texts

def readArrayField (read : Option Value → Except CoreException α) (base : List α)
    (value : Option Value) : Except CoreException (List α) := do
  readElements read base (← getArray value)

theorem readArrayField_array (read : Option Value → Except CoreException α) (base : List α)
    (values : List Value) :
    readArrayField read base (some (.array values)) = readElements read base values := rfl

end Containers

end BsonUtils

end AwsMock
