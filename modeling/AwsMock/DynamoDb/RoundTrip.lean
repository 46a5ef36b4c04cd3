import AwsMock.DynamoDb.AttributeValue
import AwsMock.Foundation.Traverse

/-! # Attribute values that survive storage

Storing an attribute value maps it to an item value and writes that as BSON;
reading goes the other way. Binaries lose their bytes in the mapper, sets of
binaries cannot be written, and an array is read as a list or a set by its
first element.
-/

namespace AwsMock.DynamoDb

open Foundation Mapper

namespace AttributeValue

mutual

def ForAll (property : AttributeValue → Prop) : AttributeValue → Prop
  | .l listValue => property (.l listValue) ∧ ForAllList property listValue
  | .m mapValue => property (.m mapValue) ∧ ForAllMap property mapValue
  | value => property value

def ForAllList (property : AttributeValue → Prop) : List AttributeValue → Prop
  | [] => True
  | el :: rest => ForAll property el ∧ ForAllList property rest

def ForAllMap (property : AttributeValue → Prop) : List (String × AttributeValue) → Prop
  | [] => True
  | (_, v) :: rest => ForAll property v ∧ ForAllMap property rest

end

mutual

def canonical : AttributeValue → AttributeValue
  | .null nullValue => .null (some (nullValue.getD true))
  | .ss stringSetValue => .ss (orderedSet stringSetValue)
  | .ns numberSetValue => .ns (orderedSet numberSetValue)
  | .l listValue => .l (canonicalList listValue)
  | .m mapValue => .m (canonicalMap mapValue)
  | value => value

def canonicalList : List AttributeValue → List AttributeValue
  | [] => []
  | el :: rest => canonical el :: canonicalList rest

def canonicalMap : List (String × AttributeValue) → List (String × AttributeValue)
  | [] => []
  | (k, v) :: rest => (k, canonical v) :: canonicalMap rest

end

/-- Equality of attribute values, with sets compared as sets. -/
def Same (first second : AttributeValue) : Prop := first.canonical = second.canonical

end AttributeValue

def readBack (value : AttributeValue) : Except CoreException DynamoValue := do
  DynamoValue.fromBson (← DynamoValue.toBson (← mapAttributeValue value))

namespace AttributeValue

def RoundTrips (value : AttributeValue) : Prop :=
  ∃ back, readBack value = .ok back ∧ (mapDynamoValue back).Same value

/-- The values in question: without sets of numbers, and with numbers that are
whole and below `10 ^ 15`. -/
def IsWhole : AttributeValue → Prop
  | .untyped | .ns _ => False
  | .n numberValue => ∃ number : Int, |number| < 10 ^ 15 ∧ numberValue = toString number
  | _ => True

/-- Whether a value is read back as it was, apart from the values in it. -/
def Keeps : AttributeValue → Prop
  | .b binaryValue => binaryValue = []
  | .bs _ => False
  | .ss stringSetValue => stringSetValue ≠ []
  | .null nullValue => nullValue ≠ some false
  | .l (.s _ :: _) | .l (.n _ :: _) => False
  | _ => True

theorem induction {motive : AttributeValue → Prop}
    (leaf : ∀ value, (∀ xs, value ≠ .l xs) → (∀ entries, value ≠ .m entries) → motive value)
    (l : ∀ xs, (∀ x ∈ xs, motive x) → motive (.l xs))
    (m : ∀ entries, (∀ entry ∈ entries, motive entry.2) → motive (.m entries)) :
    ∀ value, motive value
  | .l xs => l xs fun x _ => induction leaf l m x
  | .m entries => m entries fun entry _ => induction leaf l m entry.2
  | .untyped => leaf _ nofun nofun
  | .s _ => leaf _ nofun nofun
  | .n _ => leaf _ nofun nofun
  | .b _ => leaf _ nofun nofun
  | .bool _ => leaf _ nofun nofun
  | .null _ => leaf _ nofun nofun
  | .ss _ => leaf _ nofun nofun
  | .ns _ => leaf _ nofun nofun
  | .bs _ => leaf _ nofun nofun
termination_by value => sizeOf value
decreasing_by
  · simp_wf
    have hsize := List.sizeOf_lt_of_mem ‹_ ∈ _›
    omega
  · simp_wf
    have hsize := List.sizeOf_lt_of_mem ‹_ ∈ _›
    cases entry
    simp at hsize ⊢
    omega

variable {property : AttributeValue → Prop} {entries : List (String × AttributeValue)}

theorem forAllList_iff {xs : List AttributeValue} :
    ForAllList property xs ↔ ∀ x ∈ xs, ForAll property x := by
  induction xs with
  | nil => exact iff_of_true trivial (List.forall_mem_nil _)
  | cons x xs ih =>
    rw [List.forall_mem_cons, ← ih]
    rfl

theorem forAllMap_iff :
    ForAllMap property entries ↔ ∀ entry ∈ entries, ForAll property entry.2 := by
  induction entries with
  | nil => exact iff_of_true trivial (List.forall_mem_nil _)
  | cons entry entries ih =>
    rw [List.forall_mem_cons, ← ih]
    rfl

theorem forAll_l {xs : List AttributeValue} :
    ForAll property (.l xs) ↔ property (.l xs) ∧ ∀ x ∈ xs, ForAll property x :=
  and_congr_right fun _ => forAllList_iff

theorem forAll_m :
    ForAll property (.m entries) ↔
      property (.m entries) ∧ ∀ entry ∈ entries, ForAll property entry.2 :=
  and_congr_right fun _ => forAllMap_iff

theorem canonicalList_eq (xs : List AttributeValue) : canonicalList xs = xs.map canonical := by
  induction xs with
  | nil => rfl
  | cons x xs ih =>
    rw [List.map_cons, ← ih]
    rfl

theorem canonicalMap_eq (entries : List (String × AttributeValue)) :
    canonicalMap entries = entries.map fun entry => (entry.1, entry.2.canonical) := by
  induction entries with
  | nil => rfl
  | cons entry entries ih =>
    rw [List.map_cons, ← ih]
    rfl

theorem canonical_l (xs : List AttributeValue) : canonical (.l xs) = .l (xs.map canonical) :=
  congrArg AttributeValue.l (canonicalList_eq xs)

theorem canonical_m (entries : List (String × AttributeValue)) :
    canonical (.m entries) = .m (entries.map fun entry => (entry.1, entry.2.canonical)) :=
  congrArg AttributeValue.m (canonicalMap_eq entries)

end AttributeValue

section Lists

open AttributeValue

theorem mapDynamoList_eq (xs : List DynamoValue) : mapDynamoList xs = xs.map mapDynamoValue := by
  induction xs with
  | nil => rfl
  | cons x xs ih =>
    rw [List.map_cons, ← ih]
    rfl

theorem mapDynamoMap_eq (entries : List (String × DynamoValue)) :
    mapDynamoMap entries = entries.map fun entry => (entry.1, mapDynamoValue entry.2) := by
  induction entries with
  | nil => rfl
  | cons entry entries ih =>
    rw [List.map_cons, ← ih]
    rfl

theorem mapDynamoValue_list (xs : List DynamoValue) :
    mapDynamoValue (.list xs) = .l (xs.map mapDynamoValue) :=
  congrArg AttributeValue.l (mapDynamoList_eq xs)

theorem mapDynamoValue_map (entries : List (String × DynamoValue)) :
    mapDynamoValue (.map entries) =
      .m (entries.map fun entry => (entry.1, mapDynamoValue entry.2)) :=
  congrArg AttributeValue.m (mapDynamoMap_eq entries)

theorem mapAttributeList_eq (xs : List AttributeValue) :
    mapAttributeList xs = xs.mapM mapAttributeValue := by
  induction xs with
  | nil => rfl
  | cons x xs ih =>
    rw [List.mapM_cons, ← ih]
    rfl

def onValue {α β : Type} (f : α → Except CoreException β) (entry : String × α) :
    Except CoreException (String × β) := do
  return (entry.1, ← f entry.2)

theorem mapAttributeMap_eq (entries : List (String × AttributeValue)) :
    mapAttributeMap entries = entries.mapM (onValue mapAttributeValue) := by
  induction entries with
  | nil => rfl
  | cons entry entries ih =>
    rw [mapAttributeMap, ih, List.mapM_cons, onValue]
    cases mapAttributeValue entry.2 <;> rfl

theorem mapAttributeValue_m (entries : List (String × AttributeValue)) :
    mapAttributeValue (.m entries) =
      (do return .map (← entries.mapM (onValue mapAttributeValue))) := by
  rw [← mapAttributeMap_eq]
  rfl

theorem toBsonList_eq (xs : List DynamoValue) : toBsonList xs = xs.mapM DynamoValue.toBson := by
  induction xs with
  | nil => rfl
  | cons x xs ih =>
    rw [List.mapM_cons, ← ih]
    rfl

theorem toBsonMap_eq (entries : List (String × DynamoValue)) :
    toBsonMap entries = entries.mapM (onValue DynamoValue.toBson) := by
  induction entries with
  | nil => rfl
  | cons entry entries ih =>
    rw [toBsonMap, ih, List.mapM_cons, onValue]
    cases entry.2.toBson <;> rfl

theorem toBson_map (entries : List (String × DynamoValue)) :
    DynamoValue.toBson (.map entries) =
      (do return .document (← entries.mapM (onValue DynamoValue.toBson))) := by
  rw [← toBsonMap_eq]
  rfl

theorem fromBsonList_eq (values : List Value) :
    fromBsonList values = values.mapM DynamoValue.fromBson := by
  induction values with
  | nil => rfl
  | cons value values ih =>
    rw [List.mapM_cons, ← ih]
    rfl

variable (fields : List (String × Value))

theorem fromBsonMap_eq :
    fromBsonMap fields = fields.mapM (onValue DynamoValue.fromBson) := by
  induction fields with
  | nil => rfl
  | cons field fields ih =>
    rw [fromBsonMap, ih, List.mapM_cons, onValue]
    cases DynamoValue.fromBson field.2 <;> rfl

theorem fromBson_document :
    DynamoValue.fromBson (.document fields) =
      (do return .map (← fields.mapM (onValue DynamoValue.fromBson))) := by
  rw [← fromBsonMap_eq]
  rfl

end Lists

section Arrays

open AttributeValue

def startsSet : List Value → Bool
  | .scalar (.string _) :: _ => true
  | .scalar (.double _) :: _ => true
  | _ => false

/-- Whether a list of these values is written as an array that is read as a set. -/
def startsScalar : List AttributeValue → Bool
  | .s _ :: _ => true
  | .n _ :: _ => true
  | _ => false

theorem fromBson_array_of_list {values : List Value} (hlist : startsSet values = false) :
    DynamoValue.fromBson (.array values) =
      (do return .list (← values.mapM DynamoValue.fromBson)) := by
  rw [← fromBsonList_eq]
  cases values with
  | nil => rfl
  | cons value values =>
    cases value with
    | scalar scalar => cases scalar <;> first | rfl | cases hlist
    | binary bytes => rfl
    | array values => rfl
    | document fields => rfl

variable {xs : List AttributeValue} {back : DynamoValue}

theorem fromBson_array_of_set {values : List Value}
    (hset : startsSet values = true) (hback : DynamoValue.fromBson (.array values) = .ok back) :
    ∀ backs, back ≠ .list backs := by
  intro backs hlist
  subst hlist
  cases values with
  | nil => cases hset
  | cons value values =>
    cases value with
    | scalar scalar =>
      cases scalar with
      | string text =>
        rw [DynamoValue.fromBson] at hback
        obtain ⟨texts, -, hresult⟩ := bind_eq_ok.mp hback
        cases hresult
      | double number =>
        rw [DynamoValue.fromBson] at hback
        obtain ⟨numbers, -, hresult⟩ := bind_eq_ok.mp hback
        cases hresult
      | _ => cases hset
    | _ => cases hset

theorem startsSet_of_toBson {x : AttributeValue} {value : DynamoValue}
    {bson : Value} {bsons : List Value} (hvalue : mapAttributeValue x = .ok value)
    (hbson : value.toBson = .ok bson) :
    startsSet (bson :: bsons) = startsScalar (x :: xs) := by
  cases x with
  | untyped => cases hvalue
  | s text =>
    cases hvalue
    cases hbson
    rfl
  | n text =>
    obtain ⟨number, -, hnumber⟩ := bind_eq_ok.mp hvalue
    cases hnumber
    cases hbson
    rfl
  | b bytes =>
    cases hvalue
    cases hbson
    rfl
  | bool flag =>
    cases hvalue
    cases hbson
    rfl
  | null flag =>
    cases hvalue
    cases hbson
    rfl
  | ss texts =>
    cases hvalue
    cases hbson
    rfl
  | ns texts =>
    obtain ⟨numbers, -, hnumbers⟩ := bind_eq_ok.mp hvalue
    cases hnumbers
    cases hbson
    rfl
  | bs values =>
    cases hvalue
    cases hbson
  | l values =>
    obtain ⟨items, -, hitems⟩ := bind_eq_ok.mp hvalue
    cases hitems
    obtain ⟨written, -, hwritten⟩ := bind_eq_ok.mp hbson
    cases hwritten
    rfl
  | m entries =>
    obtain ⟨items, -, hitems⟩ := bind_eq_ok.mp hvalue
    cases hitems
    obtain ⟨written, -, hwritten⟩ := bind_eq_ok.mp hbson
    cases hwritten
    rfl

theorem readBack_eq_ok {value : AttributeValue} :
    readBack value = .ok back ↔
      ∃ item bson, mapAttributeValue value = .ok item ∧ item.toBson = .ok bson ∧
        DynamoValue.fromBson bson = .ok back := by
  rw [readBack, bind_eq_ok]
  constructor
  · rintro ⟨item, hitem, hrest⟩
    obtain ⟨bson, hbson, hback⟩ := bind_eq_ok.mp hrest
    exact ⟨item, bson, hitem, hbson, hback⟩
  · rintro ⟨item, bson, hitem, hbson, hback⟩
    exact ⟨item, hitem, bind_eq_ok.mpr ⟨bson, hbson, hback⟩⟩

theorem written_l :
    readBack (.l xs) = .ok back ↔ ∃ items bsons, xs.mapM mapAttributeValue = .ok items ∧
        items.mapM DynamoValue.toBson = .ok bsons ∧
        DynamoValue.fromBson (.array bsons) = .ok back := by
  rw [readBack_eq_ok]
  constructor
  · rintro ⟨item, bson, hitem, hbson, hback⟩
    rw [mapAttributeValue, mapAttributeList_eq] at hitem
    obtain ⟨items, hitems, hlist⟩ := bind_eq_ok.mp hitem
    cases hlist
    rw [DynamoValue.toBson, toBsonList_eq] at hbson
    obtain ⟨bsons, hbsons, harray⟩ := bind_eq_ok.mp hbson
    cases harray
    exact ⟨items, bsons, hitems, hbsons, hback⟩
  · rintro ⟨items, bsons, hitems, hbsons, hback⟩
    refine ⟨.list items, .array bsons, ?_, ?_, hback⟩
    · rw [mapAttributeValue, mapAttributeList_eq, hitems]
      rfl
    · rw [DynamoValue.toBson, toBsonList_eq, hbsons]
      rfl

theorem startsSet_of_mapM {items : List DynamoValue}
    {bsons : List Value} (hitems : xs.mapM mapAttributeValue = .ok items)
    (hbsons : items.mapM DynamoValue.toBson = .ok bsons) :
    startsSet bsons = startsScalar xs := by
  rw [mapM_eq_ok_iff] at hitems hbsons
  cases hitems with
  | nil =>
    cases hbsons
    rfl
  | cons hitem _ =>
    cases hbsons with
    | cons hbson _ => exact startsSet_of_toBson hitem hbson

theorem readBack_l (hlist : startsScalar xs = false) :
    readBack (.l xs) = .ok back ↔ ∃ backs, back = .list backs ∧ xs.mapM readBack = .ok backs := by
  have hfused : ∀ backs, xs.mapM readBack = .ok backs ↔
      ∃ items bsons, xs.mapM mapAttributeValue = .ok items ∧
        items.mapM DynamoValue.toBson = .ok bsons ∧
        bsons.mapM DynamoValue.fromBson = .ok backs := by
    intro backs
    have hreadBack : readBack = fun x =>
        (mapAttributeValue x >>= fun item => item.toBson >>= DynamoValue.fromBson) := rfl
    rw [hreadBack, ← exists_mapM_mapM]
    constructor
    · rintro ⟨items, hitems, hrest⟩
      obtain ⟨bsons, hbsons, hbacks⟩ := exists_mapM_mapM.mpr hrest
      exact ⟨items, bsons, hitems, hbsons, hbacks⟩
    · rintro ⟨items, bsons, hitems, hbsons, hbacks⟩
      exact ⟨items, hitems, exists_mapM_mapM.mp ⟨bsons, hbsons, hbacks⟩⟩
  rw [written_l]
  constructor
  · rintro ⟨items, bsons, hitems, hbsons, hback⟩
    rw [fromBson_array_of_list ((startsSet_of_mapM hitems hbsons).trans hlist)] at hback
    obtain ⟨backs, hbacks, hresult⟩ := bind_eq_ok.mp hback
    cases hresult
    exact ⟨backs, rfl, (hfused backs).mpr ⟨items, bsons, hitems, hbsons, hbacks⟩⟩
  · rintro ⟨backs, rfl, hbacks⟩
    obtain ⟨items, bsons, hitems, hbsons, hread⟩ := (hfused backs).mp hbacks
    refine ⟨items, bsons, hitems, hbsons, ?_⟩
    rw [fromBson_array_of_list ((startsSet_of_mapM hitems hbsons).trans hlist), hread]
    rfl

theorem readBack_m {entries : List (String × AttributeValue)} :
    readBack (.m entries) = .ok back ↔
      ∃ backs, back = .map backs ∧ entries.mapM (onValue readBack) = .ok backs := by
  have hreadBack : onValue readBack = fun entry =>
      (onValue mapAttributeValue entry >>= fun item =>
        onValue DynamoValue.toBson item >>= onValue DynamoValue.fromBson) := by
    funext entry
    simp only [onValue, readBack]
    cases mapAttributeValue entry.2 with
    | error failure => rfl
    | ok item =>
      change _ = (onValue DynamoValue.toBson (entry.1, item) >>= _)
      simp only [onValue, bind, Except.bind]
      cases item.toBson <;> rfl
  rw [hreadBack, readBack_eq_ok]
  constructor
  · rintro ⟨item, bson, hitem, hbson, hback⟩
    rw [mapAttributeValue_m] at hitem
    obtain ⟨items, hitems, hmap⟩ := bind_eq_ok.mp hitem
    cases hmap
    rw [toBson_map] at hbson
    obtain ⟨fields, hfields, hdocument⟩ := bind_eq_ok.mp hbson
    cases hdocument
    rw [fromBson_document] at hback
    obtain ⟨backs, hbacks, hresult⟩ := bind_eq_ok.mp hback
    cases hresult
    exact ⟨backs, rfl, exists_mapM_mapM.mp
      ⟨items, hitems, exists_mapM_mapM.mp ⟨fields, hfields, hbacks⟩⟩⟩
  · rintro ⟨backs, rfl, hbacks⟩
    obtain ⟨items, hitems, hrest⟩ := exists_mapM_mapM.mpr hbacks
    obtain ⟨fields, hfields, hread⟩ := exists_mapM_mapM.mpr hrest
    refine ⟨.map items, .document fields, ?_, ?_, ?_⟩
    · rw [mapAttributeValue_m, hitems]
      rfl
    · rw [toBson_map, hfields]
      rfl
    · rw [fromBson_document, hread]
      rfl

end Arrays

namespace AttributeValue

theorem doubleToString_intCast {number : Int} (hbound : |number| < 10 ^ 15) :
    doubleToString (number : ℚ) = toString number := by
  have hfloor : (number : ℚ).floor = number := Rat.floor_intCast number
  have habs : |(number : ℚ)| < 10 ^ 15 := by
    have hcast : |(number : ℚ)| = ((|number| : Int) : ℚ) := by push_cast; rfl
    rw [hcast]
    exact_mod_cast hbound
  rw [doubleToString, hfloor, if_pos ⟨rfl, habs⟩]

theorem roundTrips_of_readBack {value : AttributeValue} {back : DynamoValue}
    (hback : readBack value = .ok back) :
    RoundTrips value ↔ (mapDynamoValue back).Same value := by
  constructor
  · rintro ⟨other, hother, hsame⟩
    rw [hback] at hother
    cases hother
    exact hsame
  · intro hsame
    exact ⟨back, hback, hsame⟩

theorem readBack_n {numberValue : String} (hwhole : IsWhole (.n numberValue)) :
    ∃ number : Int, readBack (.n numberValue) = .ok (.double number) ∧
      doubleToString number = numberValue := by
  obtain ⟨number, hbound, rfl⟩ := hwhole
  refine ⟨number, ?_, doubleToString_intCast hbound⟩
  have hsmall : |number| < 2 ^ 53 := hbound.trans (by norm_num)
  simp only [readBack, mapAttributeValue, stod_toString hsmall]
  rfl

variable {xs : List AttributeValue} {entries : List (String × AttributeValue)}
variable {stringSetValue : List String}

theorem readBack_ss_nil (hnil : stringSetValue = []) :
    readBack (.ss stringSetValue) = .ok (.list []) := by
  subst hnil
  rfl

theorem readBack_ss (hne : stringSetValue ≠ []) :
    readBack (.ss stringSetValue) = .ok (.stringSet (orderedSet stringSetValue)) := by
  have hread : ((orderedSet stringSetValue).map fun s => Value.scalar (.string s)).mapM
      (fun el => BsonUtils.getString (some el)) = .ok (orderedSet stringSetValue) := by
    rw [mapM_eq_ok_iff, List.forall₂_map_left_iff, List.forall₂_same]
    exact fun _ _ => rfl
  have hback : DynamoValue.fromBson (.array ((orderedSet stringSetValue).map fun s =>
      .scalar (.string s))) = .ok (.stringSet (orderedSet (orderedSet stringSetValue))) := by
    cases hset : orderedSet stringSetValue with
    | nil =>
      obtain ⟨text, htext⟩ := List.exists_mem_of_ne_nil _ hne
      rw [← mem_orderedSet, hset] at htext
      cases htext
    | cons text texts =>
      rw [hset] at hread
      change (do return DynamoValue.stringSet (orderedSet (← List.mapM _ _))) = _
      rw [hread]
      rfl
  rw [orderedSet_orderedSet] at hback
  exact hback

theorem roundTrips_leaf {value : AttributeValue} (hlist : ∀ xs, value ≠ .l xs)
    (hmap : ∀ entries, value ≠ .m entries) (hwhole : value.IsWhole) :
    RoundTrips value ↔ value.Keeps := by
  cases value with
  | untyped => cases hwhole
  | s text =>
    rw [roundTrips_of_readBack rfl]
    exact iff_of_true rfl trivial
  | n text =>
    obtain ⟨number, hback, htext⟩ := readBack_n hwhole
    rw [roundTrips_of_readBack hback, mapDynamoValue, htext]
    exact iff_of_true rfl trivial
  | b bytes =>
    rw [roundTrips_of_readBack rfl]
    change AttributeValue.b [] = .b bytes ↔ bytes = []
    rw [AttributeValue.b.injEq, eq_comm]
  | bool flag =>
    rw [roundTrips_of_readBack rfl]
    exact iff_of_true rfl trivial
  | null flag =>
    rw [roundTrips_of_readBack rfl]
    change AttributeValue.null (some true) = .null (some (flag.getD true)) ↔ flag ≠ some false
    cases flag with
    | none => simp
    | some flag => cases flag <;> simp
  | ss texts =>
    by_cases hnil : texts = []
    · rw [roundTrips_of_readBack (readBack_ss_nil hnil)]
      exact iff_of_false nofun fun hne => hne hnil
    · rw [roundTrips_of_readBack (readBack_ss hnil)]
      refine iff_of_true ?_ hnil
      exact congrArg AttributeValue.ss (orderedSet_orderedSet texts)
  | ns texts => cases hwhole
  | bs values =>
    refine iff_of_false ?_ id
    rintro ⟨back, hback, -⟩
    cases hback
  | l xs => exact absurd rfl (hlist xs)
  | m entries => exact absurd rfl (hmap entries)

theorem not_roundTrips_of_startsScalar
    (hscalar : startsScalar xs = true) : ¬RoundTrips (.l xs) := by
  rintro ⟨back, hback, hsame⟩
  obtain ⟨items, bsons, hitems, hbsons, hread⟩ := written_l.mp hback
  have hnot := fromBson_array_of_set ((startsSet_of_mapM hitems hbsons).trans hscalar) hread
  cases back with
  | list backs => exact hnot backs rfl
  | _ => cases hsame

theorem same_l_iff {backs : List DynamoValue} :
    (mapDynamoValue (.list backs)).Same (.l xs) ↔
      List.Forall₂ (fun back x => (mapDynamoValue back).Same x) backs xs := by
  rw [Same, mapDynamoValue_list, canonical_l, canonical_l, AttributeValue.l.injEq, ← List.forall₂_eq_eq_eq,
    List.forall₂_map_right_iff, List.forall₂_map_left_iff, List.forall₂_map_left_iff]
  rfl

theorem same_m_iff {backs : List (String × DynamoValue)} :
    (mapDynamoValue (.map backs)).Same (.m entries) ↔
      List.Forall₂ (fun back entry =>
        back.1 = entry.1 ∧ (mapDynamoValue back.2).Same entry.2) backs entries := by
  rw [Same, mapDynamoValue_map, canonical_m, canonical_m, AttributeValue.m.injEq, ← List.forall₂_eq_eq_eq,
    List.forall₂_map_right_iff, List.forall₂_map_left_iff, List.forall₂_map_left_iff]
  simp only [Prod.mk.injEq]
  rfl

theorem roundTrips_l (hlist : startsScalar xs = false) :
    RoundTrips (.l xs) ↔ ∀ x ∈ xs, RoundTrips x := by
  simp only [RoundTrips]
  rw [← exists_mapM_forall₂]
  constructor
  · rintro ⟨back, hback, hsame⟩
    obtain ⟨backs, rfl, hbacks⟩ := (readBack_l hlist).mp hback
    exact ⟨backs, hbacks, same_l_iff.mp hsame⟩
  · rintro ⟨backs, hbacks, hsame⟩
    exact ⟨.list backs, (readBack_l hlist).mpr ⟨backs, rfl, hbacks⟩, same_l_iff.mpr hsame⟩

theorem roundTrips_m :
    RoundTrips (.m entries) ↔ ∀ entry ∈ entries, RoundTrips entry.2 := by
  have hentries : RoundTrips (.m entries) ↔ ∃ backs, entries.mapM (onValue readBack) = .ok backs ∧
        List.Forall₂ (fun back entry =>
          back.1 = entry.1 ∧ (mapDynamoValue back.2).Same entry.2) backs entries := by
    constructor
    · rintro ⟨back, hback, hsame⟩
      obtain ⟨backs, rfl, hbacks⟩ := readBack_m.mp hback
      exact ⟨backs, hbacks, same_m_iff.mp hsame⟩
    · rintro ⟨backs, hbacks, hsame⟩
      exact ⟨.map backs, readBack_m.mpr ⟨backs, rfl, hbacks⟩, same_m_iff.mpr hsame⟩
  rw [hentries, exists_mapM_forall₂]
  refine forall₂_congr fun entry _ => ?_
  constructor
  · rintro ⟨back, hback, -, hsame⟩
    obtain ⟨value, hvalue, hresult⟩ := bind_eq_ok.mp hback
    cases hresult
    exact ⟨value, hvalue, hsame⟩
  · rintro ⟨value, hvalue, hsame⟩
    refine ⟨(entry.1, value), ?_, rfl, hsame⟩
    rw [onValue, hvalue]
    rfl

theorem keeps_l_iff : Keeps (.l xs) ↔ startsScalar xs = false := by
  cases xs with
  | nil => exact iff_of_true trivial rfl
  | cons x xs => cases x <;> simp [Keeps, startsScalar]

/-- A value is read back as it was when it and every value in it is kept: binaries
are empty, there are no sets of binaries, no set of strings is empty, and no list
starts with a string or a number. By induction on the value. -/
theorem roundTrips_iff (value : AttributeValue) (hwhole : value.ForAll IsWhole) :
    value.RoundTrips ↔ value.ForAll Keeps := by
  induction value using AttributeValue.induction with
  | leaf value hlist hmap =>
    have hall : ∀ property : AttributeValue → Prop, value.ForAll property ↔ property value := by
      intro property
      cases value with
      | l xs => exact absurd rfl (hlist xs)
      | m entries => exact absurd rfl (hmap entries)
      | _ => exact Iff.rfl
    rw [hall] at hwhole ⊢
    exact roundTrips_leaf hlist hmap hwhole
  | l xs ih =>
    rw [forAll_l] at hwhole
    rw [forAll_l, keeps_l_iff]
    cases hscalar : startsScalar xs with
    | true => exact iff_of_false (not_roundTrips_of_startsScalar hscalar) fun hkeeps => nomatch hkeeps.1
    | false =>
      rw [roundTrips_l hscalar]
      constructor
      · intro helements
        exact ⟨rfl, fun x hx => (ih x hx (hwhole.2 x hx)).mp (helements x hx)⟩
      · rintro ⟨-, helements⟩
        exact fun x hx => (ih x hx (hwhole.2 x hx)).mpr (helements x hx)
  | m entries ih =>
    rw [forAll_m] at hwhole
    rw [forAll_m, roundTrips_m]
    constructor
    · intro helements
      exact ⟨trivial, fun entry hentry =>
        (ih entry hentry (hwhole.2 entry hentry)).mp (helements entry hentry)⟩
    · rintro ⟨-, helements⟩
      exact fun entry hentry =>
        (ih entry hentry (hwhole.2 entry hentry)).mpr (helements entry hentry)

/-- A list of a map and a set is read back as it was. -/
theorem roundTrips_nested :
    RoundTrips (.l [.m [("id", .n "42"), ("name", .s "order")], .ss ["a", "b"]]) := by
  refine (roundTrips_iff _ ?_).mpr ?_
  · refine ⟨trivial, ⟨trivial, ⟨42, by decide, rfl⟩, trivial, trivial⟩, trivial, trivial⟩
  · exact ⟨trivial, ⟨trivial, trivial, trivial, trivial⟩, List.cons_ne_nil _ _, trivial⟩

/-- A binary loses its byte, and a list of strings is read as a set. -/
theorem not_roundTrips_samples :
    (ForAll IsWhole (.b [1]) ∧ ¬RoundTrips (.b [1])) ∧
      ForAll IsWhole (.l [.s "a"]) ∧ ¬RoundTrips (.l [.s "a"]) := by
  refine ⟨⟨trivial, ?_⟩, ⟨trivial, trivial, trivial⟩, not_roundTrips_of_startsScalar rfl⟩
  rintro ⟨back, hback, hsame⟩
  cases hback
  cases hsame

end AttributeValue

end AwsMock.DynamoDb
