import AwsMock.Core.Fields
import AwsMock.DynamoDb.RoundTrip
import AwsMock.DynamoDb.StoredContents

/-! # Items and tables read into others

`FromDocument` of what `ToDocument` has written, on an entity that may hold another one. A table
loses large capacity units and keeps lists that the document leaves out. Of an item, only the
attributes can be lost.
-/

namespace AwsMock.DynamoDb

open Foundation BsonUtils

/-! ## Entities that are restored -/

/-- The table is read into the other one as it is, but for its object id. -/
def Table.Restores (base table : Table) : Prop :=
  ∃ read, base.fromDocument table.toDocument = .ok read ∧ read = { table with oid := read.oid }

/-- The item is read into the other one as it is, but for its object id. -/
def Item.Restores (base item : Item) : Prop :=
  ∃ document read, item.toDocument = .ok document ∧ base.fromDocument document = .ok read ∧
    read = { item with oid := read.oid }

/-- The units have 32 bits, and a list that is empty is so in the other table. -/
structure Table.Fits (base table : Table) : Prop where
  readCapacityUnits : Fits32 table.provisionedThroughput.readCapacityUnits
  writeCapacityUnits : Fits32 table.provisionedThroughput.writeCapacityUnits
  tags : table.tags = [] → base.tags = []
  attributeDefinitions : table.attributeDefinitions = [] → base.attributeDefinitions = []
  keySchema : table.keySchema = [] → base.keySchema = []

def startsPlain : List DynamoValue → Prop
  | .string _ :: _ | .double _ :: _ => False
  | _ => True

mutual

/-- The value has no set of binaries and no empty set, and no list that begins like a set. Sets are
ordered as a `std::set` is. -/
def DynamoValue.Keeps : DynamoValue → Prop
  | .stringSet value => value ≠ [] ∧ orderedSet value = value
  | .doubleSet value => value ≠ [] ∧ orderedSet value = value
  | .binarySet _ => False
  | .list value => startsPlain value ∧ KeepsList value
  | .map value => KeepsMap value
  | _ => True

def KeepsList : List DynamoValue → Prop
  | [] => True
  | value :: values => value.Keeps ∧ KeepsList values

def KeepsMap : List (String × DynamoValue) → Prop
  | [] => True
  | (_, value) :: entries => value.Keeps ∧ KeepsMap entries

end

/-! ## Object ids -/

section ObjectIds

variable {name : String}

theorem get?_withObjectId (oid : String) (document : Document) (hname : "_id" ≠ name) :
    (withObjectId oid document).get? name = document.get? name := by
  rw [withObjectId, Document.get?_cons, if_neg hname]

theorem Table.fromDocument_withObjectId (base : Table) (oid : String) (document : Document) :
    base.fromDocument (withObjectId oid document) =
      (fun read => { read with oid }) <$> base.fromDocument document := by
  have hoid : getOidValue (withObjectId oid document) "_id" = oid := rfl
  rw [fromDocument, fromDocument, hoid]
  simp (disch := decide) only [getLongValue, getStringValue, getDateValue, getBoolValue,
    readListField, get?_withObjectId, map_bind]
  cases document.get? "provisionedThroughput" <;> cases document.get? "streamSpecification" <;>
    simp only [map_bind, map_pure]

theorem Item.fromDocument_withObjectId (base : Item) (oid : String) (document : Document) :
    base.fromDocument (withObjectId oid document) =
      (fun read => { read with oid }) <$> base.fromDocument document := by
  have hoid : getOidValue (withObjectId oid document) "_id" = oid := rfl
  have hread : base.readDocument (withObjectId oid document) =
      (fun read => { read with oid }) <$> base.readDocument document := by
    rw [readDocument, readDocument, hoid]
    simp (disch := decide) only [getLongValue, getStringValue, getDateValue, get?_withObjectId,
      map_bind, map_pure]
  rw [fromDocument, fromDocument, hread]
  cases base.readDocument document <;> rfl

end ObjectIds

/-! ## Tables -/

section Tables

theorem Table.restores_iff (base table : Table) : base.Restores table ↔ base.Fits table := by
  have hread := fromDocument_document base table
  rw [document, fromDocument_withObjectId] at hread
  cases hliteral : base.fromDocument table.toDocument with
  | error exn =>
    rw [hliteral] at hread
    cases hread
  | ok read =>
    rw [hliteral] at hread
    have hread : { read with oid := table.oid } = _ := Except.ok.inj hread
    have hiff : base.Restores table ↔ { read with oid := table.oid } = table := by
      constructor
      · rintro ⟨read', hread', heq⟩
        rw [hliteral] at hread'
        cases hread'
        rw [heq]
      · exact fun heq => ⟨read, hliteral, by rw [← heq]⟩
    rw [hiff, hread]
    constructor
    · intro heq
      have hunits := congrArg (fun table => table.provisionedThroughput) heq
      exact {
        readCapacityUnits := toInt32_eq_iff.mp (congrArg (·.readCapacityUnits) hunits)
        writeCapacityUnits := toInt32_eq_iff.mp (congrArg (·.writeCapacityUnits) hunits)
        tags := kept_eq_iff.mp (congrArg (·.tags) heq)
        attributeDefinitions := kept_eq_iff.mp (congrArg (·.attributeDefinitions) heq)
        keySchema := kept_eq_iff.mp (congrArg (·.keySchema) heq) }
    · rintro ⟨hreadUnits, hwriteUnits, htags, hdefinitions, hkeys⟩
      rw [reread, ProvisionedThroughput.reread, toInt32_eq_iff.mpr hreadUnits,
        toInt32_eq_iff.mpr hwriteUnits, kept_eq_iff.mpr htags, kept_eq_iff.mpr hdefinitions,
        kept_eq_iff.mpr hkeys]

end Tables

/-! ## Attributes -/

section Attributes

def DynamoValue.reread (value : DynamoValue) : Except CoreException DynamoValue := do
  DynamoValue.fromBson (← value.toBson)

theorem startsSet_iff {first : DynamoValue} {written : Value} (hfirst : first.toBson = .ok written)
    (rest : List DynamoValue) (values : List Value) :
    startsSet (written :: values) = false ↔ startsPlain (first :: rest) := by
  cases first with
  | string value =>
    cases hfirst
    exact iff_of_false (by rintro ⟨⟩) id
  | double value =>
    cases hfirst
    exact iff_of_false (by rintro ⟨⟩) id
  | binarySet values => cases hfirst
  | list value =>
    obtain ⟨_, -, hwritten⟩ := bind_eq_ok.mp hfirst
    cases hwritten
    exact iff_of_true rfl trivial
  | map value =>
    obtain ⟨_, -, hwritten⟩ := bind_eq_ok.mp hfirst
    cases hwritten
    exact iff_of_true rfl trivial
  | _ =>
    cases hfirst
    exact iff_of_true rfl trivial

theorem reread_list_iff {value : List DynamoValue}
    (hvalues : (do fromBsonList (← toBsonList value)) = .ok value ↔ KeepsList value) :
    (DynamoValue.list value).reread = .ok (.list value) ↔ (DynamoValue.list value).Keeps := by
  rw [DynamoValue.Keeps, ← hvalues, DynamoValue.reread, DynamoValue.toBson]
  cases hwritten : toBsonList value with
  | error exn => exact iff_of_false (by rintro ⟨⟩) (by rintro ⟨-, ⟨⟩⟩)
  | ok values =>
    have hstarts : startsSet values = false ↔ startsPlain value := by
      cases value with
      | nil =>
        cases hwritten
        exact iff_of_true rfl trivial
      | cons first rest =>
        obtain ⟨written, hfirst, hrest⟩ := bind_eq_ok.mp hwritten
        obtain ⟨later, -, hvalues⟩ := bind_eq_ok.mp hrest
        cases hvalues
        exact startsSet_iff hfirst rest later
    change DynamoValue.fromBson (.array values) = _ ↔ _ ∧ fromBsonList values = _
    cases hset : startsSet values with
    | true =>
      rw [← hstarts, hset]
      exact iff_of_false (fun hback => fromBson_array_of_set hset hback value rfl)
        (by rintro ⟨⟨⟩, -⟩)
    | false =>
      rw [fromBson_array_of_list hset, ← fromBsonList_eq, ← hstarts, hset, eq_self, true_and]
      cases fromBsonList values with
      | error exn => exact iff_of_false (by rintro ⟨⟩) (by rintro ⟨⟩)
      | ok back =>
        change Except.ok (DynamoValue.list back) = _ ↔ _
        rw [Except.ok.injEq, DynamoValue.list.injEq, Except.ok.injEq]

theorem reread_stringSet_iff (value : List String) :
    (DynamoValue.stringSet value).reread = .ok (.stringSet value) ↔
      value ≠ [] ∧ orderedSet value = value := by
  cases value with
  | nil => exact iff_of_false (by rintro ⟨⟩) fun h => h.1 rfl
  | cons first rest =>
    have hread : ((first :: rest).map fun s => Value.scalar (.string s)).mapM
        (fun el => getString (some el)) = .ok (first :: rest) := by
      rw [List.mapM_map, mapM_eq_ok_iff, List.forall₂_same]
      exact fun _ _ => rfl
    change (do return DynamoValue.stringSet (orderedSet (← List.mapM _ _)) :
      Except CoreException DynamoValue) = _ ↔ _
    rw [hread]
    change Except.ok (DynamoValue.stringSet (orderedSet (first :: rest))) = _ ↔ _
    rw [Except.ok.injEq, DynamoValue.stringSet.injEq, and_iff_right (List.cons_ne_nil _ _)]

theorem reread_doubleSet_iff (value : List ℚ) :
    (DynamoValue.doubleSet value).reread = .ok (.doubleSet value) ↔
      value ≠ [] ∧ orderedSet value = value := by
  cases value with
  | nil => exact iff_of_false (by rintro ⟨⟩) fun h => h.1 rfl
  | cons first rest =>
    have hread : ((first :: rest).map fun n => Value.scalar (.double n)).mapM getDouble =
        .ok (first :: rest) := by
      rw [List.mapM_map, mapM_eq_ok_iff, List.forall₂_same]
      exact fun _ _ => rfl
    change (do return DynamoValue.doubleSet (orderedSet (← List.mapM _ _)) :
      Except CoreException DynamoValue) = _ ↔ _
    rw [hread]
    change Except.ok (DynamoValue.doubleSet (orderedSet (first :: rest))) = _ ↔ _
    rw [Except.ok.injEq, DynamoValue.doubleSet.injEq, and_iff_right (List.cons_ne_nil _ _)]

mutual

theorem reread_iff : ∀ value : DynamoValue, value.reread = .ok value ↔ value.Keeps
  | .stringSet value => reread_stringSet_iff value
  | .doubleSet value => reread_doubleSet_iff value
  | .binarySet values => iff_of_false (by rintro ⟨⟩) id
  | .list value => reread_list_iff (rereadList_iff value)
  | .map value => by
    rw [DynamoValue.Keeps, ← rereadMap_iff value, DynamoValue.reread, DynamoValue.toBson]
    cases toBsonMap value with
    | error exn => exact iff_of_false (by rintro ⟨⟩) (by rintro ⟨⟩)
    | ok fields =>
      change (do return DynamoValue.map (← fromBsonMap fields)) = _ ↔ fromBsonMap fields = _
      cases fromBsonMap fields with
      | error exn => exact iff_of_false (by rintro ⟨⟩) (by rintro ⟨⟩)
      | ok back =>
        change Except.ok (DynamoValue.map back) = _ ↔ _
        rw [Except.ok.injEq, DynamoValue.map.injEq, Except.ok.injEq]
  | .string _ | .double _ | .binary _ | .bool _ | .null => iff_of_true rfl trivial

theorem rereadList_iff : ∀ values : List DynamoValue,
    (do fromBsonList (← toBsonList values)) = .ok values ↔ KeepsList values
  | [] => iff_of_true rfl trivial
  | value :: values => by
    rw [KeepsList, ← reread_iff value, ← rereadList_iff values, toBsonList, DynamoValue.reread]
    cases value.toBson with
    | error exn => exact iff_of_false (by rintro ⟨⟩) (by rintro ⟨⟨⟩, -⟩)
    | ok written =>
      cases toBsonList values with
      | error exn => exact iff_of_false (by rintro ⟨⟩) (by rintro ⟨-, ⟨⟩⟩)
      | ok later =>
        change (do return (← DynamoValue.fromBson written) :: (← fromBsonList later)) = _ ↔
          DynamoValue.fromBson written = _ ∧ fromBsonList later = _
        cases DynamoValue.fromBson written with
        | error exn => exact iff_of_false (by rintro ⟨⟩) (by rintro ⟨⟨⟩, -⟩)
        | ok back =>
          cases fromBsonList later with
          | error exn => exact iff_of_false (by rintro ⟨⟩) (by rintro ⟨-, ⟨⟩⟩)
          | ok backs =>
            change Except.ok (back :: backs) = _ ↔ _
            rw [Except.ok.injEq, List.cons.injEq, Except.ok.injEq, Except.ok.injEq]

theorem rereadMap_iff : ∀ entries : List (String × DynamoValue),
    (do fromBsonMap (← toBsonMap entries)) = .ok entries ↔ KeepsMap entries
  | [] => iff_of_true rfl trivial
  | (name, value) :: entries => by
    rw [KeepsMap, ← reread_iff value, ← rereadMap_iff entries, toBsonMap, DynamoValue.reread]
    cases value.toBson with
    | error exn => exact iff_of_false (by rintro ⟨⟩) (by rintro ⟨⟨⟩, -⟩)
    | ok written =>
      cases toBsonMap entries with
      | error exn => exact iff_of_false (by rintro ⟨⟩) (by rintro ⟨-, ⟨⟩⟩)
      | ok later =>
        change (do return (name, ← DynamoValue.fromBson written) :: (← fromBsonMap later)) = _ ↔
          DynamoValue.fromBson written = _ ∧ fromBsonMap later = _
        cases DynamoValue.fromBson written with
        | error exn => exact iff_of_false (by rintro ⟨⟩) (by rintro ⟨⟨⟩, -⟩)
        | ok back =>
          cases fromBsonMap later with
          | error exn => exact iff_of_false (by rintro ⟨⟩) (by rintro ⟨-, ⟨⟩⟩)
          | ok backs =>
            change Except.ok ((name, back) :: backs) = _ ↔ _
            rw [Except.ok.injEq, List.cons.injEq, Prod.mk.injEq, eq_self, true_and,
              Except.ok.injEq, Except.ok.injEq]

end

end Attributes

/-! ## Items -/

section Items

theorem Item.restores_iff (base item : Item) :
    base.Restores item ↔ KeepsMap item.attributes := by
  rw [← rereadMap_iff]
  change _ ↔ item.rereadAttributes = .ok item.attributes
  cases hwritten : item.toDocument with
  | error exn =>
    refine iff_of_false ?_ fun hread => ?_
    · rintro ⟨document, -, hdocument, -⟩
      rw [hwritten] at hdocument
      cases hdocument
    · rw [rereadAttributes, bind_eq_ok] at hread
      obtain ⟨fields, hfields, -⟩ := hread
      rw [toDocument, writeDocument, hfields] at hwritten
      cases hwritten
  | ok document =>
    have hread := (storedAs_toDocument item.oid hwritten).fromDocument_eq base
    rw [fromDocument_withObjectId] at hread
    change _ = item.reread at hread
    constructor
    · rintro ⟨document', read, hdocument, hliteral, heq⟩
      rw [hwritten] at hdocument
      cases hdocument
      rw [hliteral] at hread
      obtain ⟨attributes, hattributes, hsame⟩ := reread_eq_ok.mp hread.symm
      rw [hattributes]
      have hkept := congrArg Item.attributes heq
      exact congrArg _ ((congrArg Item.attributes hsame).symm.trans hkept)
    · intro hattributes
      have hsame : item.reread = .ok item := reread_eq_ok.mpr ⟨_, hattributes, rfl⟩
      rw [hsame] at hread
      cases hliteral : base.fromDocument document with
      | error exn =>
        rw [hliteral] at hread
        cases hread
      | ok read =>
        rw [hliteral] at hread
        have hitem : { read with oid := item.oid } = item := Except.ok.inj hread
        exact ⟨document, read, hwritten, hliteral, by rw [← hitem]⟩

/-- Items and tables are restored, on entities that hold others, exactly when nothing of them is
lost and nothing of the others is left. -/
theorem item_and_table_restored_iff (baseItem item : Item) (baseTable table : Table) :
    baseItem.Restores item ∧ baseTable.Restores table ↔
      KeepsMap item.attributes ∧ baseTable.Fits table :=
  and_congr (Item.restores_iff baseItem item) (Table.restores_iff baseTable table)

/-- A table without tags, read into a table that has one. -/
theorem not_restores_tagged :
    ¬∀ (baseItem item : Item) (baseTable table : Table),
      baseItem.Restores item ∧ baseTable.Restores table := by
  intro hrestores
  have hfits := (Table.restores_iff _ _).mp (hrestores (.fresh 0) (.fresh 0)
    { Table.fresh 0 with tags := [⟨"team", "orders"⟩] } (.fresh 0)).2
  exact absurd (hfits.tags rfl) (by decide)

end Items

end AwsMock.DynamoDb
