import AwsMock.DynamoDb.Contents
import AwsMock.Foundation.Traverse

/-! # Stored tables and items

The documents of tables and items against the entities they were written from.
Reading a table gives the entity back but for its capacity units, which are read
as 32-bit integers; reading an item reads its attributes from BSON.
-/

namespace AwsMock.DynamoDb

open Foundation BsonUtils

section Fields

variable {α : Type}

theorem get?_listField (name other : String) (write : α → Document) (elements : List α) :
    (listField name write elements).get? other =
      if name = other ∧ elements ≠ [] then
        some (.array (elements.map fun el => .document (write el))) else none := by
  by_cases hempty : elements = []
  · simp [listField, hempty]
  · simp [listField, hempty, Document.get?_cons]

/-- What a list is read as: an empty one is not written and leaves what is there. -/
def kept (present : List α) : List α → List α
  | [] => present
  | elements => elements

@[simp] theorem kept_nil (elements : List α) : kept [] elements = elements := by
  cases elements <;> rfl

@[simp] theorem kept_self (elements : List α) : kept elements elements = elements := by
  cases elements <;> rfl

theorem kept_eq_iff {present elements : List α} :
    kept present elements = elements ↔ (elements = [] → present = []) := by
  cases elements with
  | nil => exact ⟨fun heq _ => heq, fun hpresent => hpresent rfl⟩
  | cons el elements => exact iff_of_true rfl fun hempty => nomatch hempty

theorem readListField_eq {name : String} {write : α → Document} {read : Document → α}
    {elements present : List α} {document : Document} (hread : ∀ el, read (write el) = el)
    (hfield : document.get? name = if elements ≠ [] then
      some (.array (elements.map fun el => .document (write el))) else none) :
    readListField name read present document = .ok (kept present elements) := by
  rw [readListField, hfield]
  cases elements with
  | nil => rfl
  | cons el elements =>
    rw [if_pos (List.cons_ne_nil el elements)]
    have hmap : ((el :: elements).map fun el => Value.document (write el)).mapM
        (fun el => do return read (← getDocument (some el))) = .ok (el :: elements) := by
      rw [List.mapM_map, mapM_eq_ok_iff, List.forall₂_same]
      intro el _
      change Except.ok (read (write el)) = _
      rw [hread]
    exact hmap

theorem Tag.fromDocument_toDocument (tag : Tag) : fromDocument tag.toDocument = tag := by
  obtain ⟨hkey, hvalue⟩ :=
    get?_setStringValue_two "key" "value" (by decide) tag.tagKey tag.tagValue
  rw [fromDocument, toDocument, getStringValue_of_textField hkey, getStringValue_of_textField hvalue]

theorem AttributeDefinition.fromDocument_toDocument (definition : AttributeDefinition) :
    fromDocument definition.toDocument = definition := by
  obtain ⟨hname, htype⟩ := get?_setStringValue_two "attributeName" "attributeType"
    (by decide) definition.attributeName definition.attributeType
  rw [fromDocument, toDocument, getStringValue_of_textField hname, getStringValue_of_textField htype]

theorem KeySchema.fromDocument_toDocument (key : KeySchema) : fromDocument key.toDocument = key := by
  obtain ⟨hname, htype⟩ := get?_setStringValue_two "attributeName" "keyType"
    (by decide) key.attributeName key.keyType
  rw [fromDocument, toDocument, getStringValue_of_textField hname, getStringValue_of_textField htype]

end Fields

def ProvisionedThroughput.reread (throughput : ProvisionedThroughput) : ProvisionedThroughput :=
  { throughput with
    readCapacityUnits := toInt32 throughput.readCapacityUnits
    writeCapacityUnits := toInt32 throughput.writeCapacityUnits }

theorem ProvisionedThroughput.fromDocument_toDocument (throughput : ProvisionedThroughput) :
    fromDocument throughput.toDocument = .ok throughput.reread := by
  simp [fromDocument, toDocument, reread, getIntValue, getLongValue, getDateValue,
    Document.get?_cons, bind, Except.bind, pure, Except.pure]

theorem StreamSpecification.fromDocument_toDocument (specification : StreamSpecification) :
    fromDocument specification.toDocument = specification := by
  simp [fromDocument, toDocument, getBoolValue, getStringValue, Document.get?_cons]

namespace Table

def document (table : Table) : Document := withObjectId table.oid table.toDocument

def reread (table : Table) : Table :=
  { table with provisionedThroughput := table.provisionedThroughput.reread }

section Document

variable (table : Table)

theorem get?_document_oid :
    table.document.get? "_id" = some (.scalar (.objectId table.oid)) := rfl

theorem get?_document_region :
    table.document.get? "region" = some (.scalar (.string table.region)) := by
  simp [document, withObjectId, toDocument, Document.get?_cons]

theorem get?_document_name :
    table.document.get? "name" = some (.scalar (.string table.name)) := by
  simp [document, withObjectId, toDocument, Document.get?_cons]

theorem get?_document_billingMode :
    table.document.get? "billingMode" = some (.scalar (.string table.billingMode)) := by
  simp [document, withObjectId, toDocument, Document.get?_cons]

theorem get?_document_items :
    table.document.get? "items" = some (.scalar (.int64 table.items)) := by
  simp [document, withObjectId, toDocument, Document.get?_cons]

theorem get?_document_tableName : table.document.get? "tableName" = none := by
  simp [document, withObjectId, toDocument, Document.get?_cons, Document.get?_append,
    get?_listField]

theorem get?_document_tags : table.document.get? "tags" = if table.tags ≠ [] then
    some (.array (table.tags.map fun tag => .document tag.toDocument)) else none := by
  simp [document, withObjectId, toDocument, Document.get?_cons, Document.get?_append,
    get?_listField]

theorem get?_document_attributeDefinitions :
    table.document.get? "attributeDefinitions" = if table.attributeDefinitions ≠ [] then
      some (.array (table.attributeDefinitions.map fun el => .document el.toDocument))
      else none := by
  simp [document, withObjectId, toDocument, Document.get?_cons, Document.get?_append,
    get?_listField]

theorem get?_document_keySchema : table.document.get? "keySchema" = if table.keySchema ≠ [] then
    some (.array (table.keySchema.map fun key => .document key.toDocument)) else none := by
  simp [document, withObjectId, toDocument, Document.get?_cons, Document.get?_append,
    get?_listField]

theorem get?_document_provisionedThroughput : table.document.get? "provisionedThroughput" =
    some (.document table.provisionedThroughput.toDocument) := by
  simp [document, withObjectId, toDocument, Document.get?_cons, Document.get?_append,
    get?_listField]

theorem get?_document_streamSpecification : table.document.get? "streamSpecification" =
    some (.document table.streamSpecification.toDocument) := by
  simp [document, withObjectId, toDocument, Document.get?_cons, Document.get?_append,
    get?_listField]

theorem get?_document_sseEnabled :
    table.document.get? "sseEnabled" = some (.scalar (.bool table.sseEnabled)) := by
  simp [document, withObjectId, toDocument, Document.get?_cons, Document.get?_append,
    get?_listField]

end Document

theorem fromDocument_document (base table : Table) :
    base.fromDocument table.document = .ok { table.reread with
      tags := kept base.tags table.tags
      attributeDefinitions := kept base.attributeDefinitions table.attributeDefinitions
      keySchema := kept base.keySchema table.keySchema } := by
  have hread : ∀ name value, table.toDocument.get? name = value → name ≠ "_id" →
      table.document.get? name = value := by
    intro name value hvalue hname
    rw [document, withObjectId, Document.get?_cons, if_neg hname.symm, hvalue]
  have hlong : ∀ name value, table.document.get? name = some (.scalar (.int64 value)) →
      getLongValue table.document name = .ok value := by
    intro name value hfield
    rw [getLongValue, hfield]
  have hdate : ∀ name value, table.document.get? name = some (.scalar (.date value)) →
      getDateValue table.document name = value := by
    intro name value hfield
    rw [getDateValue, hfield]
  have hstring : ∀ name value, table.document.get? name = some (.scalar (.string value)) →
      getStringValue table.document name = value := by
    intro name value hfield
    exact getStringValue_of_string hfield
  rw [fromDocument, hlong "size" table.size (hread _ _ rfl (by decide)),
    hlong "items" table.items (hread _ _ rfl (by decide)),
    readListField_eq Tag.fromDocument_toDocument table.get?_document_tags,
    readListField_eq AttributeDefinition.fromDocument_toDocument
      table.get?_document_attributeDefinitions,
    readListField_eq KeySchema.fromDocument_toDocument table.get?_document_keySchema,
    table.get?_document_provisionedThroughput, table.get?_document_streamSpecification]
  simp only [bind, Except.bind, getDocument, ProvisionedThroughput.fromDocument_toDocument,
    StreamSpecification.fromDocument_toDocument, pure, Except.pure]
  rw [getStringValue_of_string table.get?_document_region,
    getStringValue_of_string table.get?_document_name,
    hstring "arn" table.arn (hread _ _ rfl (by decide)),
    hstring "status" table.status (hread _ _ rfl (by decide)),
    hstring "billingMode" table.billingMode (hread _ _ rfl (by decide)),
    hdate "created" table.created (hread _ _ rfl (by decide)),
    hdate "modified" table.modified (hread _ _ rfl (by decide)),
    getOidValue, table.get?_document_oid, getBoolValue, table.get?_document_sseEnabled]
  rfl

theorem fromDocument_fresh (now : Time) (table : Table) :
    (fresh now).fromDocument table.document = .ok table.reread := by
  rw [fromDocument_document, fresh, kept_nil, kept_nil, kept_nil]
  rfl

theorem fromDocument_self (oid : String) (table : Table) :
    table.fromDocument { table with oid }.document = .ok { table.reread with oid } := by
  rw [fromDocument_document, kept_self, kept_self, kept_self]
  rfl

end Table

/-- How an item is stored: its attributes are written as BSON. The field of its
object id may be there twice. -/
structure Item.StoredAs (item : Item) (document : Document) : Prop where
  oid : document.get? "_id" = some (.scalar (.objectId item.oid))
  region : document.get? "region" = textField item.region
  tableName : document.get? "tableName" = textField item.tableName
  size : document.get? "size" = some (.scalar (.int64 item.size))
  attributes : ∃ fields, toBsonMap item.attributes = .ok fields ∧
    document.get? "attributes" = some (.document fields)
  created : document.get? "created" = some (.scalar (.date item.created))
  modified : document.get? "modified" = some (.scalar (.date item.modified))
  partitionKey : document.get? "partitionKey" = some item.partitionKey.toBson
  sortKey : document.get? "sortKey" = some item.sortKey.toBson

@[simp] theorem KeyValue.fromBson_toBson (key : KeyValue) : fromBson (some key.toBson) = .ok key := by
  cases key <;> rfl

@[simp] theorem KeyValue.readSortKey_toBson (present key : KeyValue) :
    present.readSortKey (some key.toBson) = .ok key := by
  cases key <;> rfl

namespace Item

def rereadAttributes (item : Item) : Except CoreException Attributes := do
  fromBsonMap (← toBsonMap item.attributes)

def reread (item : Item) : Except CoreException Item :=
  (item.rereadAttributes.map fun attributes => { item with attributes }).mapError
    fun exc => .json exc.what

theorem reread_eq_ok {item read : Item} :
    item.reread = .ok read ↔
      ∃ attributes, item.rereadAttributes = .ok attributes ∧ read = { item with attributes } := by
  rw [reread, mapError_eq_ok]
  cases item.rereadAttributes with
  | error exc => simp [Except.map]
  | ok attributes => simp [Except.map, eq_comm]

theorem StoredAs.fromDocument_eq {item : Item} {document : Document}
    (hstored : item.StoredAs document) (base : Item) :
    base.fromDocument document = item.reread := by
  obtain ⟨fields, hfields, hattributes⟩ := hstored.attributes
  rw [fromDocument, reread, readDocument, hstored.sortKey, KeyValue.readSortKey_toBson,
    hattributes, hstored.partitionKey, rereadAttributes, hfields, getStringValue_of_textField hstored.region,
    getStringValue_of_textField hstored.tableName]
  simp only [getLongValue, hstored.size, getDateValue, hstored.created, hstored.modified,
    getOidValue, hstored.oid, KeyValue.fromBson_toBson, getDocument, bind, Except.bind]
  cases fromBsonMap fields <;> rfl

theorem storedAs_toDocument {item : Item} {document : Document} (oid : String)
    (hdocument : item.toDocument = .ok document) :
    { item with oid }.StoredAs (withObjectId oid document) := by
  rw [toDocument, mapError_eq_ok, writeDocument, bind_eq_ok] at hdocument
  obtain ⟨fields, hfields, hresult⟩ := hdocument
  injection hresult with hresult
  subst hresult
  refine ⟨?_, ?_, ?_, ?_, ⟨fields, hfields, ?_⟩, ?_, ?_, ?_, ?_⟩ <;>
    simp [withObjectId, Document.get?_cons, Document.get?_append, get?_setStringValue, textField]

end Item

section Conditions

variable {item : Item} {document : Document}

theorem holds_textField (expected value : String) :
    (Condition.eq (.string expected)).holds (textField value) =
      (value = expected && value ≠ "") := by
  by_cases hvalue : value = "" <;> simp [textField, hvalue, Condition.holds]

theorem accepts_unlessEmpty (name expected : String) (document : Document) :
    Filter.accepts (unlessEmpty name expected) document =
      (expected = "" || (Condition.eq (.string expected)).holds (document.get? name)) := by
  by_cases hexpected : expected = "" <;> simp [unlessEmpty, hexpected, fieldIs]

theorem accepts_unlessEmpty_text {name value : String} (expected : String)
    (hfield : document.get? name = textField value) :
    Filter.accepts (unlessEmpty name expected) document = (expected = "" || value = expected) := by
  rw [accepts_unlessEmpty, hfield, holds_textField]
  by_cases hexpected : expected = ""
  · simp [hexpected]
  · by_cases hvalue : value = expected
    · simp [hvalue, hexpected]
    · simp [hvalue]

theorem accepts_append (first second : Filter) (document : Document) :
    Filter.accepts (first ++ second) document =
      (first.accepts document && second.accepts document) :=
  List.all_append

theorem accepts_tableFilter (region name : String) (table : Table) :
    (MongoRepository.tableFilter region name).accepts table.document =
      table.isNamed region name := by
  simp [MongoRepository.tableFilter, fieldIs, Condition.holds, Table.isNamed,
    table.get?_document_region, table.get?_document_name]

theorem accepts_placeFilter (hstored : item.StoredAs document) (region tableName : String) :
    (MongoRepository.placeFilter region tableName).accepts document =
      item.isListed region tableName := by
  rw [MongoRepository.placeFilter, accepts_append, accepts_unlessEmpty_text region hstored.region,
    accepts_unlessEmpty_text tableName hstored.tableName, Item.isListed]

/-- Whether an item is deleted with the items of a table, whatever its region. -/
def Item.isDeletedWith (tableName : String) (item : Item) : Bool :=
  item.tableName = tableName && item.tableName ≠ ""

theorem accepts_tableName (hstored : item.StoredAs document) (tableName : String) :
    Filter.accepts [fieldIs "tableName" tableName] document = item.isDeletedWith tableName := by
  rw [Filter.accepts_cons, Filter.accepts_nil, Bool.and_true, fieldIs, Document.getPath_singleton,
    hstored.tableName, holds_textField, Item.isDeletedWith]

/-- Whether an item is found by its place and its keys, of which the empty parts
are not compared; the partition key always is. -/
def Item.isFound (region tableName : String) (partitionKey sortKey : KeyValue) (item : Item) :
    Bool :=
  item.isListed region tableName && item.partitionKey = partitionKey &&
    (sortKey = .string "" || item.sortKey = sortKey)

theorem holds_keyIs (name : String) (expected value : KeyValue) :
    (keyIs name expected).2.holds (some value.toBson) = decide (value = expected) := by
  cases expected <;> cases value <;> simp [keyIs, fieldIs, KeyValue.toBson, Condition.holds,
    Value.is]

theorem accepts_keyIs {name : String} {value : KeyValue} (expected : KeyValue)
    (hfield : document.get? name = some value.toBson) :
    Filter.accepts [keyIs name expected] document = decide (value = expected) := by
  have hpath : (keyIs name expected).1 = [name] := by cases expected <;> rfl
  rw [Filter.accepts_cons, Filter.accepts_nil, Bool.and_true, hpath, Document.getPath_singleton,
    hfield, holds_keyIs]

variable (hstored : item.StoredAs document)
include hstored

theorem accepts_sortKeyIs (sortKey : KeyValue) :
    (sortKeyIs sortKey).accepts document = (sortKey = .string "" || item.sortKey = sortKey) := by
  have hcompared := accepts_keyIs sortKey hstored.sortKey
  cases sortKey with
  | string value =>
    by_cases hvalue : value = ""
    · simp [sortKeyIs, unlessEmpty, hvalue]
    · simpa [sortKeyIs, unlessEmpty, hvalue, keyIs] using hcompared
  | double value => simpa [sortKeyIs] using hcompared
  | binary value => simpa [sortKeyIs] using hcompared

theorem accepts_itemFilter (region tableName : String) (partitionKey sortKey : KeyValue) :
    (MongoRepository.itemFilter region tableName partitionKey sortKey).accepts document =
      item.isFound region tableName partitionKey sortKey := by
  rw [MongoRepository.itemFilter, accepts_append, accepts_placeFilter hstored,
    ← List.singleton_append, accepts_append, accepts_keyIs partitionKey hstored.partitionKey,
    accepts_sortKeyIs hstored, Item.isFound, Bool.and_assoc]

theorem accepts_idIs (oid : String) :
    Filter.accepts [idIs oid] document = decide (item.oid = oid) := by
  simp [idIs, Condition.holds, hstored.oid]

end Conditions

end AwsMock.DynamoDb
