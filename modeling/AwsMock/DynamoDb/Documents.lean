import AwsMock.DynamoDb.Entity

/-! # Tables and items as documents

`ToDocument` and `FromDocument` of the entities, and the size of a document.
-/

namespace AwsMock.DynamoDb

open Foundation BsonUtils

namespace StreamViewType

/-- `StreamViewTypeNames`. -/
def toString : StreamViewType → String
  | .keysOnly => "KEYS_ONLY"
  | .newImage => "NEW_IMAGE"
  | .oldImage => "OLD_IMAGE"
  | .newAndOldImages => "NEW_AND_OLD_IMAGES"
  | .unknown => "UNKNOWN"

def fromString (streamViewTypeName : String) : StreamViewType :=
  ([keysOnly, newImage, oldImage, newAndOldImages].find?
    fun streamViewType => streamViewType.toString = streamViewTypeName).getD .unknown

@[simp] theorem fromString_toString (streamViewType : StreamViewType) :
    fromString streamViewType.toString = streamViewType := by
  cases streamViewType <;> rfl

end StreamViewType

def AttributeDefinition.toDocument (definition : AttributeDefinition) : Document :=
  setStringValue (setStringValue [] "attributeName" definition.attributeName)
    "attributeType" definition.attributeType

def AttributeDefinition.fromDocument (document : Document) : AttributeDefinition :=
  ⟨getStringValue document "attributeName", getStringValue document "attributeType"⟩

def KeySchema.toDocument (key : KeySchema) : Document :=
  setStringValue (setStringValue [] "attributeName" key.attributeName) "keyType" key.keyType

def KeySchema.fromDocument (document : Document) : KeySchema :=
  ⟨getStringValue document "attributeName", getStringValue document "keyType"⟩

def Tag.toDocument (tag : Tag) : Document :=
  setStringValue (setStringValue [] "key" tag.tagKey) "value" tag.tagValue

def Tag.fromDocument (document : Document) : Tag :=
  ⟨getStringValue document "key", getStringValue document "value"⟩

def ProvisionedThroughput.toDocument (throughput : ProvisionedThroughput) : Document :=
  [("ReadCapacityUnits", .scalar (.int64 throughput.readCapacityUnits)),
    ("WriteCapacityUnits", .scalar (.int64 throughput.writeCapacityUnits)),
    ("LastDecreaseDateTime", .scalar (.date throughput.lastDecreaseDateTime)),
    ("LastIncreaseDateTime", .scalar (.date throughput.lastIncreaseDateTime)),
    ("NumberOfDecreasesToday", .scalar (.int64 throughput.numberOfDecreasesToday))]

/-- `ProvisionedThroughput::FromDocument` reads the units as 32-bit integers. -/
def ProvisionedThroughput.fromDocument (document : Document) :
    Except CoreException ProvisionedThroughput := do
  let readCapacityUnits ← getIntValue document "ReadCapacityUnits"
  let writeCapacityUnits ← getIntValue document "WriteCapacityUnits"
  let numberOfDecreasesToday ← getLongValue document "NumberOfDecreasesToday"
  return {
    readCapacityUnits
    writeCapacityUnits
    lastDecreaseDateTime := getDateValue document "LastDecreaseDateTime"
    lastIncreaseDateTime := getDateValue document "LastIncreaseDateTime"
    numberOfDecreasesToday }

def StreamSpecification.toDocument (specification : StreamSpecification) : Document :=
  [("streamEnabled", .scalar (.bool specification.enabled)),
    ("streamViewType", .scalar (.string specification.streamViewType.toString))]

def StreamSpecification.fromDocument (document : Document) : StreamSpecification :=
  ⟨getBoolValue document "streamEnabled", .fromString (getStringValue document "streamViewType")⟩

/-- A list of documents, which is only written when it is not empty. -/
def listField {α : Type} (name : String) (write : α → Document) (elements : List α) : Document :=
  if elements = [] then [] else [(name, .array (elements.map fun el => .document (write el)))]

/-- Read a list of documents. A missing list leaves what is there. -/
def readListField {α : Type} (name : String) (read : Document → α) (present : List α)
    (document : Document) : Except CoreException (List α) :=
  match document.get? name with
  | some value => do (← getArray (some value)).mapM fun el => return read (← getDocument (some el))
  | none => return present

/-- `Table::ToDocument`. -/
def Table.toDocument (table : Table) : Document :=
  [("region", .scalar (.string table.region)),
    ("name", .scalar (.string table.name)),
    ("arn", .scalar (.string table.arn)),
    ("status", .scalar (.string table.status)),
    ("billingMode", .scalar (.string table.billingMode)),
    ("size", .scalar (.int64 table.size)),
    ("items", .scalar (.int64 table.items)),
    ("created", .scalar (.date table.created)),
    ("modified", .scalar (.date table.modified))] ++
  listField "tags" Tag.toDocument table.tags ++
  listField "attributeDefinitions" AttributeDefinition.toDocument table.attributeDefinitions ++
  listField "keySchema" KeySchema.toDocument table.keySchema ++
  [("provisionedThroughput", .document table.provisionedThroughput.toDocument),
    ("streamSpecification", .document table.streamSpecification.toDocument),
    ("sseEnabled", .scalar (.bool table.sseEnabled))]

/-- `Table::FromDocument`, on the table that is read into. -/
def Table.fromDocument (table : Table) (document : Document) : Except CoreException Table := do
  let size ← getLongValue document "size"
  let items ← getLongValue document "items"
  let tags ← readListField "tags" Tag.fromDocument table.tags document
  let attributeDefinitions ← readListField "attributeDefinitions"
    AttributeDefinition.fromDocument table.attributeDefinitions document
  let keySchema ← readListField "keySchema" KeySchema.fromDocument table.keySchema document
  let provisionedThroughput ← match document.get? "provisionedThroughput" with
    | some value => do ProvisionedThroughput.fromDocument (← getDocument (some value))
    | none => pure table.provisionedThroughput
  let streamSpecification ← match document.get? "streamSpecification" with
    | some value => pure (StreamSpecification.fromDocument (← getDocument (some value)))
    | none => pure table.streamSpecification
  return {
    oid := getOidValue document "_id"
    region := getStringValue document "region"
    name := getStringValue document "name"
    arn := getStringValue document "arn"
    status := getStringValue document "status"
    billingMode := getStringValue document "billingMode"
    size, items, tags, attributeDefinitions, keySchema, provisionedThroughput, streamSpecification
    created := getDateValue document "created"
    modified := getDateValue document "modified"
    sseEnabled := getBoolValue document "sseEnabled" }

/-- `Item::KeyValueToBson`. -/
def KeyValue.toBson : KeyValue → Value
  | .string value => .scalar (.string value)
  | .double value => .scalar (.double value)
  | .binary value => .binary value

/-- `Item::KeyValueFromBson`, of a field that may be missing. -/
def KeyValue.fromBson : Option Value → Except CoreException KeyValue
  | some (.scalar (.string value)) => .ok (.string value)
  | some (.scalar (.double value)) => .ok (.double value)
  | some (.binary bytes) => .ok (.binary bytes)
  | some _ => .error (.standard "Unexpected BSON type for KeyValue")
  | none => .error (.standard "cannot return the type of uninitialized element")

/-- The body of `Item::ToDocument`. -/
def Item.writeDocument (item : Item) : Except CoreException Document := do
  let attributesDoc ← toBsonMap item.attributes
  let itemDoc := setStringValue (setStringValue (setStringValue [] "oid" item.oid)
    "region" item.region) "tableName" item.tableName
  return itemDoc ++ [("size", .scalar (.int64 item.size)),
      ("attributes", .document attributesDoc),
      ("created", .scalar (.date item.created)),
      ("modified", .scalar (.date item.modified)),
      ("partitionKey", item.partitionKey.toBson),
      ("sortKey", item.sortKey.toBson)]

/-- `Item::ToDocument`. -/
def Item.toDocument (item : Item) : Except CoreException Document :=
  item.writeDocument.mapError fun exc => .json exc.what

def KeyValue.readSortKey (present : KeyValue) : Option Value → Except CoreException KeyValue
  | none => .ok present
  | some (.scalar .null) => .ok present
  | some value => KeyValue.fromBson (some value)

/-- The body of `Item::FromDocument`. -/
def Item.readDocument (item : Item) (document : Document) : Except CoreException Item := do
  let size ← getLongValue document "size"
  let partitionKey ← KeyValue.fromBson (document.get? "partitionKey")
  let sortKey ← item.sortKey.readSortKey (document.get? "sortKey")
  let attributes ← fromBsonMap (← getDocument (document.get? "attributes"))
  return {
    oid := getOidValue document "_id"
    region := getStringValue document "region"
    tableName := getStringValue document "tableName"
    size
    created := getDateValue document "created"
    modified := getDateValue document "modified"
    partitionKey, sortKey, attributes }

/-- `Item::FromDocument`, on the item that is read into. -/
def Item.fromDocument (item : Item) (document : Document) : Except CoreException Item :=
  (item.readDocument document).mapError fun exc => .json exc.what

section Sizes

/-- The size of a scalar in BSON. Strings have a length and a final zero. -/
def scalarSize : Scalar → Nat
  | .null => 0
  | .bool _ => 1
  | .int32 _ => 4
  | .int64 _ | .double _ | .date _ => 8
  | .string value => 4 + value.length + 1
  | .objectId _ => 12

mutual

def valueSize : Value → Nat
  | .scalar value => scalarSize value
  | .binary bytes => 4 + 1 + bytes.length
  | .array values => 4 + elementsSize 0 values + 1
  | .document fields => 4 + fieldsSize fields + 1

def elementsSize (position : Nat) : List Value → Nat
  | [] => 0
  | value :: rest =>
    1 + (toString position).length + 1 + valueSize value + elementsSize (position + 1) rest

def fieldsSize : List (String × Value) → Nat
  | [] => 0
  | (name, value) :: rest => 1 + name.length + 1 + valueSize value + fieldsSize rest

end

def bsonSize (document : Document) : Int := 4 + fieldsSize document + 1

end Sizes

end AwsMock.DynamoDb
