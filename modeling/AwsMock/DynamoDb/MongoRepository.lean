import AwsMock.DynamoDb.Documents
import AwsMock.Foundation.Collection
import AwsMock.Foundation.FilterDocument

/-! # The MongoDB repository

`DynamoDbMongoRepository`: tables and items as documents of two collections.
The server runs every command atomically.
-/

namespace AwsMock.DynamoDb

open Foundation BsonUtils

structure MongoStore where
  tables : Collection
  items : Collection

def fieldIs (name value : String) : List String × Condition := ([name], .eq (.string value))

/-- A condition that is only made when the string is not empty. -/
def unlessEmpty (name value : String) : Filter := if value = "" then [] else [fieldIs name value]

def keyIs (name : String) : KeyValue → List String × Condition
  | .string value => fieldIs name value
  | .double value => ([name], .eq (.double value))
  | .binary value => ([name], .eqBinary value)

/-- A condition on the sort key, which is only made when the key is set. -/
def sortKeyIs : KeyValue → Filter
  | .string value => unlessEmpty "sortKey" value
  | sortKey => [keyIs "sortKey" sortKey]

def idIs (oid : String) : List String × Condition := (["_id"], .eq (.objectId oid))

/-- The document `insert_one` stores: the driver adds a new object id. -/
def withObjectId (oid : String) (document : Document) : Document :=
  ("_id", .scalar (.objectId oid)) :: document

namespace MongoRepository

abbrev MongoCall (α : Type) := Call Mutex MongoStore α

def writeTables (tables : Collection) : MongoCall Unit :=
  Call.writeStore fun store => { store with tables }

def writeItems (items : Collection) : MongoCall Unit :=
  Call.writeStore fun store => { store with items }

def readTables : MongoCall Collection := Call.readStore MongoStore.tables

def readItems : MongoCall Collection := Call.readStore MongoStore.items

/-- `count_documents` with a limit of one. -/
def anyDocument (filter : Filter) (collection : Collection) : Bool :=
  decide (min 1 (collection.countDocuments filter) > 0)

def createTable (random : RandomSource) (now : Time) (table : Table) : MongoCall Table := do
  let table := { table with created := now, modified := now }
  let oid := random.uuid (← Call.draw)
  writeTables ((← readTables).insertOne (withObjectId oid table.toDocument))
  return { table with oid }

def tableFilter (region name : String) : Filter := [fieldIs "region" region, fieldIs "name" name]

def getTableByRegionName (now : Time) (region name : String) : MongoCall Table := do
  match (← readTables).findOne (tableFilter region name) with
  | some document => Call.ofExcept ((Table.fresh now).fromDocument document)
  | none => Action.raise (.database "Database exception, Table not found ")

def tableExists (region tableName : String) : MongoCall Bool := do
  return anyDocument (unlessEmpty "region" region ++ unlessEmpty "name" tableName) (← readTables)

/-- `find_one_and_update` with a plain document replaces the document found. -/
def updateTable (now : Time) (table : Table) : MongoCall Table := do
  let table := { table with modified := now }
  let result := (← readTables).findOneAndReplace (tableFilter table.region table.name)
    table.toDocument
  writeTables result.2
  match result.1 with
  | some document => Call.ofExcept (table.fromDocument document)
  | none => return Table.fresh now

def createOrUpdateTable (random : RandomSource) (now : Time) (table : Table) :
    MongoCall Table := do
  if ← tableExists table.region table.name then updateTable now table
  else createTable random now table

def updateTableCounter (tableArn : String) (items size : Int) : MongoCall Unit := do
  writeTables ((← readTables).updateOne [fieldIs "arn" tableArn]
    { set := [(["items"], .int64 items), (["size"], .int64 size)] })

def deleteTable (region tableName : String) : MongoCall Unit := do
  writeTables ((← readTables).deleteMany (tableFilter region tableName))

/-- The conditions on the place of an item, made of what is not empty. -/
def placeFilter (region tableName : String) : Filter :=
  unlessEmpty "region" region ++ unlessEmpty "tableName" tableName

def itemFilter (region tableName : String) (partitionKey sortKey : KeyValue) : Filter :=
  placeFilter region tableName ++ keyIs "partitionKey" partitionKey :: sortKeyIs sortKey

def itemExists (item : Item) : MongoCall Bool := do
  return anyDocument (itemFilter item.region item.tableName item.partitionKey item.sortKey)
    (← readItems)

/-- The overload of `itemExists` that takes the keys as strings. -/
def itemExistsByKeys (region tableName partitionKey sortKey : String) : MongoCall Bool := do
  return anyDocument (placeFilter region tableName ++ unlessEmpty "partitionKey" partitionKey ++
    unlessEmpty "sortKey" sortKey) (← readItems)

def readItemList (now : Time) (documents : List Document) : MongoCall (List Item) :=
  Call.ofExcept (documents.mapM (Item.fresh now).fromDocument)

/-- `listItems` without paging and sorting, as the service calls it. -/
def listItems (now : Time) (region tableName : String) : MongoCall (List Item) := do
  readItemList now ((← readItems).find (placeFilter region tableName))

def getItemByKeys (now : Time) (region tableName : String) (partitionKey sortKey : KeyValue) :
    MongoCall Item := do
  match (← readItems).findOne (itemFilter region tableName partitionKey sortKey) with
  | some document => Call.ofExcept ((Item.fresh now).fromDocument document)
  | none =>
    Action.raise (.database
      ("Database exception, item not found, region: " ++ region ++ ", tableName: " ++ tableName))

def createItem (random : RandomSource) (now : Time) (item : Item) : MongoCall Item := do
  let item := { item with created := now }
  let document ← Call.ofExcept item.toDocument
  let oid := random.uuid (← Call.draw)
  writeItems ((← readItems).insertOne (withObjectId oid document))
  return { item with size := bsonSize document + 8, oid }

/-- `dynamoVariantToKeyValue`. -/
def dynamoVariantToKeyValue : DynamoValue → Except CoreException KeyValue
  | .string value => .ok (.string value)
  | .double value => .ok (.double value)
  | .binary value => .ok (.binary value)
  | _ => .error (.database "DynamoValue type is not a valid KeyValue (S, N, or B)")

/-- The keys an update looks for, read from the attributes of the item, and the
item with the attributes that looking them up added. -/
def typedKeys (table : Table) (item : Item) : Except CoreException (KeyValue × KeyValue × Item) := do
  let partitionKey ← dynamoVariantToKeyValue (item.attribute table.getPartitionKeyName)
  let item := item.withAttribute table.getPartitionKeyName
  if table.getSortKeyName ≠ "" then
    let sortKey ← dynamoVariantToKeyValue (item.attribute table.getSortKeyName)
    return (partitionKey, sortKey, item.withAttribute table.getSortKeyName)
  else return (partitionKey, .string "", item)

/-- The body of `updateItem`. The stored item keeps its keys; its attributes are
replaced. -/
def replaceItem (now : Time) (item : Item) : MongoCall Item := do
  let item := { item with modified := now }
  let table ← getTableByRegionName now item.region item.tableName
  let (partitionKey, sortKey, item) ← Call.ofExcept (typedKeys table item)
  let dbItem ← getItemByKeys now item.region item.tableName partitionKey sortKey
  let dbItem := { dbItem with modified := now, attributes := item.attributes }
  let dbItem := { dbItem with size := bsonSize (← Call.ofExcept dbItem.toDocument) + 8 }
  let document ← Call.ofExcept dbItem.toDocument
  let result := (← readItems).findOneAndReplace [idIs dbItem.oid] document
  writeItems result.2
  match result.1 with
  | some document => Call.ofExcept (item.fromDocument document)
  | none => return Item.fresh now

/-- `updateItem`: database exceptions get a new message. -/
def updateItem (now : Time) (item : Item) : MongoCall Item :=
  Action.rethrow
    (fun exc => match exc with
      | .database message => .database ("Database exception " ++ message)
      | other => other)
    (replaceItem now item)

def createOrUpdateItem (random : RandomSource) (now : Time) (item : Item) : MongoCall Item := do
  if ← itemExists item then updateItem now item else createItem random now item

/-- `countItems` without a prefix, as the service calls it. -/
def countItems (region tableName : String) : MongoCall Int := do
  return (← readItems).countDocuments (placeFilter region tableName)

def deleteItem (now : Time) (region tableName partitionKey sortKey : String) : MongoCall Unit := do
  let item ← getItemByKeys now region tableName (.string partitionKey) (.string sortKey)
  writeItems ((← readItems).deleteOne [idIs item.oid])
  writeTables ((← readTables).updateOne [fieldIs "tableName" tableName]
    { inc := [(["itemCount"], -1), (["size"], -item.size)] })

def deleteItems (now : Time) (_region tableName : String) : MongoCall Int := do
  let items ← readItems
  writeItems (items.deleteMany [fieldIs "tableName" tableName])
  writeTables ((← readTables).updateOne [fieldIs "tableName" tableName]
    { set := [(["itemCount"], .int64 0), (["size"], .int64 0), (["modified"], .date now)] })
  return items.countDocuments [fieldIs "tableName" tableName]

/-- `QUERY_SIZE_LIMIT`. -/
def querySizeLimit : Int := 1024 * 1024

/-- Read the documents of a cursor until the items are more than the limit. -/
def readWithinLimit (now : Time) : Int → List Document → Except CoreException (List Item)
  | _, [] => .ok []
  | totalSize, document :: rest => do
      let item ← (Item.fresh now).fromDocument document
      if totalSize + item.size > querySizeLimit then return [item]
      else return item :: (← readWithinLimit now (totalSize + item.size) rest)

/-- `executeQuery` with a filter. The direction of the scan is not used. -/
def executeQuery (now : Time) (filter : Document) (_scanIndexForward : Bool) (limit : Int) :
    MongoCall (List Item) := do
  let found := (← readItems).filter fun document => FilterDocument.accepts document filter
  let returned := if limit > 0 then found.take limit.toNat else found
  Call.ofExcept (readWithinLimit now 0 returned)

/-- The name of the table an item is counted for. A missing name is a group of
its own, and is read as an empty name. -/
def groupName (document : Document) : String := getStringValue document "tableName"

/-- Count the items of every name and sum their sizes, in the order the names
occur. -/
def tableStatistics (items : Collection) : List (String × Int × Int) :=
  (items.map groupName).dedup.map fun tableName =>
    let grouped := items.filter fun document => groupName document = tableName
    (tableName, grouped.length, (grouped.map bsonSize).sum)

def adjustItemCounters : MongoCall Unit := do
  let statistics := tableStatistics (← readItems)
  let counters (items size : Int) : Update :=
    { set := [(["size"], .int64 size), (["items"], .int64 items)] }
  let reset := (← readTables).updateMany [] (counters 0 0)
  writeTables (statistics.foldl
    (fun tables group => tables.updateOne [fieldIs "name" group.1] (counters group.2.1 group.2.2))
    reset)

end MongoRepository

end AwsMock.DynamoDb
