import AwsMock.Core.Text
import AwsMock.DynamoDb.QueryFilter
import AwsMock.DynamoDb.Repository

/-! # The table service

`DynamoDbService` and its requests, over either repository.
-/

namespace AwsMock.DynamoDb

open Foundation Mapper

namespace Dto

/-- `std::map<std::string, AttributeValue>`. -/
abbrev AttributeMap := List (String × AttributeValue)

/-- The string `operator[]` finds, which is empty for a name without a value. -/
def AttributeMap.stringValue (attributes : AttributeMap) (name : String) : String :=
  ((lookup name attributes).map AttributeValue.stringValue).getD ""

structure CreateTableRequest where
  region : String
  tableName : String
  attributes : List AttributeDefinition := []
  keySchema : List KeySchema := []
  readCapacityUnits : Int := 0
  writeCapacityUnits : Int := 0
  tags : List Tag := []
  sseEnabled : Bool := false

structure CreateTableResponse where
  region : String
  tableName : String
  tableArn : String
  keySchemas : List KeySchema
  attributeDefinitions : List AttributeDefinition

structure DeleteTableRequest where
  region : String
  tableName : String

structure DeleteTableResponse where
  region : String
  tableName : String
  tableId : String
  tableArn : String
  itemCount : Int

structure GetItemRequest where
  region : String
  tableName : String
  keys : AttributeMap

structure GetItemResponse where
  attributes : AttributeMap := []

structure PutItemRequest where
  region : String
  tableName : String
  attributes : AttributeMap

/-- The keys are set over the attributes, as values without a type. -/
structure PutItemResponse where
  tableName : String
  attributes : AttributeMap
  partitionKey : String × KeyValue
  sortKey : String × KeyValue
  created : Time
  modified : Time

structure ScanRequest where
  region : String
  tableName : String

structure ScanResponse where
  region : String
  tableName : String
  count : Int
  scannedCount : Int
  items : List AttributeMap

/-- The names of attributes are read, but the service does not use them. -/
structure QueryRequest where
  region : String
  tableName : String
  limit : Int := 0
  keyConditionExpression : String := ""
  expressionAttributeNames : List (String × String) := []
  expressionAttributeValues : AttributeMap := []

structure QueryResponse where
  tableName : String
  items : List AttributeMap

structure DeleteItemRequest where
  region : String
  tableName : String
  keys : AttributeMap

structure DeleteItemResponse where
  region : String := ""
  attributes : AttributeMap := []

structure DeleteAllItemsRequest where
  region : String
  tableName : String

end Dto

namespace Mapper

/-- `Mapper::map(DeleteItemRequest)`. The keys become attributes. -/
def mapDeleteItemRequest (now : Time) (request : Dto.DeleteItemRequest) :
    Except CoreException Item := do
  let attributes ← mapAttributeMap request.keys
  return { Item.fresh now with region := request.region, tableName := request.tableName, attributes }

/-- `Mapper::map(PutItemRequest)`. -/
def mapPutItemRequest (now : Time) (request : Dto.PutItemRequest) : Except CoreException Item := do
  let attributes ← mapAttributeMap request.attributes
  return { Item.fresh now with region := request.region, tableName := request.tableName, attributes }

end Mapper

structure Context where
  accountId : String
  /-- `sizeof` of an item entity. -/
  sizeOfItem : Int

def createDynamoDbTableArn (accountId tableName : String) : String :=
  AwsUtils.createArn "dynamodb" "ddblocal" accountId ("table/" ++ tableName)

namespace Service

variable {Store : Type} (context : Context) (db : Repository Store)

/-- The `catch (JsonException)` blocks of the service. -/
def catchJson {α : Type} (text : String) (body : Call Mutex Store α) : Call Mutex Store α :=
  Action.rethrow
    (fun exc => match exc with
      | .json message => .service (text ++ message)
      | other => other)
    body

/-- The existence check of the requests; `text` starts the message. -/
def requireTable (text region tableName : String) : Call Mutex Store Unit := do
  if ← db.tableExists region tableName then return ()
  else Action.raise (.badRequest (text ++ ", region: " ++ region ++ " name: " ++ tableName))

def newTable (now : Time) (request : Dto.CreateTableRequest) : Table :=
  { Table.fresh now with
    region := request.region
    name := request.tableName
    arn := createDynamoDbTableArn context.accountId request.tableName
    provisionedThroughput := {
      readCapacityUnits := request.readCapacityUnits
      writeCapacityUnits := request.writeCapacityUnits }
    status := "ACTIVE"
    billingMode := if request.readCapacityUnits > 0 then "PROVISIONED" else "PAY_PER_REQUEST"
    sseEnabled := request.sseEnabled
    attributeDefinitions := request.attributes
    keySchema := request.keySchema
    tags := request.tags }

def createTableResponse (request : Dto.CreateTableRequest) (table : Table) :
    Dto.CreateTableResponse :=
  { region := request.region, tableName := request.tableName, tableArn := table.arn,
    keySchemas := table.keySchema, attributeDefinitions := table.attributeDefinitions }

def createTable (now : Time) (request : Dto.CreateTableRequest) :
    Call Mutex Store Dto.CreateTableResponse := do
  if ← db.tableExists request.region request.tableName then
    return createTableResponse request
      (← db.getTableByRegionName now request.region request.tableName)
  else
    catchJson "DynamoDbd create table failed, error: " do
      return createTableResponse request (← db.createTable now (newTable context now request))

def deleteTable (now : Time) (request : Dto.DeleteTableRequest) :
    Call Mutex Store Dto.DeleteTableResponse := do
  requireTable db "DynamoDb table does not exist" request.region request.tableName
  catchJson "DynamoDbd delete table failed, error: " do
    let table ← db.getTableByRegionName now request.region request.tableName
    let deleted ← db.deleteItems now request.region request.tableName
    db.deleteTable request.region request.tableName
    return {
      region := table.region
      tableId := table.oid
      tableName := table.name
      tableArn := table.arn
      itemCount := deleted }

/-- The inner `try` block of `GetItem`: an item that is gone is no error. -/
def getItemAttributes (now : Time) (request : Dto.GetItemRequest)
    (partitionKey sortKey : String) : Call Mutex Store Dto.GetItemResponse :=
  Action.tryCatch
    (do
      let item ← db.getItemByKeys now request.region request.tableName (.string partitionKey)
        (.string sortKey)
      return { attributes := mapDynamoMap item.attributes })
    (fun exc => match exc with
      | .database _ => return {}
      | other => Action.raise other)

def getItem (now : Time) (request : Dto.GetItemRequest) :
    Call Mutex Store Dto.GetItemResponse := do
  requireTable db "DynamoDb table does not exist" request.region request.tableName
  Action.rethrow
    (fun exc => match exc with
      | .database _ => .badRequest ("DynamoDb table error, region: " ++ request.region ++
          " name: " ++ request.tableName)
      | .json message => .service ("DynamoDbd get item failed, error: " ++ message)
      | other => other)
    do
      let table ← db.getTableByRegionName now request.region request.tableName
      let partitionKey := request.keys.stringValue table.getPartitionKeyName
      let sortKey := request.keys.stringValue table.getSortKeyName
      if ← db.itemExistsByKeys request.region request.tableName partitionKey sortKey then
        getItemAttributes db now request partitionKey sortKey
      else return {}

def countedTable (table : Table) (item : Item) : Table :=
  { table with size := table.size + item.size, items := table.items + 1 }

def keyedItem (request : Dto.PutItemRequest) (table : Table) (item : Item) : Item :=
  { item with
    size := context.sizeOfItem + 8
    partitionKey := .string (request.attributes.stringValue table.getPartitionKeyName)
    sortKey := .string (request.attributes.stringValue table.getSortKeyName) }

def putItem (now : Time) (request : Dto.PutItemRequest) :
    Call Mutex Store Dto.PutItemResponse := do
  requireTable db "DynamoDb table does not exist" request.region request.tableName
  catchJson "DynamoDb put item failed, error: " do
    let item ← Call.ofExcept (mapPutItemRequest now request)
    let table ← db.getTableByRegionName now request.region request.tableName
    let item ← db.createOrUpdateItem now (keyedItem context request table item)
    let table ← db.updateTable now (countedTable table item)
    return {
      tableName := item.tableName
      attributes := mapDynamoMap item.attributes
      partitionKey := (table.getPartitionKeyName, item.partitionKey)
      sortKey := (table.getSortKeyName, item.sortKey)
      created := item.created
      modified := item.modified }

def removeMapped (text : String) : String := StringUtils.replaceCopy text "AMZN_MAPPED_" ""

def createExpression (inputExpression : String) : String :=
  "tableName = :tableName AND " ++ StringUtils.replaceCopy (removeMapped inputExpression) "#" ""

/-- `operator[]=` of a map. -/
def assign {α : Type} (name : String) (value : α) (entries : List (String × α)) :
    List (String × α) :=
  (name, value) :: entries.filter fun entry => entry.1 ≠ name

def createAttributeValues (tableName : String) (expressionAttributeValues : Dto.AttributeMap) :
    QueryHelper.ExpressionAttributeValues :=
  assign ":tableName" (.s tableName) (expressionAttributeValues.foldl
      (fun attr entry => assign (removeMapped entry.1) entry.2 attr) [])

/-- The items `Query` finds: the expression and the values become a filter, which
the repository executes. -/
def queryItems (now : Time) (request : Dto.QueryRequest) : Call Mutex Store (List Item) := do
  let expression := createExpression request.keyConditionExpression
  let attrs := createAttributeValues request.tableName request.expressionAttributeValues
  let filter ← Call.ofExcept (QueryHelper.toMongoFilter expression attrs)
  db.executeQuery now filter true request.limit

def query (now : Time) (request : Dto.QueryRequest) : Call Mutex Store Dto.QueryResponse := do
  requireTable db "DynamoDb table exists already" request.region request.tableName
  Action.rethrow
    (fun exc => match exc with
      | .json message => .service ("DynamoDb query failed, error: " ++ message)
      | .dynamoDbParse message => .service ("DynamoDb query parsing failed, error: " ++ message)
      | other => other)
    do
      let items ← queryItems db now request
      return {
        tableName := request.tableName
        items := items.map fun item => mapDynamoMap item.attributes }

def scan (now : Time) (request : Dto.ScanRequest) : Call Mutex Store Dto.ScanResponse := do
  requireTable db "DynamoDb table exists already" request.region request.tableName
  catchJson "" do
    let items ← db.listItems now request.region request.tableName
    let count ← db.countItems request.region request.tableName
    return {
      region := request.region
      tableName := request.tableName
      count
      scannedCount := items.length
      items := items.map fun item => mapDynamoMap item.attributes }

/-- The existence check looks for an item with empty keys: the mapper does not
set the keys of the item. -/
def deleteItem (now : Time) (request : Dto.DeleteItemRequest) :
    Call Mutex Store Dto.DeleteItemResponse := do
  let item ← Call.ofExcept (mapDeleteItemRequest now request)
  if ← db.itemExists item then
    catchJson "DynamoDbd delete item failed, message: " do
      let table ← db.getTableByRegionName now request.region request.tableName
      let partitionKey := request.keys.stringValue table.getPartitionKeyName
      let sortKey := request.keys.stringValue table.getSortKeyName
      let item ← db.getItemByKeys now request.region request.tableName (.string partitionKey)
        (.string sortKey)
      db.deleteItem now request.region request.tableName partitionKey sortKey
      return { region := request.region, attributes := mapDynamoMap item.attributes }
  else return {}

/-- The table is deleted and made again from its region and name alone. -/
def deleteAllItems (now : Time) (request : Dto.DeleteAllItemsRequest) :
    Call Mutex Store Unit := do
  requireTable db "DynamoDb table does not exist" request.region request.tableName
  catchJson "DynamoDbd delete item failed, message: " do
    let _ ← deleteTable db now { region := request.region, tableName := request.tableName }
    let _ ← createTable context db now { region := request.region, tableName := request.tableName }
    return ()

def resetItemCounters : Call Mutex Store Unit :=
  catchJson "DynamoDbd reset item counters failed, message: " db.adjustItemCounters

end Service

end AwsMock.DynamoDb
