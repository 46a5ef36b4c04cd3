import AwsMock.DynamoDb.Entity
import AwsMock.Foundation.UnorderedMap

/-! # The in-memory repository

`DynamoDbMemoryRepository`: tables and items in hash maps keyed by object id,
guarded by two mutexes.
-/

namespace AwsMock.DynamoDb

open Foundation

structure MemoryStore where
  tables : UnorderedMap String Table
  items : UnorderedMap String Item

def Table.isNamed (region name : String) (table : Table) : Bool :=
  table.region = region && table.name = name

def Item.isIn (region tableName : String) (item : Item) : Bool :=
  item.region = region && item.tableName = tableName

def Item.hasKeys (partitionKey sortKey : KeyValue) (item : Item) : Bool :=
  item.partitionKey = partitionKey && item.sortKey = sortKey

namespace MemoryRepository

abbrev MemoryCall (α : Type) := Call Mutex MemoryStore α

def writeTables (tables : UnorderedMap String Table) : MemoryCall Unit :=
  Call.writeStore fun store => { store with tables }

def writeItems (items : UnorderedMap String Item) : MemoryCall Unit :=
  Call.writeStore fun store => { store with items }

def readTables : MemoryCall (UnorderedMap String Table) := Call.readStore MemoryStore.tables

def readItems : MemoryCall (UnorderedMap String Item) := Call.readStore MemoryStore.items

def tableExists (region tableName : String) : MemoryCall Bool := do
  let tables ← readTables
  return if region ≠ "" then (tables.findIf (Table.isNamed region tableName)).isSome
    else (tables.findIf fun table => table.name = tableName).isSome

def createTable (random : RandomSource) (table : Table) : MemoryCall Table :=
  Action.scopedLock .table do
    let oid := random.uuid (← Call.draw)
    let table := { table with oid }
    writeTables ((← readTables).assign oid table)
    return table

/-- The table found gets its key as object id, here and in the store. -/
def getTableByRegionName (region name : String) : MemoryCall Table := do
  let tables ← readTables
  match tables.findIf (Table.isNamed region name) with
  | some (key, table) =>
    let table := { table with oid := key }
    writeTables (tables.assign key table)
    return table
  | none =>
    Action.raise (.database
      ("Get table by region and name failed, region: " ++ region ++ " name: " ++ name))

/-- The iterator is not compared with the end before it is used. -/
def updateTable (table : Table) : MemoryCall Table :=
  Action.scopedLock .table do
    let tables ← readTables
    match tables.findIf (Table.isNamed table.region table.name) with
    | some (key, _) =>
      writeTables (tables.assign key table)
      return table
    | none => Action.undefinedBehaviour

def createOrUpdateTable (random : RandomSource) (table : Table) : MemoryCall Table := do
  if ← tableExists table.region table.name then updateTable table else createTable random table

def updateTableCounter (tableArn : String) (items size : Int) : MemoryCall Unit :=
  Action.scopedLock .table do
    let tables ← readTables
    match tables.findIf fun table => table.arn = tableArn with
    | some (key, table) => writeTables (tables.assign key { table with items, size })
    | none => return ()

def deleteTable (region tableName : String) : MemoryCall Unit :=
  Action.scopedLock .table do
    writeTables ((← readTables).eraseIf (Table.isNamed region tableName))

/-- Whether an item is the one given, by its place and its keys. -/
def isSameItem (item other : Item) : Bool :=
  other.isIn item.region item.tableName && other.hasKeys item.partitionKey item.sortKey

def itemExists (item : Item) : MemoryCall Bool := do
  return ((← readItems).findIf (isSameItem item)).isSome

/-- `std::get<0>` of a key. -/
def stringKey : KeyValue → Except CoreException String
  | .string value => .ok value
  | _ => .error (.standard "std::get: wrong index for variant")

/-- The comparison of `itemExists`, which stops at the first part that differs. -/
def matchesStrings (region tableName partitionKey sortKey : String) (item : Item) :
    Except CoreException Bool := do
  if item.isIn region tableName then
    if (← stringKey item.partitionKey) = partitionKey then
      return (← stringKey item.sortKey) = sortKey
    else return false
  else return false

/-- The overload of `itemExists` that takes the keys as strings. -/
def itemExistsByKeys (region tableName partitionKey sortKey : String) : MemoryCall Bool := do
  let items ← readItems
  Call.ofExcept (items.values.anyM (matchesStrings region tableName partitionKey sortKey))

/-- `listItems` without paging and sorting, as the service calls it. -/
def listItems (region tableName : String) : MemoryCall (List Item) := do
  let items := (← readItems).values
  let items := if region = "" then items else items.filter fun item => item.region = region
  return if tableName = "" then items else items.filter fun item => item.tableName = tableName

def getItemByKeys (region tableName : String) (partitionKey sortKey : KeyValue) :
    MemoryCall Item := do
  match (← readItems).findIf
      fun item => item.isIn region tableName && item.hasKeys partitionKey sortKey with
  | some (_, item) => return item
  | none =>
    Action.raise (.database
      ("Get item by keys failed, region: " ++ region ++ ", tableName: " ++ tableName))

def createItem (random : RandomSource) (item : Item) : MemoryCall Item :=
  Action.scopedLock .item do
    let oid := random.uuid (← Call.draw)
    let item := { item with oid }
    writeItems ((← readItems).assign oid item)
    return item

def updateItem (now : Time) (item : Item) : MemoryCall Item :=
  Action.scopedLock .item do
    let items ← readItems
    match items.findIf (isSameItem item) with
    | some (key, _) =>
      writeItems (items.assign key item)
      return item
    | none => return Item.fresh now

def createOrUpdateItem (random : RandomSource) (now : Time) (item : Item) : MemoryCall Item := do
  if ← itemExists item then updateItem now item else createItem random item

def countItems (region _tableName : String) : MemoryCall Int := do
  let items ← readItems
  return if region ≠ "" then items.countIf fun item => item.region = region else items.size

def executeQuery : MemoryCall (List Item) := return []

def adjustItemCounters : MemoryCall Unit := do
  let items := (← readItems).values
  writeTables ((← readTables).rewriteIf (fun _ => true) fun table =>
    let counted := items.filter fun item => item.tableName = table.name
    { table with items := counted.length, size := (counted.map Item.size).sum })

def deleteItem (region tableName partitionKey sortKey : String) : MemoryCall Unit :=
  Action.scopedLock .item do
    writeItems ((← readItems).eraseIf fun item =>
      item.isIn region tableName && item.hasKeys (.string partitionKey) (.string sortKey))

def deleteItems (region tableName : String) : MemoryCall Int :=
  Action.scopedLock .item do
    let items ← readItems
    writeItems (items.eraseIf (Item.isIn region tableName))
    return items.countIf (Item.isIn region tableName)

end MemoryRepository

end AwsMock.DynamoDb
