import AwsMock.DynamoDb.MemoryRepository
import AwsMock.DynamoDb.MongoRepository

/-! # The repository interface

`IDynamoDbRepository`, which the service calls, and its two implementations.
The clock reading of a call is an argument.
-/

namespace AwsMock.DynamoDb

open Foundation

/-- `IDynamoDbRepository`: the functions the service uses. -/
structure Repository (Store : Type) where
  tableExists : String → String → Call Mutex Store Bool
  createTable : Time → Table → Call Mutex Store Table
  getTableByRegionName : Time → String → String → Call Mutex Store Table
  updateTable : Time → Table → Call Mutex Store Table
  deleteTable : String → String → Call Mutex Store Unit
  itemExists : Item → Call Mutex Store Bool
  itemExistsByKeys : String → String → String → String → Call Mutex Store Bool
  listItems : Time → String → String → Call Mutex Store (List Item)
  getItemByKeys : Time → String → String → KeyValue → KeyValue → Call Mutex Store Item
  createOrUpdateItem : Time → Item → Call Mutex Store Item
  executeQuery : Time → Document → Bool → Int → Call Mutex Store (List Item)
  countItems : String → String → Call Mutex Store Int
  adjustItemCounters : Call Mutex Store Unit
  deleteItem : Time → String → String → String → String → Call Mutex Store Unit
  deleteItems : Time → String → String → Call Mutex Store Int

/-- `DynamoDbMemoryRepository`. -/
def memoryRepository (random : RandomSource) : Repository MemoryStore where
  tableExists := MemoryRepository.tableExists
  createTable := fun _ => MemoryRepository.createTable random
  getTableByRegionName := fun _ => MemoryRepository.getTableByRegionName
  updateTable := fun _ => MemoryRepository.updateTable
  deleteTable := MemoryRepository.deleteTable
  itemExists := MemoryRepository.itemExists
  itemExistsByKeys := MemoryRepository.itemExistsByKeys
  listItems := fun _ => MemoryRepository.listItems
  getItemByKeys := fun _ => MemoryRepository.getItemByKeys
  createOrUpdateItem := MemoryRepository.createOrUpdateItem random
  executeQuery := fun _ _ _ _ => MemoryRepository.executeQuery
  countItems := MemoryRepository.countItems
  adjustItemCounters := MemoryRepository.adjustItemCounters
  deleteItem := fun _ => MemoryRepository.deleteItem
  deleteItems := fun _ => MemoryRepository.deleteItems

/-- `DynamoDbMongoRepository`. -/
def mongoRepository (random : RandomSource) : Repository MongoStore where
  tableExists := MongoRepository.tableExists
  createTable := MongoRepository.createTable random
  getTableByRegionName := MongoRepository.getTableByRegionName
  updateTable := MongoRepository.updateTable
  deleteTable := MongoRepository.deleteTable
  itemExists := MongoRepository.itemExists
  itemExistsByKeys := MongoRepository.itemExistsByKeys
  listItems := MongoRepository.listItems
  getItemByKeys := MongoRepository.getItemByKeys
  createOrUpdateItem := MongoRepository.createOrUpdateItem random
  executeQuery := MongoRepository.executeQuery
  countItems := MongoRepository.countItems
  adjustItemCounters := MongoRepository.adjustItemCounters
  deleteItem := MongoRepository.deleteItem
  deleteItems := MongoRepository.deleteItems

end AwsMock.DynamoDb
