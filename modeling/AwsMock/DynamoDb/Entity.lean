import AwsMock.DynamoDb.AttributeValue

/-! # Tables and items

The entities of the DynamoDB repositories. The attributes of an item are a list
of entries with distinct names.
-/

namespace AwsMock.DynamoDb

/-- `KeyValue`: a key is a string unless it was made from something else. -/
inductive KeyValue where
  | string (value : String)
  | double (value : ℚ)
  | binary (value : List UInt8)
deriving DecidableEq

instance : Inhabited KeyValue := ⟨.string ""⟩

structure AttributeDefinition where
  attributeName : String
  attributeType : String
deriving DecidableEq, Repr

structure KeySchema where
  attributeName : String
  keyType : String
deriving DecidableEq, Repr

structure Tag where
  tagKey : String
  tagValue : String
deriving DecidableEq, Repr

structure ProvisionedThroughput where
  readCapacityUnits : Int := 0
  writeCapacityUnits : Int := 0
  lastDecreaseDateTime : Time := 0
  lastIncreaseDateTime : Time := 0
  numberOfDecreasesToday : Int := 0
deriving DecidableEq, Repr

inductive StreamViewType where
  | keysOnly
  | newImage
  | oldImage
  | newAndOldImages
  | unknown
deriving DecidableEq, Repr

structure StreamSpecification where
  enabled : Bool := false
  streamViewType : StreamViewType := .unknown
deriving DecidableEq, Repr

structure Table where
  oid : String := ""
  region : String := ""
  name : String := ""
  arn : String := ""
  status : String := ""
  attributeDefinitions : List AttributeDefinition := []
  keySchema : List KeySchema := []
  tags : List Tag := []
  items : Int := 0
  size : Int := 0
  provisionedThroughput : ProvisionedThroughput := {}
  streamSpecification : StreamSpecification := {}
  billingMode : String := ""
  sseEnabled : Bool := false
  created : Time
  modified : Time
deriving DecidableEq, Repr

def Table.fresh (now : Time) : Table := { created := now, modified := now }

def Table.keyName (table : Table) (keyType : String) : String :=
  match table.keySchema.find? fun key => key.keyType = keyType with
  | some key => key.attributeName
  | none => ""

def Table.getPartitionKeyName (table : Table) : String := table.keyName "HASH"

def Table.getSortKeyName (table : Table) : String := table.keyName "RANGE"

abbrev Attributes := List (String × DynamoValue)

structure Item where
  oid : String := ""
  region : String := ""
  tableName : String := ""
  partitionKey : KeyValue := .string ""
  sortKey : KeyValue := .string ""
  size : Int := 0
  attributes : Attributes := []
  created : Time
  modified : Time

def Item.fresh (now : Time) : Item := { created := now, modified := now }

def lookup {α : Type} (name : String) (entries : List (String × α)) : Option α :=
  (entries.find? fun entry => entry.1 = name).map Prod.snd

/-- The value `operator[]` finds, or the default value it adds. -/
def Item.attribute (item : Item) (name : String) : DynamoValue :=
  (lookup name item.attributes).getD (.string "")

/-- `operator[]` adds a default value under a name that has none. -/
def Item.withAttribute (item : Item) (name : String) : Item :=
  if (lookup name item.attributes).isSome then item
  else { item with attributes := item.attributes ++ [(name, .string "")] }

inductive Mutex where
  | table
  | item
deriving DecidableEq, Repr

end AwsMock.DynamoDb
