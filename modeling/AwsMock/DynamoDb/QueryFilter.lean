import AwsMock.Foundation.FilterDocument
import AwsMock.DynamoDb.Entity
import AwsMock.DynamoDb.Expression

/-! # Filters of queries

`DynamoDbQueryHelper`: an expression and the values of its placeholders become a
filter document. Numbers are read as whole numbers, and the conditions on the
table name and the region are not on attributes.
-/

namespace AwsMock.DynamoDb.QueryHelper

open Foundation ExpressionParser

/-- `ExpressionAttributeValues`, by placeholder. -/
abbrev ExpressionAttributeValues := List (String × AttributeValue)

/-- `parse_expression`: control characters are dropped, and the message of an
exception is put into a new one. -/
def parseExpression (input : String) : Except CoreException (List Condition) :=
  let normalized := String.ofList (input.toList.filter fun c => ' ' ≤ c)
  (parse normalized).mapError fun e =>
    .dynamoDbParse ("DynamoDB expression parse error: " ++ e.what ++ " | input: " ++ input)

def resolve (placeholder : String) (values : ExpressionAttributeValues) :
    Except CoreException AttributeValue :=
  let key := if placeholder.toList.head? = some ':' then placeholder else ":" ++ placeholder
  match lookup key values with
  | some value => .ok value
  | none => fail ("Missing ExpressionAttributeValue for: " ++ key)

def getField (inputField : String) : String :=
  if inputField ≠ "tableName" ∧ inputField ≠ "region" then "attributes." ++ inputField
  else inputField

/-- The operand of a comparison: a string, or a number as far as `std::stoi` reads it. -/
def operand : AttributeValue → Except CoreException Scalar
  | .s stringValue => .ok (.string stringValue)
  | .n numberValue => return .int32 (← stoi numberValue)
  | _ => fail "Unhandled condition variant in build_single"

def buildComparison (comparison : Comparison) (field placeholder : String)
    (values : ExpressionAttributeValues) : Except CoreException Document := do
  let operand ← operand (← resolve placeholder values)
  return [(getField field, .document [(comparison.operator, .scalar operand)])]

/-- `build_single`. -/
def buildSingle (values : ExpressionAttributeValues) : Condition → Except CoreException Document
  | .eq field placeholder => do
      let operand ← operand (← resolve placeholder values)
      return [(getField field, .scalar operand)]
  | .gte field placeholder => buildComparison .gte field placeholder values
  | .lte field placeholder => buildComparison .lte field placeholder values
  | .gt field placeholder => buildComparison .gt field placeholder values
  | .lt field placeholder => buildComparison .lt field placeholder values
  | .between field low high => do
      let valueLow ← resolve low values
      let valueHigh ← resolve high values
      match valueLow, valueHigh with
      | .n low, .n high =>
        return [(getField field, .document [("$gte", .scalar (.int32 (← stoi low))),
          ("$lte", .scalar (.int32 (← stoi high)))])]
      | _, _ => fail "Unhandled condition variant in build_single"

/-- `build_mongo_filter`: one condition stands alone, several are joined. -/
def buildMongoFilter (conditions : List Condition) (values : ExpressionAttributeValues) :
    Except CoreException Document :=
  match conditions with
  | [condition] => buildSingle values condition
  | conditions => do
      let filters ← conditions.mapM (buildSingle values)
      return [("$and", .array (filters.map .document))]

/-- `ToMongoFilter`. -/
def toMongoFilter (expression : String) (values : ExpressionAttributeValues) :
    Except CoreException Document := do
  buildMongoFilter (← parseExpression expression) values

end AwsMock.DynamoDb.QueryHelper
