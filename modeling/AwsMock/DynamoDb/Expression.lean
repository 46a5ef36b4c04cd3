import AwsMock.Core.Numbers

/-! # Key condition expressions

`ExpressionParser`: a recursive descent parser of conditions on fields, joined
by `AND`. The cursor holds what is left of the input, and how much was read.
-/

namespace AwsMock.DynamoDb.QueryHelper

open Foundation

/-- The nodes of the syntax tree: conditions with the placeholders of their operands. -/
inductive Condition where
  | eq (field placeholder : String)
  | gte (field placeholder : String)
  | lte (field placeholder : String)
  | gt (field placeholder : String)
  | lt (field placeholder : String)
  | between (field low high : String)
deriving DecidableEq, Repr

namespace ExpressionParser

structure Cursor where
  pos : Nat
  rest : List Char
deriving DecidableEq, Repr

def Cursor.start (input : String) : Cursor := ⟨0, input.toList⟩

def Cursor.advance (cursor : Cursor) (count : Nat) : Cursor :=
  ⟨cursor.pos + count, cursor.rest.drop count⟩

def Cursor.peek (cursor : Cursor) : Option Char := cursor.rest.head?

def Cursor.sees (cursor : Cursor) (text : String) : Bool :=
  text.toList.isPrefixOf cursor.rest

def fail {α : Type} (message : String) : Except CoreException α :=
  .error (.dynamoDbParse message)

def expect (c : Char) (cursor : Cursor) : Except CoreException Cursor :=
  match cursor.rest with
  | next :: rest =>
    if next = c then .ok ⟨cursor.pos + 1, rest⟩
    else fail ("Expected '" ++ c.toString ++ "' at position " ++ toString cursor.pos ++
      ", got '" ++ next.toString ++ "'")
  | [] => fail ("Expected '" ++ c.toString ++ "' at position " ++ toString cursor.pos ++
      ", got 'EOF'")

def expectStr (text : String) (cursor : Cursor) : Except CoreException Cursor :=
  if cursor.sees text then .ok (cursor.advance text.length)
  else fail ("Expected '" ++ text ++ "' at position " ++ toString cursor.pos)

def skipSpaces (cursor : Cursor) : Cursor :=
  cursor.advance (cursor.rest.takeWhile isSpace).length

def isNameChar (c : Char) : Bool := c.isAlphanum || c = '_'

/-- A conjunction goes on when a field follows, and not a placeholder. -/
def matchKeywordAnd (cursor : Cursor) : Option Cursor :=
  let keyword := cursor.advance (cursor.rest.takeWhile fun c => c = ' ').length
  if keyword.sees "AND " then
    let next := keyword.advance 4
    match next.peek with
    | some c => if c.isAlpha || c = '#' then some next else none
    | none => none
  else none

def takeName (cursor : Cursor) : List Char × Cursor :=
  let name := cursor.rest.takeWhile isNameChar
  (name, cursor.advance name.length)

def parseField (cursor : Cursor) : Except CoreException (String × Cursor) :=
  let hash := cursor.peek = some '#'
  let cursor := if hash then cursor.advance 1 else cursor
  if cursor.peek.any Char.isAlpha then
    let (name, after) := takeName cursor
    .ok ((if hash then "#" else "") ++ String.ofList name, after)
  else fail ("Expected field name at position " ++ toString cursor.pos)

def parsePlaceholder (cursor : Cursor) : Except CoreException (String × Cursor) := do
  let cursor ← expect ':' cursor
  if cursor.peek.any isNameChar then
    let (name, after) := takeName cursor
    .ok (":" ++ String.ofList name, after)
  else fail ("Expected placeholder name after ':' at position " ++ toString cursor.pos)

/-- The message names the code of a character that starts no operator. -/
def parseOperator (cursor : Cursor) : Except CoreException (String × Cursor) :=
  match cursor.rest with
  | '=' :: rest => .ok ("=", ⟨cursor.pos + 1, rest⟩)
  | '>' :: '=' :: rest => .ok (">=", ⟨cursor.pos + 2, rest⟩)
  | '>' :: rest => .ok (">", ⟨cursor.pos + 1, rest⟩)
  | '<' :: '=' :: rest => .ok ("<=", ⟨cursor.pos + 2, rest⟩)
  | '<' :: rest => .ok ("<", ⟨cursor.pos + 1, rest⟩)
  | c :: _ => fail ("Unknown operator '" ++ toString c.toNat ++ "' at position " ++
      toString (cursor.pos + 1))
  | [] => fail ("Expected operator at position " ++ toString cursor.pos)

def parseCondition (cursor : Cursor) : Except CoreException (Condition × Cursor) := do
  let (field, cursor) ← parseField cursor
  if cursor.sees " BETWEEN " then
    let (low, cursor) ← parsePlaceholder (cursor.advance 9)
    let cursor ← expectStr " AND " cursor
    let (high, cursor) ← parsePlaceholder cursor
    return (.between field low high, cursor)
  else
    let (op, cursor) ← parseOperator (skipSpaces cursor)
    let (val, cursor) ← parsePlaceholder (skipSpaces cursor)
    if op = "=" then return (.eq field val, cursor)
    else if op = ">=" then return (.gte field val, cursor)
    else if op = "<=" then return (.lte field val, cursor)
    else if op = ">" then return (.gt field val, cursor)
    else if op = "<" then return (.lt field val, cursor)
    else fail ("Unknown operator: " ++ op)

/-- The loop of `parse`. Every round reads something, so no more rounds are
needed than there are characters left. -/
def parseMore : Nat → List Condition → Cursor → Except CoreException (List Condition × Cursor)
  | 0, conditions, cursor => .ok (conditions, cursor)
  | fuel + 1, conditions, cursor =>
    match matchKeywordAnd cursor with
    | none => .ok (conditions, cursor)
    | some next => do
        let (condition, after) ← parseCondition next
        parseMore fuel (conditions ++ [condition]) after

/-- `parse`, with the conditions of the `And` node. -/
def parse (input : String) : Except CoreException (List Condition) := do
  let (first, cursor) ← parseCondition (.start input)
  let (conditions, cursor) ← parseMore cursor.rest.length [first] cursor
  if cursor.rest = [] then return conditions
  else fail ("Unexpected trailing input at position " ++ toString cursor.pos ++ ": '" ++
    String.ofList cursor.rest ++ "'")

end ExpressionParser

namespace Condition

def field : Condition → String
  | .eq field _ | .gte field _ | .lte field _ | .gt field _ | .lt field _ => field
  | .between field _ _ => field

def placeholders : Condition → List String
  | .eq _ placeholder | .gte _ placeholder | .lte _ placeholder | .gt _ placeholder
  | .lt _ placeholder => [placeholder]
  | .between _ low high => [low, high]

end Condition

end AwsMock.DynamoDb.QueryHelper
