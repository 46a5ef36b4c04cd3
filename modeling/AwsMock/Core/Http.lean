import AwsMock.Core.Text

/-! # Requests of the gateway

Strings of a request are the bytes that arrive. Header fields keep the order of
insertion and are found by name without regard to case. `UrlDecode` follows the
percent decoding of a view that reads `+` as a blank and rejects a bad escape.
-/

namespace AwsMock

abbrev Bytes := List UInt8

def ascii (text : String) : Bytes := text.toList.map fun c => UInt8.ofNat c.toNat

namespace Bytes

def isUpper (c : UInt8) : Bool := 65 ≤ c && c ≤ 90

def isLower (c : UInt8) : Bool := 97 ≤ c && c ≤ 122

def isDigit (c : UInt8) : Bool := 48 ≤ c && c ≤ 57

def isAlnum (c : UInt8) : Bool := isUpper c || isLower c || isDigit c

def lower (c : UInt8) : UInt8 := if isUpper c then c + 32 else c

def toLower (s : Bytes) : Bytes := s.map lower

/-- `boost::split` on one delimiter: empty parts are kept, and there is at least one part. -/
def split (s : Bytes) (delim : UInt8) : List Bytes := s.splitOn delim

def contains (s1 s2 : Bytes) : Bool := decide (s2 <:+: s1)

def startsWith (s1 s2 : Bytes) : Bool := s2.isPrefixOf s1

/-- `EqualsIgnoreCase`, as header fields are compared. -/
def iequals (s1 s2 : Bytes) : Bool := toLower s1 = toLower s2

def after (marker : Bytes) : Bytes → Option Bytes
  | [] => if marker = [] then some [] else none
  | c :: s =>
    if startsWith (c :: s) marker then some ((c :: s).drop marker.length) else after marker s

/-- What comes before the first occurrence of a marker, the whole text when there is none. -/
def before (marker : Bytes) : Bytes → Bytes
  | [] => []
  | c :: s => if startsWith (c :: s) marker then [] else c :: before marker s

/-- What comes after the last occurrence of a character, the whole text when there is none. -/
def afterLast (c : UInt8) (s : Bytes) : Bytes := (s.reverse.takeWhile (· ≠ c)).reverse

def hexValue (c : UInt8) : Option UInt8 :=
  if Bytes.isDigit c then some (c - 48)
  else if 65 ≤ c && c ≤ 70 then some (c - 55)
  else if 97 ≤ c && c ≤ 102 then some (c - 87)
  else none

/-- `UrlDecode`: a bad escape is an exception. -/
def urlDecode : Bytes → Option Bytes
  | [] => some []
  | c :: rest =>
    if c = 37 then
      match rest with
      | high :: low :: rest =>
        match hexValue high, hexValue low, urlDecode rest with
        | some h, some l, some decoded => some ((h * 16 + l) :: decoded)
        | _, _, _ => none
      | _ => none
    else
      match urlDecode rest with
      | some decoded => some ((if c = 43 then 32 else c) :: decoded)
      | none => none

end Bytes

namespace Http

/-- The methods that are told apart. The other ones that have a name of their own
keep it. -/
inductive Verb where
  | get
  | put
  | post
  | delete
  | patch
  | head
  | options
  | other (name : Bytes)
  | unknown
deriving DecidableEq, Repr

/-- `to_string` of a method. -/
def Verb.toBytes : Verb → Bytes
  | .get => ascii "GET"
  | .put => ascii "PUT"
  | .post => ascii "POST"
  | .delete => ascii "DELETE"
  | .patch => ascii "PATCH"
  | .head => ascii "HEAD"
  | .options => ascii "OPTIONS"
  | .other name => name
  | .unknown => ascii "<unknown>"

def verbs : List Verb :=
  [.get, .put, .post, .delete, .patch, .head, .options] ++
    (["CONNECT", "TRACE", "COPY", "LOCK", "MKCOL", "MOVE", "PROPFIND", "PROPPATCH", "SEARCH",
      "UNLOCK", "BIND", "REBIND", "UNBIND", "ACL", "REPORT", "MKACTIVITY", "CHECKOUT", "MERGE",
      "M-SEARCH", "NOTIFY", "SUBSCRIBE", "UNSUBSCRIBE", "PURGE", "MKCALENDAR", "LINK",
      "UNLINK"].map fun name => .other (ascii name))

/-- `string_to_verb`. -/
def stringToVerb (name : Bytes) : Verb :=
  (verbs.find? fun verb => verb.toBytes = name).getD .unknown

theorem toBytes_stringToVerb {name : Bytes} :
    (stringToVerb name).toBytes = name ∨ stringToVerb name = .unknown := by
  unfold stringToVerb
  cases hfind : verbs.find? fun verb => verb.toBytes = name with
  | none => exact .inr rfl
  | some verb =>
    have hverb := List.find?_some hfind
    exact .inl (of_decide_eq_true hverb)

structure Request where
  methodString : Bytes
  target : Bytes
  version : Nat := 11
  fields : List (Bytes × Bytes) := []
  body : Bytes := []
deriving DecidableEq, Repr

namespace Request

variable (request : Request)

def method : Verb := stringToVerb request.methodString

def find (name : Bytes) : Option Bytes :=
  (request.fields.find? fun field => Bytes.iequals field.1 name).map Prod.snd

def get (name : Bytes) : Bytes := (request.find name).getD []

end Request

end Http

namespace HttpUtils

open Http

def hasHeader (request : Request) (name : Bytes) : Bool := (request.find name).isSome

def getHeaderValue (request : Request) (key : Bytes) (defaultValue : Bytes := []) : Bytes :=
  if !hasHeader request key && !defaultValue.isEmpty then defaultValue else request.get key

/-- `queryParameters[key] = value` of a map, which is iterated in the order of its keys. -/
def assign (key value : Bytes) : List (Bytes × Bytes) → List (Bytes × Bytes)
  | [] => [(key, value)]
  | (k, v) :: rest =>
    if key = k then (k, value) :: rest
    else if key < k then (key, value) :: (k, v) :: rest
    else (k, v) :: assign key value rest

/-- One parameter: an extra `=` drops the value. -/
def readParameter (part : Bytes) : Bytes × Bytes :=
  match Bytes.split part 61 with
  | [key, value] => (key, value)
  | key :: _ => (key, [])
  | [] => ([], [])

/-- `GetQueryParameters`: the whole URI is decoded before it is split. -/
def getQueryParameters (uri : Bytes) : Option (List (Bytes × Bytes)) :=
  if uri = ascii "/" then some []
  else if 63 ∉ uri then some []
  else
    match Bytes.urlDecode uri with
    | none => none
    | some decoded =>
      let localUri := if 63 ∈ decoded then (decoded.dropWhile (· ≠ 63)).tail else decoded
      if 38 ∉ localUri ∧ 61 ∉ localUri then
        if localUri = [] then some [] else some [(localUri, [])]
      else some ((Bytes.split localUri 38).foldl
        (fun parameters part => assign (readParameter part).1 (readParameter part).2 parameters) [])

end HttpUtils

end AwsMock
