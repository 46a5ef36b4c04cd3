import AwsMock.Core.Http

/-! # Signatures of requests

`AwsUtils::VerifySignature` and what it is computed from. The digests are those of
the cryptographic library and are a parameter.
-/

namespace AwsMock

open Http HttpUtils

structure Digests where
  sha256 : Bytes → Bytes
  hmacSha256 : Bytes → Bytes → Bytes

namespace Crypto

def hexDigit (upper : Bool) (n : UInt8) : UInt8 :=
  if n < 10 then 48 + n else if upper then 55 + n else 87 + n

def hexEncode (digest : Bytes) : Bytes :=
  digest.flatMap fun b => [hexDigit false (b / 16), hexDigit false (b % 16)]

def getSha256FromString (digests : Digests) (content : Bytes) : Bytes :=
  hexEncode (digests.sha256 content)

end Crypto

/-- `AuthorizationHeaderKeys`. -/
structure AuthorizationHeaderKeys where
  signingVersion : Bytes := []
  secretAccessKey : Bytes := []
  dateTime : Bytes := []
  isoDateTime : Bytes := []
  scope : Bytes := []
  region : Bytes := []
  module : Bytes := []
  requestVersion : Bytes := []
  signedHeaders : Bytes := []
  signature : Bytes := []
deriving DecidableEq, Repr

namespace AwsUtils

def isUnreserved (c : UInt8) : Bool :=
  Bytes.isAlnum c || c = 45 || c = 95 || c = 46 || c = 126

def percentEncode (c : UInt8) : Bytes :=
  [37, Crypto.hexDigit true (c / 16), Crypto.hexDigit true (c % 16)]

def sigV4Encode (input : Bytes) : Bytes :=
  input.flatMap fun c => if isUnreserved c then [c] else percentEncode c

/-- `AwsUrlEncode` that keeps slashes. -/
def awsUrlEncode (input : Bytes) : Bytes :=
  input.flatMap fun c => if isUnreserved c || c = 47 then [c] else percentEncode c

def path (target : Bytes) : Bytes := target.takeWhile (· ≠ 63)

def canonicalUri (target : Bytes) : Bytes :=
  if path target = [] then ascii "/"
  else if (awsUrlEncode (path target)).head? = some 47 then awsUrlEncode (path target)
  else 47 :: awsUrlEncode (path target)

/-- The characters `trim_copy` removes. -/
def isSpace (c : UInt8) : Bool := c = 32 || (9 ≤ c && c ≤ 13)

def trim (value : Bytes) : Bytes :=
  ((value.dropWhile isSpace).reverse.dropWhile isSpace).reverse

def collapse : Bool → Bytes → Bytes
  | _, [] => []
  | prevSpace, c :: rest =>
    if c = 32 then
      if prevSpace then collapse true rest else c :: collapse true rest
    else c :: collapse false rest

def normalizeHeaderValue (value : Bytes) : Bytes := collapse false (trim value)

/-- What the expression for the authorization header captures. -/
structure Credential where
  dateTime : Bytes
  region : Bytes
  module : Bytes
  requestVersion : Bytes
  signedHeaders : Bytes
  signature : Bytes
deriving DecidableEq, Repr

def after (expected text : Bytes) : Option Bytes :=
  if expected.isPrefixOf text then some (text.drop expected.length) else none

/-- The longest start of a text of some kind, and the rest, which begins with a slash. -/
def scopePart (kind : UInt8 → Bool) (text : Bytes) : Option (Bytes × Bytes) :=
  match text.dropWhile kind with
  | 47 :: rest => if text.takeWhile kind = [] then none else some (text.takeWhile kind, rest)
  | _ => none

def afterComma (keyword text : Bytes) : Option Bytes :=
  (after (ascii ", " ++ keyword) text).orElse fun _ => after (ascii "," ++ keyword) text

/-- The last place where the signature begins: what is before it, and the signature. -/
def splitSignature : Bytes → Option (Bytes × Bytes)
  | [] => none
  | c :: rest =>
    match splitSignature rest with
    | some (signedHeaders, signature) => some (c :: signedHeaders, signature)
    | none => (afterComma (ascii "Signature=") (c :: rest)).map fun signature => ([], signature)

def isScopeChar (c : UInt8) : Bool := Bytes.isAlnum c || c = 45

/-- The expression, from where `Credential=` has been read. -/
def matchCredential (text : Bytes) : Option Credential := do
  let (_, text) ← scopePart Bytes.isAlnum text
  let (dateTime, text) ← scopePart Bytes.isDigit text
  if dateTime.length ≠ 8 then none
  let (region, text) ← scopePart isScopeChar text
  let (module, text) ← scopePart isScopeChar text
  let text ← after (ascii "aws4_request") text
  let text ← afterComma (ascii "SignedHeaders=") text
  let (signedHeaders, signature) ← splitSignature text
  return {
    dateTime, region, module
    requestVersion := ascii "aws4_request"
    signedHeaders, signature }

/-- `regex_search`: the first place where the expression matches. -/
def searchCredential : Bytes → Option Credential
  | [] => none
  | c :: rest =>
    ((after (ascii "Credential=") (c :: rest)).bind matchCredential).orElse fun _ =>
      searchCredential rest

/-- The keys of a header. Without a match the captures are empty. -/
def readAuthorization (authorizationHeader secretAccessKey isoDateTime : Bytes) :
    AuthorizationHeaderKeys :=
  let what := (searchCredential authorizationHeader).getD ⟨[], [], [], [], [], []⟩
  { signingVersion := (Bytes.split authorizationHeader 32).headD []
    secretAccessKey := if secretAccessKey = [] then ascii "none" else secretAccessKey
    dateTime := what.dateTime
    region := what.region
    module := what.module
    requestVersion := what.requestVersion
    signedHeaders := what.signedHeaders
    signature := what.signature
    scope := what.dateTime ++ ascii "/" ++ what.region ++ ascii "/" ++ what.module ++ ascii "/" ++
      what.requestVersion
    isoDateTime }

/-- `GetAuthorizationKeys`, at the time `isoDateString`. -/
def getAuthorizationKeys (isoDateString : Bytes) (request : Request) (secretAccessKey : Bytes) :
    AuthorizationHeaderKeys :=
  readAuthorization (request.get (ascii "Authorization")) secretAccessKey
    (if hasHeader request (ascii "x-amz-date") then getHeaderValue request (ascii "x-amz-date")
      else isoDateString)

def getCanonicalQueryParameters (path : Bytes) : Option Bytes :=
  (getQueryParameters path).map fun params =>
    (ascii "&").intercalate (params.map fun param =>
      sigV4Encode param.1 ++ ascii "=" ++ sigV4Encode param.2)

def getCanonicalHeaders (request : Request) (keys : AuthorizationHeaderKeys) : Bytes :=
  (Bytes.split keys.signedHeaders 59).flatMap fun header =>
    if hasHeader request header then
      Bytes.toLower header ++ ascii ":" ++ normalizeHeaderValue (getHeaderValue request header) ++
        ascii "\n"
    else []

def getHashedPayload (digests : Digests) (payload : Bytes) : Bytes :=
  Crypto.getSha256FromString digests payload

/-- The last line of the canonical request: a hash in the header goes first. -/
def payloadHash (digests : Digests) (request : Request) : Bytes :=
  if hasHeader request (ascii "x-amz-content-sha256") then
    getHeaderValue request (ascii "x-amz-content-sha256")
  else getHashedPayload digests request.body

def getCanonicalRequest (digests : Digests) (request : Request) (keys : AuthorizationHeaderKeys) :
    Option Bytes :=
  (getCanonicalQueryParameters request.target).map fun query =>
    (ascii "\n").intercalate [request.method.toBytes, canonicalUri request.target, query,
      getCanonicalHeaders request keys, keys.signedHeaders, payloadHash digests request]

def getStringToSign (digests : Digests) (canonicalRequest : Bytes)
    (keys : AuthorizationHeaderKeys) : Bytes :=
  (ascii "\n").intercalate [keys.signingVersion, keys.isoDateTime, keys.scope,
    Crypto.getSha256FromString digests canonicalRequest]

def getSignature (digests : Digests) (keys : AuthorizationHeaderKeys) (stringToSign : Bytes) :
    Bytes :=
  let digest := digests.hmacSha256 (ascii "AWS4" ++ keys.secretAccessKey) keys.dateTime
  let digest := digests.hmacSha256 digest keys.region
  let digest := digests.hmacSha256 digest keys.module
  let digest := digests.hmacSha256 digest keys.requestVersion
  let digest := digests.hmacSha256 digest stringToSign
  Crypto.hexEncode digest

/-- `StringUtils::Equals`. -/
def equals (s1 s2 : Bytes) : Bool := s1 ≠ [] && s2 ≠ [] && s1 = s2

/-- `VerifySignature`: a target with a bad escape is an exception. -/
def verifySignature (digests : Digests) (isoDateString : Bytes) (request : Request)
    (secretAccessKey : Bytes) : Option Bool :=
  let keys := getAuthorizationKeys isoDateString request secretAccessKey
  (getCanonicalRequest digests request keys).map fun canonicalRequest =>
    equals (getSignature digests keys (getStringToSign digests canonicalRequest keys)) keys.signature

end AwsUtils

end AwsMock
