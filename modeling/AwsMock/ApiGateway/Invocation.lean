import AwsMock.Foundation.UnorderedMap
import AwsMock.Gateway.S3ClientCommand

/-! # Invocations of REST APIs

A request below `/restapis` names a REST API, a stage and a path. The first resource
whose template the path fits is taken, the key and the authorizer are asked, and the
request goes to the integration of its method. Maps are kept in the order of their
keys, which no lookup depends on, and which the search for a resource does.
-/

namespace AwsMock

namespace ApiGateway

open Http HttpUtils Gateway Foundation

section Entities

structure ResourceMethod where
  apiKeyRequired : Bool := false
  integrationType : Bytes := []
  integrationUri : Bytes := []
  integrationHttpMethod : Bytes := []

structure Resource where
  path : Bytes
  resourceMethods : UnorderedMap Bytes ResourceMethod

structure Authorizer where
  type : Bytes := []
  authorizerUri : Bytes := []
  identitySource : Bytes := []

structure RestApi where
  authorizers : UnorderedMap Bytes Authorizer
  resources : UnorderedMap Bytes Resource

structure ApiKey where
  keyValue : Bytes
  enabled : Bool

end Entities

section Json

inductive Json where
  | null
  | scalar
  | string (text : Bytes)
  | array (values : List Json)
  | object (members : List (Bytes × Json))

def Json.member (name : Bytes) : Json → Option Json
  | .object members =>
    match (members.find? fun member => member.1 = name).map Prod.snd with
    | some .null => none
    | found => found
  | _ => none

end Json

section Authorization

inductive Invocation where
  | returned (status : Int) (responseBody : Bytes)
  | threw

inductive AuthorizerEvent where
  | token (methodArn authorizationToken : Bytes)
  | request (type methodArn apiId resourcePath httpMethod requestId : Bytes)
      (headers : List (Bytes × Bytes))

/-- What the handler asks: the services, the parser of JSON and the random numbers. -/
structure Backend where
  getRestApi : Bytes → Option RestApi
  apiKeys : List ApiKey
  invoke : Bytes → Bytes → AuthorizerEvent → Invocation
  parseJson : Bytes → Option Json
  requestId : Bytes

/-- The function of an authorizer or an integration: the last component of the ARN that
stands between `/functions/` and `/invocations`. -/
def extractFunctionNameFromUri (authorizerUri : Bytes) : Bytes :=
  match Bytes.after (ascii "/functions/") authorizerUri with
  | none => []
  | some lambdaArn => Bytes.afterLast 58 (Bytes.before (ascii "/invocations") lambdaArn)

def buildAuthorizerPayload (requestId : Bytes) (request : Request) (restApiId resourcePath : Bytes)
    (authorizer : Authorizer) : AuthorizerEvent :=
  let httpMethod := request.method.toBytes
  let authorizerType := if authorizer.type = [] then ascii "REQUEST" else authorizer.type
  let methodArn :=
    ascii "arn:aws:execute-api::" ++ restApiId ++ ascii "/test/" ++ httpMethod ++ resourcePath
  if authorizerType = ascii "TOKEN" then
    let headerPrefix := ascii "method.request.header."
    .token methodArn (if Bytes.startsWith authorizer.identitySource headerPrefix then
        getHeaderValue request (authorizer.identitySource.drop headerPrefix.length)
      else [])
  else
    .request authorizerType methodArn restApiId resourcePath httpMethod requestId request.fields

/-- `"errorType"` or `"errorMessage"`, wherever they stand. -/
def isLambdaExecutionError (responseBody : Bytes) : Bool :=
  Bytes.contains responseBody (ascii "\"errorType\"") ||
    Bytes.contains responseBody (ascii "\"errorMessage\"")

/-- `"Allow"`, wherever it stands, or in the body that a proxy response wraps, which ends
at its first null. -/
def isInvocationAllowed (parseJson : Bytes → Option Json) (responseBody : Bytes) : Bool :=
  Bytes.contains responseBody (ascii "\"Allow\"") ||
    match (parseJson responseBody).bind (Json.member (ascii "body")) with
    | some (.string inner) => Bytes.contains (inner.takeWhile (· ≠ 0)) (ascii "\"Allow\"")
    | _ => false

def validateApiKey (apiKeys : List ApiKey) (keyValue : Bytes) : Bool :=
  apiKeys.any fun key => key.keyValue = keyValue && key.enabled

end Authorization

section Paths

def splitPath (s : Bytes) : List Bytes := (Bytes.split s 47).filter (· ≠ [])

def isParameter (part : Bytes) : Bool := part.head? = some 123 && part.getLast? = some 125

def parameterName (part : Bytes) : Bytes := (part.drop 1).take (part.length - 2)

/-- The loop of `PathMatches`. -/
def segmentsMatch : List Bytes → List Bytes → Bool
  | [], [] => true
  | p :: pp, r :: rp => (isParameter p || p = r) && segmentsMatch pp rp
  | _, _ => false

def pathMatches (pattern path : Bytes) : Bool :=
  pattern = path || segmentsMatch (splitPath pattern) (splitPath path)

/-- The loop of `ExtractPathParameters`, over parts of equal number. -/
def extractSegments (params : List (Bytes × Bytes)) : List Bytes → List Bytes → List (Bytes × Bytes)
  | t :: tp, a :: ap =>
    extractSegments (if isParameter t then assign (parameterName t) a params else params) tp ap
  | _, _ => params

def extractPathParameters (templatePath actualPath : Bytes) : List (Bytes × Bytes) :=
  let tp := splitPath templatePath
  let ap := splitPath actualPath
  if tp.length ≠ ap.length then [] else extractSegments [] tp ap

def stageAndPath (url restApiId : Bytes) : Bytes × Bytes :=
  let pathPrefix := ascii "/restapis/" ++ restApiId
  let below := if Bytes.startsWith url pathPrefix then url.drop pathPrefix.length else ascii "/"
  let remaining := below.takeWhile (· ≠ 63)
  if remaining.length > 1 ∧ remaining.head? = some 47 then
    let stage := remaining.tail.takeWhile (· ≠ 47)
    let rest := remaining.tail.dropWhile (· ≠ 47)
    (stage, if rest = [] then ascii "/" else rest)
  else ([], if remaining = [] then ascii "/" else remaining)

def findResource (resources : UnorderedMap Bytes Resource) (resourcePath : Bytes) :
    Option Resource :=
  (resources.findIf fun resource => pathMatches resource.path resourcePath).map Prod.snd

end Paths

section Handler

structure ProxyEvent where
  resource : Bytes
  path : Bytes
  httpMethod : Bytes
  headers : List (Bytes × Bytes)
  queryStringParameters : List (Bytes × Bytes)
  pathParameters : List (Bytes × Bytes)
  apiId : Bytes
  stage : Bytes
  requestId : Bytes
  body : Bytes

/-- What becomes of a request: a response, or one of the integrations. -/
inductive Reply where
  | response (status : Nat) (message : Bytes)
  | lambda (functionName : Bytes) (event : ProxyEvent)
  | mock
  | forward (integrationUri integrationHttpMethod : Bytes)

def Reply.refuse (status : Nat) (message : String) : Reply := .response status (ascii message)

structure Located where
  restApiId : Bytes
  stageName : Bytes
  resourcePath : Bytes
  restApi : RestApi
  resource : Resource

variable (urls : UrlLibrary) (backend : Backend) (request : Request)

/-- The first part of `HandleResourceInvocation`. -/
def locate : Checked (Except Reply Located) := do
  let restApiId ← getPathParameter urls request.target 1
  if restApiId = [] then return .error (.refuse 404 "REST API ID missing")
  let (stageName, resourcePath) := stageAndPath request.target restApiId
  match backend.getRestApi restApiId with
  | none => return .error (.refuse 404 "REST API not found")
  | some restApi =>
    match findResource restApi.resources resourcePath with
    | none => return .error (.refuse 404 "Resource not found")
    | some resource =>
      return .ok { restApiId, stageName, resourcePath, restApi, resource }

/-- The key is asked for when the method of the verb itself requires it. -/
def checkApiKey (resource : Resource) : Option Reply :=
  match resource.resourceMethods.lookup request.method.toBytes with
  | some method =>
    if method.apiKeyRequired then
      let apiKey := getHeaderValue request (ascii "x-api-key")
      if apiKey = [] || !validateApiKey backend.apiKeys apiKey then
        some (.refuse 403 "Forbidden")
      else none
    else none
  | none => none

def invokeAuthorizer (region : Bytes) (located : Located) : Option Reply :=
  match located.restApi.authorizers.values.head? with
  | none => none
  | some authorizer =>
    let functionName := extractFunctionNameFromUri authorizer.authorizerUri
    if functionName = [] then none
    else
      match backend.invoke region functionName (buildAuthorizerPayload backend.requestId request
        located.restApiId located.resourcePath authorizer) with
      | .threw => some (.refuse 500 "Authorizer error")
      | .returned status responseBody =>
        -- what is no answer of the authorizer does not stop the request
        if status = 200 then
          if isLambdaExecutionError responseBody then none
          else if !isInvocationAllowed backend.parseJson responseBody then
            some (.refuse 403 "Forbidden")
          else none
        else none

def findMethod (resource : Resource) (httpMethod : Bytes) : Option ResourceMethod :=
  (resource.resourceMethods.lookup httpMethod).or (resource.resourceMethods.lookup (ascii "ANY"))

def buildLambdaProxyEvent (requestId : Bytes) (located : Located) : Checked ProxyEvent :=
  match getQueryParameters request.target with
  | none => .error .exception
  | some queryStringParameters =>
    .ok {
      resource := located.resource.path
      path := located.resourcePath
      httpMethod := request.method.toBytes
      headers := request.fields
      queryStringParameters
      pathParameters := extractPathParameters located.resource.path located.resourcePath
      apiId := located.restApiId
      stage := located.stageName
      requestId
      body := request.body }

def dispatch (located : Located) : Checked Reply :=
  match findMethod located.resource request.method.toBytes with
  | none => .ok (.refuse 405 "Method not allowed")
  | some method =>
    if method.integrationType = ascii "AWS_PROXY" ∨ method.integrationType = ascii "AWS" then
      let functionName := extractFunctionNameFromUri method.integrationUri
      if functionName = [] then .ok (.refuse 502 "Invalid Lambda integration URI")
      else
        do return .lambda functionName (← buildLambdaProxyEvent request backend.requestId located)
    else if method.integrationType = ascii "MOCK" then .ok .mock
    else if method.integrationType = ascii "HTTP" ∨ method.integrationType = ascii "HTTP_PROXY"
    then .ok (.forward method.integrationUri method.integrationHttpMethod)
    else if method.integrationType = [] then
      .ok (.refuse 501 "No integration configured for this method")
    else
      .ok (.response 501 (ascii "Integration type not supported: " ++ method.integrationType))

def handleResourceInvocation (region : Bytes) : Checked Reply := do
  match ← locate urls backend request with
  | .error reply => return reply
  | .ok located =>
    match checkApiKey backend request located.resource with
    | some reply => return reply
    | none =>
      match invokeAuthorizer backend request region located with
      | some reply => return reply
      | none => dispatch backend request located

end Handler

end ApiGateway

end AwsMock
