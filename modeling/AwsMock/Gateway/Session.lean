import AwsMock.Core.AwsUtils

/-! # The routing of a gateway session

`HandleRequest` of `GatewaySession`: a request is answered with an error, or it is
given to the handler of its module with a region and a user. Region, module and
handler are fields of the session.
-/

namespace AwsMock.Gateway

open Http HttpUtils

inductive Handler where
  | s3
  | sqs
  | sns
  | lambda
  | transfer
  | cognito
  | secretsManager
  | kms
  | ssm
  | dynamoDb
  | application
  | apiGateway
  | monitoring
  | module
  | container
  | sts
  | iam
  | cloudWatchLogs
deriving DecidableEq, Repr

def routingKeys : List (String × Handler) :=
  [("s3", .s3), ("s3api", .s3), ("sqs", .sqs), ("sns", .sns), ("lambda", .lambda),
    ("transfer", .transfer), ("cognito-idp", .cognito), ("cognito-identity", .cognito),
    ("secretsmanager", .secretsManager), ("kms", .kms), ("ssm", .ssm), ("dynamodb", .dynamoDb),
    ("dynamodbs", .dynamoDb), ("application", .application), ("apigateway", .apiGateway),
    ("execute-api", .apiGateway), ("monitoring", .monitoring), ("module", .module),
    ("container", .container), ("sts", .sts), ("iam", .iam), ("logs", .cloudWatchLogs)]

/-- `GatewayRouter::GetHandler`. -/
def getHandler (routingKey : Bytes) : Option Handler :=
  (routingKeys.find? fun entry => ascii entry.1 = routingKey).map Prod.snd

structure Configuration where
  region : Bytes
  user : Bytes
  secretAccessKey : Bytes
  verifySignature : Bool
deriving DecidableEq, Repr

structure Arrival where
  request : Request
  isoDateString : Bytes
deriving DecidableEq, Repr

structure GatewaySession where
  region : Bytes
  user : Bytes
  currentModule : Bytes := []
  handler : Option Handler := none
deriving DecidableEq, Repr

def GatewaySession.fresh (configuration : Configuration) : GatewaySession :=
  { region := configuration.region, user := configuration.user }

inductive Response where
  | badRequest (message : String)
  | unauthorized (message : String)
  | health
  | notImplemented (message : String)
  | dispatched (handler : Handler) (method : Verb) (region user : Bytes)
deriving DecidableEq, Repr

def handledMethods : List Verb := [.get, .put, .post, .delete, .patch, .head]

/-- The answer to a request that is not routed: its method or its path is not
accepted, or it asks for the health of the gateway. -/
def answer (request : Request) : Option Response :=
  if request.method ∉ handledMethods then
    some (.badRequest "Unknown HTTP-method")
  else if request.target.head? ≠ some 47 ∨ Bytes.contains request.target (ascii "..") then
    some (.badRequest "Invalid target path")
  else if request.target = ascii "/health" then some .health
  else none

/-- `GetAuthorizationKeys` of the session, which looks at the target of a request
without an authorization. -/
def getAuthorizationKeys (configuration : Configuration) (request : Request)
    (secretAccessKey : Bytes) : AuthorizationHeaderKeys :=
  if request.get (ascii "Authorization") ≠ [] then
    AwsUtils.readAuthorization (request.get (ascii "Authorization")) secretAccessKey
      (getHeaderValue request (ascii "x-amz-date"))
  else if hasHeader request (ascii "X-Amz-Target") then
    if Bytes.contains (getHeaderValue request (ascii "X-Amz-Target")) (ascii "Cognito") then
      { module := ascii "cognito-idp", region := configuration.region }
    else {}
  else if Bytes.startsWith request.target (ascii "/restapis") ||
      Bytes.startsWith request.target (ascii "/apikeys") then
    { region := configuration.region, module := ascii "apigateway" }
  else if Bytes.startsWith request.target (ascii "/2015-03-31/functions") ||
      Bytes.startsWith request.target (ascii "/2021-10-31/event-source-mappings") then
    { region := configuration.region, module := ascii "lambda" }
  else { region := configuration.region }

namespace GatewaySession

variable (session : GatewaySession)

/-- The handler of a module, which is kept until another module is asked for. -/
def route (module : Bytes) : GatewaySession :=
  if session.handler = none ∨ session.currentModule ≠ module then
    { session with handler := getHandler module, currentModule := module }
  else session

def dispatch (request : Request) : Response :=
  match session.handler with
  | none => .badRequest "Handler not found"
  | some handler =>
    if request.method ∈ handledMethods then
      .dispatched handler request.method session.region session.user
    else .notImplemented "Not yet implemented"

/-- `HandleRequest`, with the fields of the session after it. No response stands
for an exception of `VerifySignature`. -/
def handleRequest (digests : Digests) (configuration : Configuration) (arrival : Arrival) :
    GatewaySession × Option Response :=
  let request := arrival.request
  match answer request with
  | some response => (session, some response)
  | none =>
    if hasHeader request (ascii "x-awsmock-target") then
      let routed := session.route (getHeaderValue request (ascii "x-awsmock-target"))
      (routed, some (routed.dispatch request))
    else
      let verified := if configuration.verifySignature then
        AwsUtils.verifySignature digests arrival.isoDateString request configuration.secretAccessKey
        else some true
      match verified with
      | none => (session, none)
      | some false => (session, some (.unauthorized "AWS signature could not be verified"))
      | some true =>
        let authKey := getAuthorizationKeys configuration request []
        let routed := { session with region := authKey.region }.route authKey.module
        (routed, some (routed.dispatch request))

def handleRequests (digests : Digests) (configuration : Configuration)
    (arrivals : List Arrival) : GatewaySession :=
  arrivals.foldl (fun session arrival =>
    (session.handleRequest digests configuration arrival).1) session

end GatewaySession

end AwsMock.Gateway
