import AwsMock.Core.Text
import AwsMock.Foundation.KeyedList
import AwsMock.Foundation.Runs

/-! # Event sources of functions

A function lists the buckets, queues and topics whose events it wants. A bucket has a list of its
own of the functions that it notifies, and a topic one of those that subscribe to it; a queue
asks the functions.
-/

namespace AwsMock.Lambdas.EventSources

open Foundation

structure EventSourceMapping where
  type : String := ""
  eventSourceArn : String := ""
  batchSize : Int := 10
  maximumBatchingWindowInSeconds : Int := 5
  enabled : Bool := false
  uuid : String := ""
deriving DecidableEq, Repr

structure Lambda where
  arn : String
  eventSources : List EventSourceMapping := []
deriving DecidableEq, Repr

def Lambda.hasEventSource (lambda : Lambda) (eventSourceArn : String) : Bool :=
  lambda.eventSources.any fun e => e.eventSourceArn = eventSourceArn

structure FilterRule where
  name : String
  value : String
deriving DecidableEq, Repr

structure LambdaNotification where
  lambdaArn : String
  events : List String
  filterRules : List FilterRule
deriving DecidableEq, Repr

namespace LambdaNotification

variable (notification : LambdaNotification)

def hasEvent (event : String) : Bool :=
  notification.events.any fun ev => StringUtils.contains ev event

def checkFilter (key : String) : Bool :=
  notification.filterRules = [] || notification.filterRules.any fun rule =>
    (rule.name = "prefix" && rule.value.toList.isPrefixOf key.toList) ||
      (rule.name = "suffix" && rule.value.toList.isSuffixOf key.toList)

end LambdaNotification

inductive Resource where
  | bucket (lambdaNotifications : List LambdaNotification)
  | queue
  /-- The endpoints of the subscriptions whose protocol is that of functions. -/
  | topic (lambdaEndpoints : List String)
deriving DecidableEq, Repr

namespace Resource

def isQueue : Resource → Bool
  | queue => true
  | _ => false

def isTopic : Resource → Bool
  | topic _ => true
  | _ => false

end Resource

structure World where
  lambdas : List Lambda := []
  resources : List (String × Resource) := []

namespace World

variable (world : World)

def getLambdaByArn (arn : String) : Option Lambda := findKey Lambda.arn arn world.lambdas

def updateLambda (lambda : Lambda) : World :=
  { world with
    lambdas := rewriteFirst (fun other => other.arn = lambda.arn) (fun _ => lambda) world.lambdas }

def listLambdasWithEventSource (eventSourceArn : String) : List Lambda :=
  world.lambdas.filter fun lambda => lambda.hasEventSource eventSourceArn

def getResource (arn : String) : Option Resource :=
  (findKey Prod.fst arn world.resources).map Prod.snd

def getBucketByArn (arn : String) : Option (List LambdaNotification) :=
  match world.getResource arn with
  | some (.bucket lambdaNotifications) => some lambdaNotifications
  | _ => none

def queueArnExists (arn : String) : Bool := (world.getResource arn).any Resource.isQueue

def topicExists (arn : String) : Bool := (world.getResource arn).any Resource.isTopic

def updateBucket (arn : String) (lambdaNotifications : List LambdaNotification) : World :=
  { world with
    resources := rewriteFirst (fun entry => entry.1 = arn)
      (fun _ => (arn, .bucket lambdaNotifications)) world.resources }

end World

/-! ## Events -/

inductive Event where
  /-- Something happened to an object of a bucket. -/
  | object (eventName key : String)
  /-- A message was sent to a queue, or published to a topic. -/
  | message

def invoked (world : World) (arn : String) : Event → List String
  | .object eventName key =>
    match world.getBucketByArn arn with
    | some lambdaNotifications =>
      ((lambdaNotifications.filter fun notification => notification.hasEvent eventName).filter
        fun notification => notification.checkFilter key).map LambdaNotification.lambdaArn
    | none => []
  | .message =>
    match world.getResource arn with
    | some .queue => (world.listLambdasWithEventSource arn).map Lambda.arn
    | some (.topic lambdaEndpoints) => lambdaEndpoints
    | _ => []

/-! ## The service -/

structure AddEventSourceRequest where
  type : String
  functionArn : String
  eventSourceArn : String
  events : List String := []
  filterRuleType : String := ""
  filterRuleValue : String := ""
  batchSize : Int := 10
  maximumBatchingWindowInSeconds : Int := 5
  uuid : String := ""
  enabled : Bool := false

namespace AddEventSourceRequest

variable (request : AddEventSourceRequest)

def filterRules : List FilterRule := [⟨request.filterRuleType, request.filterRuleValue⟩]

def notification : LambdaNotification :=
  { lambdaArn := request.functionArn
    events := request.events
    filterRules := request.filterRules }

def mapping (randomUuid : String) : EventSourceMapping :=
  { type := request.type
    eventSourceArn := request.eventSourceArn
    batchSize := request.batchSize
    maximumBatchingWindowInSeconds := request.maximumBatchingWindowInSeconds
    enabled := request.enabled
    uuid := if request.uuid = "" then randomUuid else request.uuid }

end AddEventSourceRequest

structure Faults where
  resource : Bool := false
  function : Bool := false
deriving DecidableEq

variable (world : World)

def createResourceNotification (request : AddEventSourceRequest) (faults : Faults) :
    Except String World :=
  if request.type = "S3" then
    match world.getBucketByArn request.eventSourceArn with
    | none => .error ("S3 bucket does not exist: " ++ request.eventSourceArn)
    | some lambdaNotifications =>
      if lambdaNotifications.any fun n => n.lambdaArn = request.functionArn then .ok world
      else if faults.resource then .error "Database exception"
      else .ok (world.updateBucket request.eventSourceArn
        (lambdaNotifications ++ [request.notification]))
  else if request.type = "SQS" then
    if !world.queueArnExists request.eventSourceArn then
      .error ("Bucket does not exist: " ++ request.eventSourceArn)
    else if faults.resource then .error "Database exception"
    else .ok world
  else if request.type = "SNS" then
    if !world.topicExists request.eventSourceArn then
      .error ("Bucket does not exist: " ++ request.eventSourceArn)
    else if faults.resource then .error "Database exception"
    else .ok world
  else .ok world

/-- The function is read before the resource is written, and written after it. -/
def addEventSource (request : AddEventSourceRequest) (randomUuid : String) (faults : Faults) :
    Except String Unit × World :=
  match world.getLambdaByArn request.functionArn with
  | none => (.error ("Lambda function does not exist, arn: " ++ request.functionArn), world)
  | some lambda =>
    match createResourceNotification world request faults with
    | .error message => (.error message, world)
    | .ok next =>
      if faults.function then (.error "Database exception", next)
      else
        let mapping := request.mapping randomUuid
        let eventSources :=
          if lambda.hasEventSource request.eventSourceArn then
            rewriteWhere (fun e => e.eventSourceArn = request.eventSourceArn)
              (fun _ => mapping) lambda.eventSources
          else lambda.eventSources ++ [mapping]
        (.ok (), next.updateLambda { lambda with eventSources := eventSources })

def deleteEventSource (functionArn eventSourceArn : String) (faults : Faults) :
    Except String Unit × World :=
  match world.getLambdaByArn functionArn with
  | none => (.error ("Lambda function does not exist, arn: " ++ functionArn), world)
  | some lambda =>
    if faults.function then (.error "Database exception", world)
    else
      (.ok (), world.updateLambda { lambda with
        eventSources :=
          removeKey EventSourceMapping.eventSourceArn eventSourceArn lambda.eventSources })

inductive Operation where
  | addEventSource (request : AddEventSourceRequest) (randomUuid : String) (faults : Faults)
  | deleteEventSource (functionArn eventSourceArn : String) (faults : Faults)

def Operation.perform : Operation → Except String Unit × World
  | .addEventSource request randomUuid faults =>
    EventSources.addEventSource world request randomUuid faults
  | .deleteEventSource functionArn eventSourceArn faults =>
    EventSources.deleteEventSource world functionArn eventSourceArn faults

end AwsMock.Lambdas.EventSources
