import AwsMock.Foundation.Json
import AwsMock.Core.Base64
import AwsMock.Sns.Messages
import AwsMock.Sns.Service

/-! # Publishing a message

`Publish` stores a message and hands it to the subscriptions of its topic one after the other.
A queue gets a notification that is built as a JSON value, an HTTP endpoint one that is put
together from texts, and a function an event. The queues, the functions and the endpoints are
those that exist during the call. Texts are taken as their characters.
-/

namespace AwsMock.Sns.Publishing

open Foundation
open Messages (Message MessageStatus MemoryRepository MongoRepository Draw)

/-! ## Requests -/

inductive MessageAttributeDataType where
  | string | stringList | number | numberList | binary | binaryList
deriving DecidableEq, Repr

def MessageAttributeDataType.toText : MessageAttributeDataType → String
  | string => "String"
  | stringList => "StringList"
  | number => "Number"
  | numberList => "NumberList"
  | binary => "Binary"
  | binaryList => "BinaryList"

structure MessageAttribute where
  dataType : MessageAttributeDataType := .string
  stringValue : String := ""
  binaryValue : Bytes := []
deriving DecidableEq, Repr

structure PublishRequest where
  region : String := ""
  requestId : String := ""
  topicArn : String := ""
  targetArn : String := ""
  message : String := ""
  messageAttributes : List (String × MessageAttribute) := []
deriving DecidableEq, Repr

structure Topic where
  topicArn : String := ""
  targetArn : String := ""
  subscriptions : List Subscription := []
deriving DecidableEq, Repr

/-! ## Where messages are kept -/

inductive MessageStore where
  | memory (repository : MemoryRepository)
  | mongo (repository : MongoRepository)

namespace MessageStore

variable (store : MessageStore)

def backend : Backend :=
  match store with
  | memory _ => .memory
  | mongo _ => .mongo

def messages : List Message :=
  match store with
  | memory repository => repository.messages.map Prod.snd
  | mongo repository => repository.messages

/-- Only the document store gives the message its identifier. -/
def createMessage (message : Message) (draw : Draw) : MessageStore × Message :=
  match store with
  | memory repository =>
    (memory (repository.createMessage message draw.memoryOid draw.place), message)
  | mongo repository =>
    (mongo (repository.createMessage message draw.mongoOid),
      { message with oid := draw.mongoOid })

def setMessageStatus (message : Message) (status : MessageStatus) : MessageStore :=
  match store with
  | memory repository => memory (repository.setMessageStatus message.oid status)
  | mongo repository => mongo (repository.setMessageStatus message.oid status)

end MessageStore

/-! ## What subscriptions refer to -/

structure Queue where
  name : String := ""
  url : String := ""
  arn : String := ""
deriving DecidableEq, Repr

structure Lambda where
  function : String
  arn : String
  enabled : Bool
deriving DecidableEq, Repr

/-- An endpoint that can be connected to takes what is sent. -/
structure Surroundings where
  config : Configuration
  queues : List Queue
  lambdas : List Lambda
  accepts : (host port path : String) → Bool

inductive Delivery where
  | sqs (queueArn : String) (body : List Char)
  | http (host port path : String) (body : List Char)
  | lambda (lambdaArn message : String)
deriving DecidableEq, Repr

structure Stamp where
  messageId : String
  timestamp : String

/-! ## Delivering -/

section Delivering

variable (backend : Backend) (surroundings : Surroundings) (serialize : Json → List Char)

namespace Surroundings

def findQueue (queueArn : String) : Option Queue :=
  surroundings.queues.find? fun queue => queue.arn = queueArn

/-- The document store misses a queue that is not there, the memory store has an empty one. -/
def getQueueByArn (queueArn : String) : Except String Queue :=
  match surroundings.findQueue queueArn, backend with
  | some queue, _ => .ok queue
  | none, .memory => .ok {}
  | none, .mongo => .error ("Queue not found, queueArn: " ++ queueArn)

def findLambda (lambdaArn : String) : Option Lambda :=
  surroundings.lambdas.find? fun lambda => lambda.arn = lambdaArn

def convertToArn (region input : String) : String :=
  AwsUtils.convertToArn surroundings.config region input

def createLambdaArn (function : String) : String :=
  createArn "lambda" surroundings.config.region surroundings.config.accountId
    ("function:" ++ function)

end Surroundings

def notificationMessageAttribute (messageAttribute : MessageAttribute) : Json :=
  let type := messageAttribute.dataType.toText
  let value :=
    if type = "Binary" then
      (Crypto.encodeBlock messageAttribute.binaryValue).map fun byte => Char.ofNat byte.toNat
    else messageAttribute.stringValue.toList
  .object [("Type".toList, .string type.toList), ("Value".toList, .string value)]

/-- The members that the base of all requests writes once more come last. -/
def sqsNotificationRequest (request : PublishRequest) (stamp : Stamp) : Json :=
  .object [("Region".toList, .string []), ("User".toList, .string []),
      ("RequestId".toList, .string request.requestId.toList),
      ("Type".toList, .string "Notification".toList),
      ("TopicArn".toList, .string request.topicArn.toList),
      ("MessageId".toList, .string stamp.messageId.toList),
      ("Message".toList, .string request.message.toList),
      ("Timestamp".toList, .string stamp.timestamp.toList),
      ("Signature".toList, .string []), ("SignatureVersion".toList, .string "1".toList),
      ("SigningCertURL".toList, .string []), ("UnsubscribeURL".toList, .string []),
      ("MessageAttributes".toList,
        .object (request.messageAttributes.map fun (name, value) =>
          (name.toList, notificationMessageAttribute value))),
      ("region".toList, .string []), ("user".toList, .string []),
      ("requestId".toList, .string request.requestId.toList)]

/-- `sendMessage` of the queue service: it converts the URL once more. -/
def sendMessage (region queueUrl : String) (body : List Char) : Except String Delivery :=
  let queueArn := surroundings.convertToArn region queueUrl
  if queueArn ≠ "" ∧ surroundings.findQueue queueArn = none then
    .error ("Queue does not exist, queueArn: " ++ queueArn)
  else (surroundings.getQueueByArn backend queueArn).map fun queue => .sqs queue.arn body

def sendSQSMessage (subscription : Subscription) (request : PublishRequest) (stamp : Stamp) :
    Except String (Option Delivery) := do
  let queueArn := surroundings.convertToArn request.region subscription.endpoint
  let sqsQueue ← surroundings.getQueueByArn backend queueArn
  let body := serialize (sqsNotificationRequest request stamp)
  let delivery ← sendMessage backend surroundings request.region sqsQueue.url body
  return some delivery

def parseEndpoint (url : String) : Option (String × String × String) :=
  if StringUtils.startsWith url "http://" then
    let hostPortPath := url.toList.drop 7
    let hostPort := hostPortPath.takeWhile (· ≠ '/')
    let path := if '/' ∈ hostPortPath then hostPortPath.dropWhile (· ≠ '/') else ['/']
    let host := hostPort.takeWhile (· ≠ ':')
    let port := if ':' ∈ hostPort then (hostPort.dropWhile (· ≠ ':')).tail else ['8', '0']
    some (String.ofList host, String.ofList port, String.ofList path)
  else none

def httpBody (message : String) : List Char :=
  "\x7b\"Type\":\"Notification\",\"Message\":\"".toList ++ message.toList ++ "\"\x7d".toList

def sendHttpMessage (subscription : Subscription) (request : PublishRequest) : Option Delivery :=
  match parseEndpoint subscription.endpoint with
  | some (host, port, path) =>
    if surroundings.accepts host port path then
      some (.http host port path (httpBody request.message))
    else none
  | none => none

/-- The function is looked up by its name in the region of the configuration. Nothing is
said when it is not there. -/
def invokeLambdaFunction (function message : String) : Option Delivery :=
  let lambdaArn := surroundings.createLambdaArn function
  match surroundings.findLambda lambdaArn with
  | some lambda => if lambda.enabled then some (.lambda lambdaArn message) else none
  | none => none

def sendLambdaMessage (subscription : Subscription) (message : Message) :
    Except String (Option Delivery) :=
  match surroundings.findLambda subscription.endpoint with
  | some lambda => .ok (invokeLambdaFunction surroundings lambda.function message.message)
  | none => .error ("Get lambda by ARN failed, arn: " ++ subscription.endpoint)

def deliver (subscription : Subscription) (request : PublishRequest) (message : Message)
    (stamp : Stamp) : Except String (Option Delivery) :=
  let protocol := subscription.protocol.toLower
  if protocol = "sqs" then sendSQSMessage backend surroundings serialize subscription request stamp
  else if protocol = "http" then .ok (sendHttpMessage surroundings subscription request)
  else if protocol = "lambda" then sendLambdaMessage surroundings subscription message
  else .ok none

end Delivering

/-! ## Publishing -/

/-- What a call has done when it returns, or when an exception ends it. -/
structure Progress where
  store : MessageStore
  deliveries : List (Subscription × Delivery) := []
  failure : Option String := none

section Publishing

variable (backend : Backend) (surroundings : Surroundings) (serialize : Json → List Char)

def checkSubscriptions (request : PublishRequest) (message : Message) (stamp : Nat → Stamp) :
    List Subscription → Nat → Progress → Progress
  | [], _, progress => progress
  | subscription :: rest, turn, progress =>
    match deliver backend surroundings serialize subscription request message (stamp turn) with
    | .error failure => { progress with failure := some failure }
    | .ok delivery =>
      checkSubscriptions request message stamp rest (turn + 1)
        { progress with
          store := progress.store.setMessageStatus message .send
          deliveries := progress.deliveries ++
            (delivery.map fun delivery => (subscription, delivery)).toList }

/-- What `Publish` draws. -/
structure Draws where
  messageId : String
  message : Draw
  stamp : Nat → Stamp

def toEntity (request : PublishRequest) : Message :=
  { region := request.region, topicArn := request.topicArn, message := request.message,
    messageAttributes := request.messageAttributes.map fun (name, value) =>
      (name, value.stringValue) }

def topicExists (topics : List Topic) (topicArn : String) : Bool :=
  topics.any fun topic => topic.topicArn = topicArn

def getTopicByArn (topics : List Topic) (topicArn : String) : Option Topic :=
  topics.find? fun topic => topic.topicArn = topicArn

def getTopicByTargetArn (topics : List Topic) (targetArn : String) : Option Topic :=
  topics.find? fun topic => topic.targetArn = targetArn

/-- The memory store answers with an empty topic when there is none. The document store then
looks into a result that is not there, and nothing is known about what happens. -/
def getTopic (backend : Backend) (topics : List Topic) (request : PublishRequest) : Option Topic :=
  let found :=
    if request.topicArn ≠ "" then getTopicByArn topics request.topicArn
    else getTopicByTargetArn topics request.targetArn
  match backend with
  | .memory => some (found.getD {})
  | .mongo => found

inductive Outcome where
  | rejected (message : String)
  | undefined
  | published (progress : Progress)

def publish (topics : List Topic) (store : MessageStore) (request : PublishRequest)
    (draws : Draws) : Outcome :=
  if request.topicArn = "" ∧ request.targetArn = "" then
    .rejected "Either topicArn or targetArn must exist"
  else if request.topicArn ≠ "" ∧ ¬topicExists topics request.topicArn then
    .rejected ("SNS topic does not exists, topicArn: " ++ request.topicArn)
  else if request.targetArn ≠ "" ∧ ¬topicExists topics request.targetArn then
    .rejected ("SNS targetArn does not exists, targetArn: " ++ request.targetArn)
  else
    match getTopic store.backend topics request with
    | none => .undefined
    | some topic =>
      let message := { toEntity request with
        messageId := draws.messageId, size := request.message.utf8ByteSize }
      let (created, message) := store.createMessage message draws.message
      .published (checkSubscriptions store.backend surroundings serialize request message
        draws.stamp topic.subscriptions 0 { store := created })

end Publishing

end AwsMock.Sns.Publishing
