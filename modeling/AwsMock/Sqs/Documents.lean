import AwsMock.Sqs.Entity

/-! # Queues and messages as documents

`ToDocument` and `FromDocument` of the entities.
-/

namespace AwsMock.Sqs

open Foundation BsonUtils MongoUtils

/-- `MessageAttribute::ToDocument`. -/
def MessageAttribute.toDocument (messageAttribute : MessageAttribute) : Document :=
  [("stringValue", .scalar (.string messageAttribute.stringValue)),
    ("dataType", .scalar (.string messageAttribute.dataType.toString))] ++
  (if messageAttribute.stringListValues = [] then []
    else [("stringListValues",
      .array (messageAttribute.stringListValues.map fun text => .scalar (.string text)))]) ++
  (if messageAttribute.binaryValue = [] then []
    else [("binaryValue", .binary messageAttribute.binaryValue)])

/-- The body of `MessageAttribute::FromDocument`. -/
def MessageAttribute.readDocument (document : Document) :
    Except CoreException MessageAttribute := do
  let stringListValues ← match document.get? "stringListValues" with
    | some value => do (← getArray (some value)).mapM fun element => getString (some element)
    | none => pure []
  let binaryValue ← match document.get? "binaryValue" with
    | some value => getBinary (some value)
    | none => pure []
  return {
    stringValue := getStringValue document "stringValue"
    dataType := MessageAttributeType.fromString (getStringValue document "dataType")
    stringListValues
    binaryValue }

/-- `MessageAttribute::FromDocument`, on an attribute with default values. -/
def MessageAttribute.fromDocument (document : Document) :
    Except CoreException MessageAttribute :=
  (readDocument document).mapError fun exn => .json exn.what

def stringMapDocument (map : StringMap String) : Document :=
  map.toList.map fun entry => (entry.1, .scalar (.string entry.2))

def messageAttributesDocument (map : StringMap MessageAttribute) : Document :=
  map.toList.map fun entry => (entry.1, .document entry.2.toDocument)

/-- Read a map of strings. Every key is looked up again, and `emplace` keeps the
value of a key that is already there. -/
def readStringMap (document : Document) : Except CoreException (StringMap String) :=
  document.foldlM
    (fun map field => do
      let text ← getString (document.get? field.1)
      return map.insertIfNew field.1 text) ∅

def readMessageAttributes (document : Document) :
    Except CoreException (StringMap MessageAttribute) :=
  document.foldlM
    (fun map field => do
      let messageAttribute ← MessageAttribute.fromDocument (← getDocument (some field.2))
      return map.insert field.1 messageAttribute) ∅

def readStringMapField (document : Document) (name : String) :
    Except CoreException (StringMap String) :=
  match document.get? name with
  | some value => do readStringMap (← getDocument (some value))
  | none => pure ∅

def readMessageAttributesField (document : Document) (name : String) :
    Except CoreException (StringMap MessageAttribute) :=
  match document.get? name with
  | some value => do readMessageAttributes (← getDocument (some value))
  | none => pure ∅

/-- `Message::ToDocument`. -/
def Message.toDocument (message : Message) : Document :=
  [("queueArn", .scalar (.string message.queueArn)),
    ("queueName", .scalar (.string message.queueName)),
    ("body", .scalar (.string message.body)),
    ("type", .scalar (.string message.type)),
    ("status", .scalar (.string message.status.toString)),
    ("retries", .scalar (.int64 message.retries)),
    ("size", .scalar (.int64 message.size)),
    ("messageId", .scalar (.string message.messageId)),
    ("receiptHandle", .scalar (.string message.receiptHandle)),
    ("md5Body", .scalar (.string message.md5Body)),
    ("md5MessageAttributes", .scalar (.string message.md5MessageAttributes)),
    ("md5MessageSystemAttributes", .scalar (.string message.md5MessageSystemAttributes)),
    ("contentType", .scalar (.string message.contentType)),
    ("attributes", .document (stringMapDocument message.attributes)),
    ("messageAttributes", .document (messageAttributesDocument message.messageAttributes)),
    ("reset", datetimeValue message.reset),
    ("created", datetimeValue message.created),
    ("modified", datetimeValue message.modified)]

/-- The body of `Message::FromDocument`, on a message with the given maps. -/
def Message.readDocument (document : Document) : Except CoreException Message := do
  let retries ← getIntValue document "retries"
  let size ← getLongValue document "size"
  let reset ← getDatetime document "reset"
  let created ← getDatetime document "created"
  let modified ← getDatetime document "modified"
  let messageAttributes ← readMessageAttributesField document "messageAttributes"
  let attributes ← readStringMapField document "attributes"
  return {
    oid := getOidValue document "_id"
    queueArn := getStringValue document "queueArn"
    queueName := getStringValue document "queueName"
    body := getStringValue document "body"
    type := getStringValue document "type"
    status := MessageStatus.fromString (getStringValue document "status")
    retries
    messageId := getStringValue document "messageId"
    receiptHandle := getStringValue document "receiptHandle"
    md5Body := getStringValue document "md5Body"
    md5MessageAttributes := getStringValue document "md5MessageAttributes"
    md5MessageSystemAttributes := getStringValue document "md5MessageSystemAttributes"
    contentType := getStringValue document "contentType"
    size
    reset
    created
    modified
    messageAttributes
    attributes }

/-- `Message::FromDocument`, on a message with default values. -/
def Message.fromDocument (document : Document) : Except CoreException Message :=
  (readDocument document).mapError fun exn => .database exn.what

/-- `RedrivePolicy::ToDocument`. -/
def RedrivePolicy.toDocument (policy : RedrivePolicy) : Document :=
  setLongValue (setStringValue [] "deadLetterTargetArn" policy.deadLetterTargetArn)
    "maxReceiveCount" policy.maxReceiveCount

/-- `RedrivePolicy::FromDocument`. -/
def RedrivePolicy.fromDocument (document : Document) : Except CoreException RedrivePolicy := do
  let maxReceiveCount ← getIntValue document "maxReceiveCount"
  return { deadLetterTargetArn := getStringValue document "deadLetterTargetArn", maxReceiveCount }

/-- `QueueAttribute::ToDocument`. -/
def QueueAttribute.toDocument (attributes : QueueAttribute) : Document :=
  [("delaySeconds", .scalar (.int64 attributes.delaySeconds)),
    ("maxMessageSize", .scalar (.int64 attributes.maxMessageSize)),
    ("messageRetentionPeriod", .scalar (.int64 attributes.messageRetentionPeriod)),
    ("policy", .scalar (.string attributes.policy)),
    ("redrivePolicy", .document attributes.redrivePolicy.toDocument),
    ("receiveMessageWaitTime", .scalar (.int64 attributes.receiveMessageWaitTime)),
    ("visibilityTimeout", .scalar (.int64 attributes.visibilityTimeout)),
    ("redriveAllowPolicy", .scalar (.string attributes.redriveAllowPolicy)),
    ("approximateNumberOfMessages", .scalar (.int64 attributes.approximateNumberOfMessages)),
    ("approximateNumberOfMessagesDelayed",
      .scalar (.int64 attributes.approximateNumberOfMessagesDelayed)),
    ("approximateNumberOfMessagesNotVisible",
      .scalar (.int64 attributes.approximateNumberOfMessagesNotVisible)),
    ("queueArn", .scalar (.string attributes.queueArn))]

/-- The body of `QueueAttribute::FromDocument`. -/
def QueueAttribute.readDocument (document : Document) : Except CoreException QueueAttribute := do
  let delaySeconds ← getIntValue document "delaySeconds"
  let maxMessageSize ← getIntValue document "maxMessageSize"
  let messageRetentionPeriod ← getIntValue document "messageRetentionPeriod"
  let receiveMessageWaitTime ← getIntValue document "receiveMessageWaitTime"
  let visibilityTimeout ← getIntValue document "visibilityTimeout"
  let approximateNumberOfMessages ← getLongValue document "approximateNumberOfMessages"
  let approximateNumberOfMessagesDelayed ←
    getLongValue document "approximateNumberOfMessagesDelayed"
  let approximateNumberOfMessagesNotVisible ←
    getLongValue document "approximateNumberOfMessagesNotVisible"
  let redrivePolicy ← match document.get? "redrivePolicy" with
    | some value => do RedrivePolicy.fromDocument (← getDocument (some value))
    | none => pure {}
  return {
    delaySeconds
    maxMessageSize
    messageRetentionPeriod
    policy := getStringValue document "policy"
    receiveMessageWaitTime
    visibilityTimeout
    redriveAllowPolicy := getStringValue document "redriveAllowPolicy"
    approximateNumberOfMessages
    approximateNumberOfMessagesDelayed
    approximateNumberOfMessagesNotVisible
    queueArn := getStringValue document "queueArn"
    redrivePolicy }

/-- `QueueAttribute::FromDocument`, on attributes with default values. -/
def QueueAttribute.fromDocument (document : Document) : Except CoreException QueueAttribute :=
  (readDocument document).mapError fun exn => .json exn.what

/-- `Queue::ToDocument`: empty strings are left out. -/
def Queue.toDocument (queue : Queue) : Document :=
  let document := setStringValue [] "region" queue.region
  let document := setStringValue document "owner" queue.owner
  let document := setStringValue document "name" queue.name
  let document := setStringValue document "url" queue.url
  let document := setStringValue document "arn" queue.arn
  let document := setStringValue document "contentType" queue.contentType
  let document := setDocumentValue document "attributes" queue.attributes.toDocument
  let document := setDocumentValue document "tags" (stringMapDocument queue.tags)
  let document := setDocumentValue document "defaultMessageAttributes"
    (messageAttributesDocument queue.defaultMessageAttributes)
  let document := setLongValue document "size" queue.size
  let document := setDateValue document "created" queue.created
  setDateValue document "modified" queue.modified

/-- The body of `Queue::FromDocument`. The content type is not read. -/
def Queue.readDocument (document : Document) : Except CoreException Queue := do
  let size ← getLongValue document "size"
  let tags ← readStringMapField document "tags"
  let defaultMessageAttributes ← readMessageAttributesField document "defaultMessageAttributes"
  let attributes ← match document.get? "attributes" with
    | some value => do QueueAttribute.fromDocument (← getDocument (some value))
    | none => pure {}
  return {
    oid := getOidValue document "_id"
    region := getStringValue document "region"
    name := getStringValue document "name"
    owner := getStringValue document "owner"
    url := getStringValue document "url"
    arn := getStringValue document "arn"
    size
    created := getDateValue document "created"
    modified := getDateValue document "modified"
    tags
    defaultMessageAttributes
    attributes }

/-- `Queue::FromDocument`, on a queue with default values. -/
def Queue.fromDocument (document : Document) : Except CoreException Queue :=
  (readDocument document).mapError fun exn => .json exn.what

end AwsMock.Sqs
