import AwsMock.Core.Text
import AwsMock.Sqs.Entity

/-! # Requests, responses and their mappers

The transfer objects of the queue service, their mapping to and from entities,
and the digests of `SqsUtils`.
-/

namespace AwsMock.Sqs

open Foundation

structure Toolbox where
  /-- MD5 of a byte stream, in hexadecimal. -/
  md5 : List UInt8 → String
  /-- `StringUtils::UrlDecode`, which throws on a bad escape. -/
  urlDecode : String → Except CoreException String
  /-- `MagicDetector::fromContent`. -/
  fromContent : String → String

def bytesOf (text : String) : List UInt8 := text.toList.map fun c => UInt8.ofNat c.toNat

namespace SqsUtils

def getIntAsByteArray (length : Nat) : List UInt8 :=
  [UInt8.ofNat (length / 16777216), UInt8.ofNat (length / 65536), UInt8.ofNat (length / 256),
    UInt8.ofNat length]

/-- A string with its length before it (`UpdateLengthAndBytes`). -/
def lengthAndBytes (text : String) : List UInt8 :=
  getIntAsByteArray text.length ++ bytesOf text

def messageAttributeBytes (name : String) (messageAttribute : MessageAttribute) : List UInt8 :=
  lengthAndBytes name ++ lengthAndBytes messageAttribute.dataType.toString ++
    match messageAttribute.dataType with
    | .string | .number => 1 :: lengthAndBytes messageAttribute.stringValue
    | .binary =>
      2 :: (getIntAsByteArray messageAttribute.binaryValue.length ++ messageAttribute.binaryValue)
    | _ => []

variable (tools : Toolbox)

def createMd5OfMessageBody (body : String) : String := tools.md5 (bytesOf body)

def createMd5OfMessageAttributes (messageAttributes : StringMap MessageAttribute) : String :=
  tools.md5 (messageAttributes.toList.flatMap fun entry => messageAttributeBytes entry.1 entry.2)

def systemAttributeBytes (name value : String) : Except CoreException (List UInt8) := do
  let encodedName := lengthAndBytes name ++ lengthAndBytes "String"
  if value = "" then return encodedName
  else return encodedName ++ 1 :: lengthAndBytes (← tools.urlDecode value)

def createMd5OfMessageSystemAttributes (attributes : StringMap String) :
    Except CoreException String := do
  let parts ← attributes.toList.mapM fun entry => systemAttributeBytes tools entry.1 entry.2
  return tools.md5 parts.flatten

end SqsUtils

namespace Dto

inductive MessageAttributeDataType where
  | string
  | stringList
  | number
  | numberList
  | binary
  | binaryList
deriving DecidableEq, Repr

/-- `MessageAttributeDataTypeToString`. -/
def MessageAttributeDataType.toString : MessageAttributeDataType → String
  | .string => "String"
  | .stringList => "StringList"
  | .number => "Number"
  | .numberList => "NumberList"
  | .binary => "Binary"
  | .binaryList => "BinaryList"

/-- `MessageAttributeDataTypeFromString`. -/
def MessageAttributeDataType.fromString (name : String) : MessageAttributeDataType :=
  if name = "String" then .string
  else if name = "StringList" then .stringList
  else if name = "Number" then .number
  else if name = "NumberList" then .numberList
  else if name = "Binary" then .binary
  else if name = "BinaryList" then .binaryList
  else .string

structure MessageAttribute where
  stringValue : String := ""
  stringListValues : List String := []
  binaryValue : List UInt8 := []
  dataType : MessageAttributeDataType := .string
deriving DecidableEq, Repr

structure Message where
  queueName : String
  queueArn : String
  queueUrl : String
  messageId : String
  receiptHandle : String
  body : String
  size : Int
  attributes : StringMap String
  messageAttributes : StringMap MessageAttribute
  md5OfBody : String
  md5OfMessageAttributes : String

structure Metadata where
  region : String := ""
  user : String := ""
  requestId : String := ""
deriving DecidableEq, Repr

structure CreateQueueRequest extends Metadata where
  queueName : String
  attributes : StringMap String := ∅
  tags : StringMap String := ∅

structure CreateQueueResponse extends Metadata where
  queueName : String
  owner : String
  queueUrl : String
  queueArn : String
deriving DecidableEq, Repr

structure DeleteQueueRequest extends Metadata where
  queueUrl : String

structure SendMessageRequest extends Metadata where
  queueUrl : String
  body : String := ""
  messageGroupId : String := ""
  messageDeduplicationId : String := ""
  contentType : String := ""
  attributes : StringMap String := ∅
  messageAttributes : StringMap MessageAttribute := ∅

structure SendMessageResponse where
  messageId : String
  md5Body : String
  md5MessageAttributes : String
  md5MessageSystemAttributes : String
  sequenceNumber : String
  messageGroupId : String
  messageDeduplicationId : String
deriving DecidableEq, Repr

structure ReceiveMessageRequest extends Metadata where
  queueUrl : String
  maxMessages : Int := 10
  waitTimeSeconds : Int := 10

structure ReceiveMessageResponse where
  requestId : String
  messageList : List Message

structure PurgeQueueRequest extends Metadata where
  queueUrl : String

structure ResendMessageRequest extends Metadata where
  queueArn : String
  messageId : String

structure RedriveMessageRequest extends Metadata where
  queueArn : String
  messageId : String

structure RedriveMessagesRequest extends Metadata where
  queueArn : String

structure DeleteMessageRequest extends Metadata where
  receiptHandle : String

structure DeleteMessageBatchEntry where
  id : String
  receiptHandle : String

/-- The ids of the entries that deleted a message, and of those that did not. -/
structure DeleteMessageBatchResponse where
  successfull : List String
  failed : List String
deriving DecidableEq, Repr

/-- The record of a message that is pushed to a Lambda function. -/
structure EventRecord where
  messageId : String
  receiptHandle : String
  body : String
  md5Sum : String
  eventSource : String
  eventSourceArn : String
  attributes : StringMap String
  messageAttributes : StringMap MessageAttribute

structure LambdaResult where
  responseBody : String
  status : Int
deriving DecidableEq, Repr

end Dto

namespace Mapper

/-- `CreateQueueRequestMapper::toEntity`. The ARN and the URL are those of the
configured region. -/
def createQueueRequestToEntity (config : Configuration) (now : Time)
    (request : Dto.CreateQueueRequest) : Except CoreException Queue := do
  let attributes ← request.attributes.toList.foldlM
    (fun (attributes : QueueAttribute) entry =>
      match entry.1 with
      | "QueueArn" => return { attributes with queueArn := entry.2 }
      | "DelaySeconds" => return { attributes with delaySeconds := (← stol entry.2) }
      | "MaxMessageSize" => return { attributes with maxMessageSize := (← stol entry.2) }
      | "MessageRetentionPeriod" =>
        return { attributes with messageRetentionPeriod := (← stol entry.2) }
      | "ReceiveMessageWaitTime" =>
        return { attributes with receiveMessageWaitTime := (← stol entry.2) }
      | "VisibilityTimeout" => return { attributes with visibilityTimeout := (← stol entry.2) }
      | "Policy" => return { attributes with policy := entry.2 }
      | "RedriveAllowPolicy" => return { attributes with redriveAllowPolicy := entry.2 }
      | _ => return attributes) {}
  return { Queue.fresh now with
    region := request.region
    name := request.queueName
    owner := request.user
    arn := AwsUtils.createSQSQueueArn config request.queueName
    url := AwsUtils.createSQSQueueUrl config request.queueName
    attributes
    tags := request.tags }

/-- `CreateQueueResponseMapper::toDto`. -/
def createQueueResponseToDto (queue : Queue) : Dto.CreateQueueResponse where
  region := queue.region
  owner := queue.owner
  queueName := queue.name
  queueArn := queue.arn
  queueUrl := queue.url

/-- `MessageAttributeMapper::toDto`: binary values are not copied. -/
def messageAttributeToDto (messageAttribute : MessageAttribute) : Dto.MessageAttribute where
  dataType := Dto.MessageAttributeDataType.fromString messageAttribute.dataType.toString
  stringValue := messageAttribute.stringValue
  stringListValues := messageAttribute.stringListValues

/-- `MessageAttributeMapper::toEntity`: binary values are not copied. -/
def messageAttributeToEntity (messageAttribute : Dto.MessageAttribute) : MessageAttribute where
  dataType := MessageAttributeType.fromString messageAttribute.dataType.toString
  stringValue := messageAttribute.stringValue
  stringListValues := messageAttribute.stringListValues

/-- `MessageAttributeMapper::toDtoMap`. -/
def messageAttributesToDtoMap (messageAttributes : StringMap MessageAttribute) :
    StringMap Dto.MessageAttribute :=
  messageAttributes.map fun _ => messageAttributeToDto

/-- `MessageAttributeMapper::toEntityMap`. -/
def messageAttributesToEntityMap (messageAttributes : StringMap Dto.MessageAttribute) :
    StringMap MessageAttribute :=
  messageAttributes.map fun _ => messageAttributeToEntity

variable (config : Configuration) (tools : Toolbox)

/-- `MessageMapper::toDto`. -/
def messageToDto (message : Message) : Dto.Message where
  queueName := message.queueName
  queueArn := message.queueArn
  queueUrl := AwsUtils.convertSQSQueueArnToUrl config message.queueArn
  messageId := message.messageId
  receiptHandle := message.receiptHandle
  body := message.body
  size := message.size
  attributes := message.attributes
  messageAttributes := messageAttributesToDtoMap message.messageAttributes
  md5OfBody := SqsUtils.createMd5OfMessageBody tools message.body
  md5OfMessageAttributes := SqsUtils.createMd5OfMessageAttributes tools message.messageAttributes

/-- `SendMessageRequestMapper::toEntity`. -/
def sendMessageRequestToEntity (now : Time) (request : Dto.SendMessageRequest) :
    Except CoreException Message := do
  let queueName := AwsUtils.convertSQSQueueUrlToName request.queueUrl
  let messageAttributes := messageAttributesToEntityMap request.messageAttributes
  let md5MessageSystemAttributes ←
    SqsUtils.createMd5OfMessageSystemAttributes tools request.attributes
  return { Message.fresh now with
    queueName
    queueArn := AwsUtils.createArn "sqs" request.region config.accountId queueName
    body := request.body
    attributes := request.attributes
    messageAttributes
    md5Body := SqsUtils.createMd5OfMessageBody tools request.body
    md5MessageAttributes := SqsUtils.createMd5OfMessageAttributes tools messageAttributes
    md5MessageSystemAttributes }

/-- `SendMessageResponseMapper::toDto`; the last three fields are the random
identifiers a response starts with. -/
def sendMessageResponseToDto (message : Message)
    (sequenceNumber messageGroupId messageDeduplicationId : String) :
    Except CoreException Dto.SendMessageResponse := do
  let md5MessageSystemAttributes ←
    SqsUtils.createMd5OfMessageSystemAttributes tools message.attributes
  return {
    messageId := AwsUtils.convertSQSQueueUrlToName message.messageId
    md5Body := SqsUtils.createMd5OfMessageBody tools message.body
    md5MessageAttributes := SqsUtils.createMd5OfMessageAttributes tools message.messageAttributes
    md5MessageSystemAttributes
    sequenceNumber
    messageGroupId
    messageDeduplicationId }

end Mapper

end AwsMock.Sqs
