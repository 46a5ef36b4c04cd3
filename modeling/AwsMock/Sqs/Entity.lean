import AwsMock.Core.Bson

/-! # Queue and message entities

The entities of the queue service: messages with their attributes and queues
with theirs.
-/

namespace AwsMock.Sqs

open Foundation

inductive MessageStatus where
  | initial
  | delayed
  | invisible
  | unknown
deriving DecidableEq, Repr

/-- `MessageStatusToString`: the name table has no entry for `UNKNOWN`. -/
def MessageStatus.toString : MessageStatus → String
  | .initial => "INITIAL"
  | .delayed => "DELAYED"
  | .invisible => "INVISIBLE"
  | .unknown => ""

/-- `MessageStatusFromString`. -/
def MessageStatus.fromString (name : String) : MessageStatus :=
  if name = "INITIAL" then .initial
  else if name = "DELAYED" then .delayed
  else if name = "INVISIBLE" then .invisible
  else .unknown

theorem MessageStatus.fromString_toString (status : MessageStatus) :
    fromString status.toString = status := by
  cases status <;> decide

theorem MessageStatus.toString_inj {left right : MessageStatus} :
    left.toString = right.toString ↔ left = right := by
  constructor
  · intro heq
    rw [← fromString_toString left, heq, fromString_toString]
  · intro heq
    rw [heq]

inductive MessageAttributeType where
  | string
  | stringList
  | number
  | numberList
  | binary
  | binaryList
  | unknown
deriving DecidableEq, Repr

/-- `MessageAttributeTypeToString`. -/
def MessageAttributeType.toString : MessageAttributeType → String
  | .string => "String"
  | .stringList => "StringList"
  | .number => "Number"
  | .numberList => "NumberList"
  | .binary => "Binary"
  | .binaryList => "BinaryList"
  | .unknown => "Unknown"

/-- `MessageAttributeTypeFromString`. -/
def MessageAttributeType.fromString (name : String) : MessageAttributeType :=
  if name = "String" then .string
  else if name = "StringList" then .stringList
  else if name = "Number" then .number
  else if name = "NumberList" then .numberList
  else if name = "Binary" then .binary
  else if name = "BinaryList" then .binaryList
  else .unknown

theorem MessageAttributeType.fromString_toString (dataType : MessageAttributeType) :
    fromString dataType.toString = dataType := by
  cases dataType <;> decide

structure MessageAttribute where
  stringValue : String := ""
  stringListValues : List String := []
  binaryValue : List UInt8 := []
  dataType : MessageAttributeType := .string
deriving DecidableEq, Repr

structure Message where
  oid : String := ""
  queueArn : String := ""
  queueName : String := ""
  body : String := ""
  status : MessageStatus := .initial
  reset : Time := 0
  retries : Int := 0
  size : Int := 0
  messageId : String := ""
  receiptHandle : String := ""
  md5Body : String := ""
  md5MessageAttributes : String := ""
  md5MessageSystemAttributes : String := ""
  attributes : StringMap String := ∅
  messageAttributes : StringMap MessageAttribute := ∅
  contentType : String := ""
  type : String := "Message"
  created : Time := 0
  modified : Time := 0

def Message.fresh (now : Time) : Message := { created := now }

def Message.isIn (queueArn : String) (message : Message) : Bool := message.queueArn = queueArn

def Message.hasStatus (status : MessageStatus) (message : Message) : Bool :=
  message.status = status

def Message.carries (receiptHandle : String) (message : Message) : Bool :=
  message.receiptHandle = receiptHandle

/-- Whether a message whose retries were just counted has used them up. -/
def isDead (dlQueueArn : String) (maxRetries retries : Int) : Bool :=
  dlQueueArn ≠ "" && decide (maxRetries > 0) && decide (retries ≥ maxRetries)

structure RedrivePolicy where
  deadLetterTargetArn : String := ""
  maxReceiveCount : Int := 3
deriving DecidableEq, Repr

structure QueueAttribute where
  delaySeconds : Int := 0
  maxMessageSize : Int := 262144
  messageRetentionPeriod : Int := 345600
  receiveMessageWaitTime : Int := 20
  visibilityTimeout : Int := 30
  policy : String := ""
  redrivePolicy : RedrivePolicy := {}
  redriveAllowPolicy : String := ""
  approximateNumberOfMessages : Int := 0
  approximateNumberOfMessagesDelayed : Int := 0
  approximateNumberOfMessagesNotVisible : Int := 0
  queueArn : String := ""
deriving DecidableEq, Repr

structure Queue where
  region : String := ""
  oid : String := ""
  name : String := ""
  owner : String := ""
  url : String := ""
  arn : String := ""
  attributes : QueueAttribute := {}
  tags : StringMap String := ∅
  size : Int := 0
  contentType : String := ""
  defaultMessageAttributes : StringMap MessageAttribute := ∅
  created : Time := 0
  modified : Time := 0

def Queue.fresh (now : Time) : Queue := { created := now, modified := now }

/-- A column to sort a listing by; direction `1` is ascending. -/
structure SortColumn where
  column : String
  sortDirection : Int
deriving DecidableEq, Repr

inductive Mutex where
  | sqsQueue
  | sqsMessage
deriving DecidableEq, Repr

end AwsMock.Sqs
