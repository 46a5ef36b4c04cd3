import AwsMock.Sqs.Dto
import AwsMock.Sqs.Repository

/-! # The queue service and its periodic reset

`SQSService` and the `ResetMessages` task of `SQSServer`, over either
repository. Database exceptions leave a service call as service exceptions.
-/

namespace AwsMock.Sqs

open Foundation

/-- What the service reads from its surroundings: the configuration, the random
generators, other libraries, and the Lambda module. -/
structure Context where
  config : Configuration
  random : RandomSource
  tools : Toolbox
  /-- The names of the functions an ARN is an event source of. -/
  listLambdasWithEventSource : String → List String
  /-- `InvokeLambdaFunction`, which waits for the result. -/
  invokeLambdaFunction : String → Dto.EventRecord → Except CoreException Dto.LambdaResult

namespace Service

variable {Store : Type} (context : Context) (db : Repository Store)

/-- The `catch (DatabaseException)` blocks of the service. -/
def translated {α : Type} (body : Call Mutex Store α) : Call Mutex Store α :=
  Action.rethrow CoreException.toService body

def queueDoesNotExist {α : Type} (queueArn : String) : Call Mutex Store α :=
  Action.raise (.service ("Queue does not exist, queueArn: " ++ queueArn))

def queueUrlDoesNotExist {α : Type} (region queueUrl : String) : Call Mutex Store α :=
  Action.raise (.service ("Queue does not exist, region: " ++ region ++ " queueUrl: " ++ queueUrl))

def createQueueResponse (request : Dto.CreateQueueRequest) (queue : Queue) :
    Dto.CreateQueueResponse :=
  { Mapper.createQueueResponseToDto queue with toMetadata := request.toMetadata }

def createQueue (now : Time) (request : Dto.CreateQueueRequest) :
    Call Mutex Store Dto.CreateQueueResponse := do
  let queueArn := AwsUtils.createSQSQueueArnIn context.config request.region request.queueName
  if ← db.queueArnExists queueArn then
    return createQueueResponse request (← db.getQueueByArn now queueArn)
  else
    translated do
      let queue ← Call.ofExcept (Mapper.createQueueRequestToEntity context.config now request)
      return createQueueResponse request (← db.createQueue queue)

def deleteQueue (now : Time) (request : Dto.DeleteQueueRequest) : Call Mutex Store String := do
  if ← db.queueUrlExists request.region request.queueUrl then
    translated do
      let _ ← db.deleteMessages request.queueUrl
      let _ ← db.deleteQueue
        { Queue.fresh now with region := request.region, url := request.queueUrl }
      return request.queueUrl
  else queueUrlDoesNotExist request.region request.queueUrl

def isLambdaExecutionError (responseBody : String) : Bool :=
  StringUtils.contains responseBody "\"errorType\"" ||
    StringUtils.contains responseBody "\"errorMessage\""

/-- Whether an invocation result removes the message that was pushed. -/
def isSuccess (result : Dto.LambdaResult) : Bool :=
  decide (result.status = 200) && !isLambdaExecutionError result.responseBody

def eventRecord (eventSourceArn : String) (message : Message) : Dto.EventRecord where
  messageId := message.messageId
  receiptHandle := message.receiptHandle
  body := message.body
  attributes := message.attributes
  messageAttributes := Mapper.messageAttributesToDtoMap message.messageAttributes
  md5Sum := message.md5Body
  eventSource := "aws:sqs"
  eventSourceArn

def sendLambdaInvocationRequest (lambda : String) (message : Message) (eventSourceArn : String) :
    Call Mutex Store Unit := do
  let result ← Call.ofExcept
    (context.invokeLambdaFunction lambda (eventRecord eventSourceArn message))
  if isSuccess result then
    let _ ← db.deleteMessage message.receiptHandle
    return ()
  else return ()

def checkLambdaNotifications (queueArn : String) (message : Message) : Call Mutex Store Unit :=
  (context.listLambdasWithEventSource queueArn).forM fun lambda =>
    sendLambdaInvocationRequest context db lambda message queueArn

def sanitizeContentType (contentType body : String) : String :=
  if contentType = "" || contentType = "application/octet-stream" ||
      contentType = "binary/octet-stream" then context.tools.fromContent body
  else contentType

def systemAttributes (now : Time) (queue : Queue) (request : Dto.SendMessageRequest)
    (attributes : StringMap String) : StringMap String :=
  (((((((attributes.insert "SentTimestamp" (toString now)).insert
    "ApproximateFirstReceivedTimestamp" (toString now)).insert
    "ApproximateReceivedCount" (toString 1)).insert
    "VisibilityTimeout" (toString queue.attributes.visibilityTimeout)).insert
    "SenderId" request.user).insert
    "MessageGroupId" request.messageGroupId).insert
    "MessageDeduplicationId" request.messageDeduplicationId)

def scheduledMessage (now : Time) (queue : Queue) (request : Dto.SendMessageRequest)
    (message : Message) : Message :=
  let message := { message with
    attributes := systemAttributes now queue request message.attributes
    messageAttributes := queue.defaultMessageAttributes.foldl
      (fun map name value => map.insertIfNew name value) message.messageAttributes }
  if queue.attributes.delaySeconds > 0 then
    { message with reset := now + seconds queue.attributes.delaySeconds, status := .delayed }
  else { message with reset := now + seconds queue.attributes.visibilityTimeout }

def countedQueue (queue : Queue) : Queue :=
  let attributes := { queue.attributes with
    approximateNumberOfMessages := queue.attributes.approximateNumberOfMessages + 1 }
  { queue with
    attributes :=
      if attributes.delaySeconds > 0 then
        { attributes with
          approximateNumberOfMessagesDelayed := attributes.approximateNumberOfMessagesDelayed + 1 }
      else attributes }

/-- The parameters set after the queue is updated. The message attributes are
taken from the request again. -/
def finishedMessage (now : Time) (queue : Queue) (request : Dto.SendMessageRequest)
    (messageId receiptHandle : String) (message : Message) : Message :=
  let messageAttributes := Mapper.messageAttributesToEntityMap request.messageAttributes
  { message with
    queueArn := queue.arn
    queueName := queue.name
    contentType := sanitizeContentType context request.contentType request.body
    size := request.body.length
    created := now
    modified := now
    messageId
    receiptHandle
    messageAttributes
    md5Body := context.tools.md5 (bytesOf request.body)
    md5MessageAttributes := SqsUtils.createMd5OfMessageAttributes context.tools messageAttributes }

/-- The part of `sendMessage` up to the insertion of the message: the updated
queue, and the message as it is stored. -/
def storeMessage (now : Time) (queueArn : String) (request : Dto.SendMessageRequest) :
    Call Mutex Store (Queue × Message) := do
  let queue ← db.getQueueByArn now queueArn
  let message ← Call.ofExcept
    (Mapper.sendMessageRequestToEntity context.config context.tools now request)
  let message := scheduledMessage now queue request message
  let queue ← db.updateQueue now (countedQueue queue)
  let messageId := context.random.uuid (← Call.draw)
  let receiptHandle := context.random.receiptHandle (← Call.draw)
  let message ← db.createMessage
    (finishedMessage context now queue request messageId receiptHandle message)
  return (queue, message)

/-- The part of `sendMessage` after the insertion: the triggers, and the
response. Its last three fields are random. -/
def completeSend (queueArn : String) (message : Message) :
    Call Mutex Store Dto.SendMessageResponse := do
  checkLambdaNotifications context db queueArn message
  let sequenceNumber := context.random.uuid (← Call.draw)
  let messageGroupId := context.random.uuid (← Call.draw)
  let messageDeduplicationId := context.random.uuid (← Call.draw)
  Call.ofExcept (Mapper.sendMessageResponseToDto context.tools message sequenceNumber
    messageGroupId messageDeduplicationId)

def sendMessage (now : Time) (request : Dto.SendMessageRequest) :
    Call Mutex Store Dto.SendMessageResponse := do
  let queueArn := AwsUtils.convertToArn context.config request.region request.queueUrl
  if queueArn ≠ "" && !(← db.queueArnExists queueArn) then
    queueDoesNotExist queueArn
  else
    translated do
      let (queue, message) ← storeMessage context db now queueArn request
      completeSend context db queue.arn message

/-- The dead-letter ARN and the retry limit a receive works with. -/
def redriveTarget (queue : Queue) : String × Int :=
  if queue.attributes.redrivePolicy.deadLetterTargetArn = "" then ("", -1)
  else (queue.attributes.redrivePolicy.deadLetterTargetArn,
    queue.attributes.redrivePolicy.maxReceiveCount)

def receiveOnce (now : Time) (queue : Queue) (maxMessages : Int) : Call Mutex Store (List Message) :=
  db.receiveMessages now queue.arn queue.attributes.visibilityTimeout maxMessages
    (redriveTarget queue).1 (redriveTarget queue).2 []

def poll (queue : Queue) (maxMessages start waitTimeSeconds : Int) :
    List Time → Call Mutex Store (List Message)
  | [] => Action.outOfFuel
  | now :: later => do
      if (now - start).tdiv 1000 < waitTimeSeconds then
        let messageList ← receiveOnce db now queue maxMessages
        if messageList.isEmpty then poll queue maxMessages start waitTimeSeconds later
        else return messageList
      else return []

/-- `later` lists the clock readings of long polling after the first. -/
def receiveMessages (now : Time) (later : List Time) (request : Dto.ReceiveMessageRequest) :
    Call Mutex Store Dto.ReceiveMessageResponse := do
  let queueArn := AwsUtils.convertToArn context.config request.region request.queueUrl
  if request.queueUrl ≠ "" && !(← db.queueArnExists queueArn) then
    queueDoesNotExist queueArn
  else
    translated do
      let queue ← db.getQueueByArn now queueArn
      let waitTimeSeconds := if request.waitTimeSeconds > 10 then 10 else request.waitTimeSeconds
      let messageList ←
        if waitTimeSeconds = 0 then receiveOnce db now queue request.maxMessages
        else poll db queue request.maxMessages now waitTimeSeconds (now :: later)
      return {
        requestId := request.requestId
        messageList := messageList.map (Mapper.messageToDto context.config context.tools) }

def deleteMessage (request : Dto.DeleteMessageRequest) : Call Mutex Store Unit :=
  translated do
    let _ ← db.deleteMessage request.receiptHandle
    return ()

def deleteMessageBatch (entries : List Dto.DeleteMessageBatchEntry) :
    Call Mutex Store Dto.DeleteMessageBatchResponse :=
  translated <| entries.foldlM
    (fun (response : Dto.DeleteMessageBatchResponse) entry => do
      let deleted ← db.deleteMessage entry.receiptHandle
      if deleted > 0 then
        return { response with successfull := response.successfull ++ [entry.id] }
      else return { response with failed := response.failed ++ [entry.id] })
    ⟨[], []⟩

def purgeQueue (now : Time) (request : Dto.PurgeQueueRequest) : Call Mutex Store Int := do
  if ← db.queueUrlExists request.region request.queueUrl then
    translated do
      let queueArn := AwsUtils.convertToArn context.config request.region request.queueUrl
      let deleted ← db.purgeQueue queueArn
      let queue ← db.getQueueByUrl now request.region request.queueUrl
      let _ ← db.updateQueue now { queue with
        size := 0
        attributes := { queue.attributes with
          approximateNumberOfMessages := 0
          approximateNumberOfMessagesDelayed := 0
          approximateNumberOfMessagesNotVisible := 0 } }
      return deleted
  else queueUrlDoesNotExist request.region request.queueUrl

/-- `message.attributes.at("VisibilityTimeout")`, as a number. -/
def visibilityAttribute (message : Message) : Except CoreException Int :=
  match message.attributes["VisibilityTimeout"]? with
  | some text => stoi text
  | none => .error (.standard "map::at")

def resendMessage (now : Time) (request : Dto.ResendMessageRequest) : Call Mutex Store Unit := do
  if ← db.messageExistsByMessageId request.messageId then
    translated do
      let message ← db.getMessageByMessageId now request.messageId
      let queue ← db.getQueueByArn now request.queueArn
      let queue := { queue with
        attributes := { queue.attributes with
          approximateNumberOfMessagesNotVisible :=
            queue.attributes.approximateNumberOfMessagesNotVisible - 1 } }
      let visibility ← Call.ofExcept (visibilityAttribute message)
      let message ← db.updateMessage now
        { message with status := .initial, retries := 0, reset := now + seconds visibility }
      let _ ← db.updateQueue now queue
      checkLambdaNotifications context db request.queueArn message
  else Action.raise (.service ("Message does not exist, messageId: " ++ request.messageId))

/-- Redrive one message to every main queue; the number is that of the last. -/
def redriveMessageTo (now : Time) (queue : Queue) (messageId : String) (mainQueues : List Queue) :
    Call Mutex Store Int :=
  mainQueues.foldlM (fun _ mainQueue => db.redriveMessage now mainQueue queue messageId) 0

/-- Redrive all messages to every main queue; the numbers are added. -/
def redriveMessagesTo (now : Time) (queue : Queue) (mainQueues : List Queue) :
    Call Mutex Store Int :=
  mainQueues.foldlM
    (fun count mainQueue => do return count + (← db.redriveMessages now mainQueue queue)) 0

def redriveMessage (now : Time) (request : Dto.RedriveMessageRequest) : Call Mutex Store Unit := do
  if ← db.queueArnExists request.queueArn then
    translated do
      let queue ← db.getQueueByArn now request.queueArn
      let mainQueues ← db.isDlq request.queueArn
      let _count ←
        if mainQueues.isEmpty then
          db.resetMessages now queue.arn queue.attributes.visibilityTimeout
        else redriveMessageTo db now queue request.messageId mainQueues
      db.adjustMessageCounters now
  else queueDoesNotExist request.queueArn

def redriveMessages (now : Time) (request : Dto.RedriveMessagesRequest) :
    Call Mutex Store Int := do
  if ← db.queueArnExists request.queueArn then
    translated do
      let queue ← db.getQueueByArn now request.queueArn
      let mainQueues ← db.isDlq request.queueArn
      let count ←
        if mainQueues.isEmpty then
          db.resetMessages now queue.arn queue.attributes.visibilityTimeout
        else redriveMessagesTo db now queue mainQueues
      db.adjustMessageCounters now
      return count
  else queueDoesNotExist request.queueArn

end Service

namespace Server

variable {Store : Type} (db : Repository Store)

/-- Retention, on a queue snapshot: what was deleted no longer counts as available. -/
def applyRetention (now : Time) (queue : Queue) : Call Mutex Store Queue := do
  if queue.attributes.messageRetentionPeriod > 0 then
    let deleted ← db.messageRetention now queue.arn queue.attributes.messageRetentionPeriod
    return { queue with
      attributes := { queue.attributes with
        approximateNumberOfMessages := queue.attributes.approximateNumberOfMessages - deleted } }
  else return queue

def applyVisibility (now : Time) (queue : Queue) : Call Mutex Store Queue := do
  if queue.attributes.visibilityTimeout > 0 then
    let count ← db.resetMessages now queue.arn queue.attributes.visibilityTimeout
    return { queue with
      attributes := { queue.attributes with
        approximateNumberOfMessagesNotVisible :=
          queue.attributes.approximateNumberOfMessagesNotVisible - count } }
  else return queue

def applyDelay (now : Time) (queue : Queue) : Call Mutex Store Queue := do
  if queue.attributes.delaySeconds > 0 then
    let count ← db.resetDelayedMessages now queue.url queue.attributes.delaySeconds
    return { queue with
      attributes := { queue.attributes with
        approximateNumberOfMessagesDelayed :=
          queue.attributes.approximateNumberOfMessagesDelayed - count } }
  else return queue

def maintainQueue (now : Time) (queue : Queue) : Call Mutex Store Unit := do
  let messageCount ← db.countMessages queue.arn ""
  if messageCount > 0 then
    let queue ← applyRetention db now queue
    let queue ← applyVisibility db now queue
    let queue ← applyDelay db now queue
    let _ ← db.updateQueue now queue
    return ()
  else return ()

/-- One pass of `ResetMessages`. -/
def resetMessages (now : Time) : Call Mutex Store Unit := do
  (← db.listQueues "").forM (maintainQueue db now)

end Server

end AwsMock.Sqs
