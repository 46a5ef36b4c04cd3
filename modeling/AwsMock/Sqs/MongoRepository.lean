import Mathlib.Algebra.Ring.Int.Defs
import AwsMock.Core.Text
import AwsMock.Foundation.Collection
import AwsMock.Sqs.Documents

/-! # The MongoDB repository

`SQSMongoRepository`: queues and messages as documents of two collections. The
server runs every command atomically. Name prefixes are taken to be free of
regular expression metacharacters, so that `^prefix` matches what starts with
the prefix.
-/

namespace AwsMock.Sqs

open Foundation BsonUtils

structure MongoStore where
  queues : Collection
  messages : Collection

def MongoStore.empty : MongoStore := ⟨[], []⟩

def fieldIs (name value : String) : List String × Condition := ([name], .eq (.string value))

def setString (name value : String) : List String × Scalar := ([name], .string value)

namespace MongoRepository

abbrev MongoCall (α : Type) := Call Mutex MongoStore α

def writeQueues (queues : Collection) : MongoCall Unit :=
  Call.writeStore fun store => { store with queues }

def writeMessages (messages : Collection) : MongoCall Unit :=
  Call.writeStore fun store => { store with messages }

def readQueues : MongoCall Collection := Call.readStore MongoStore.queues

def readMessages : MongoCall Collection := Call.readStore MongoStore.messages

/-- `count_documents` with a limit of one. -/
def anyDocument (filter : Filter) (collection : Collection) : Bool :=
  decide (min 1 (collection.countDocuments filter) > 0)

def unlessEmpty (text : String) (clause : List String × Condition) : Filter :=
  if text = "" then [] else [clause]

def queueExists (region name : String) : MongoCall Bool := do
  return anyDocument [fieldIs "region" region, fieldIs "name" name] (← readQueues)

def queueUrlExists (region queueUrl : String) : MongoCall Bool := do
  return anyDocument
    (unlessEmpty region (fieldIs "region" region) ++ unlessEmpty queueUrl (fieldIs "url" queueUrl))
    (← readQueues)

def queueArnExists (queueArn : String) : MongoCall Bool := do
  return anyDocument [fieldIs "arn" queueArn] (← readQueues)

/-- The document `insert_one` stores: the driver adds a new object id. -/
def withObjectId (oid : String) (document : Document) : Document :=
  ("_id", .scalar (.objectId oid)) :: document

def createQueue (random : RandomSource) (queue : Queue) : MongoCall Queue := do
  let oid := random.uuid (← Call.draw)
  writeQueues ((← readQueues).insertOne (withObjectId oid queue.toDocument))
  return { queue with oid }

/-- The `getQueueBy…` lookups; `missing` is the text of the exception. -/
def getQueueBy (filter : Filter) (missing : String) : MongoCall Queue := do
  match (← readQueues).findOne filter with
  | some document => Call.ofExcept (Queue.fromDocument document)
  | none => Action.raise (.database missing)

def getQueueByArn (queueArn : String) : MongoCall Queue :=
  getQueueBy [fieldIs "arn" queueArn] ("Queue not found, queueArn: " ++ queueArn)

def getQueueByUrl (region queueUrl : String) : MongoCall Queue :=
  getQueueBy
    (unlessEmpty region (fieldIs "region" region) ++ unlessEmpty queueUrl (fieldIs "url" queueUrl))
    ("Queue not found, region: " ++ region ++ " queueUrl: " ++ queueUrl)

def getQueueByName (region queueName : String) : MongoCall Queue :=
  getQueueBy
    (unlessEmpty region (fieldIs "region" region) ++ unlessEmpty queueName (fieldIs "name" queueName))
    ("Queue not found, region: " ++ region ++ " name: " ++ queueName)

def deadLetterTargetIs (queueArn : String) : List String × Condition :=
  (["attributes", "redrivePolicy", "deadLetterTargetArn"], .eq (.string queueArn))

def getQueueByDlq (dlqQueueArn : String) : MongoCall Queue :=
  getQueueBy [deadLetterTargetIs dlqQueueArn] ("Queue not found, queueArn: " ++ dlqQueueArn)

def readQueueList (documents : List Document) : MongoCall (List Queue) :=
  Call.ofExcept (documents.mapM Queue.fromDocument)

def readMessageList (documents : List Document) : MongoCall (List Message) :=
  Call.ofExcept (documents.mapM Message.fromDocument)

def isDlq (queueArn : String) : MongoCall (List Queue) := do
  readQueueList ((← readQueues).find (unlessEmpty queueArn (deadLetterTargetIs queueArn)))

def startsWithClause (name textPrefix : String) : List String × Condition :=
  ([name], .startsWith textPrefix)

def sortKeys (sortColumns : List SortColumn) : List (List String × Int) :=
  sortColumns.map fun sortColumn => (sortColumn.column.splitOn ".", sortColumn.sortDirection)

def findPage (order : Option Value → Option Value → Bool) (filter : Filter)
    (options : FindOptions) (collection : Collection) : MongoCall (List Document) :=
  match collection.findPage order filter options with
  | some documents => pure documents
  | none => Action.raise (.standard "BadValue")

/-- The paged `listQueues`. `order` is the server's order on field values. -/
def listQueuesPage (order : Option Value → Option Value → Bool) (queuePrefix : String)
    (pageSize pageIndex : Int) (sortColumns : List SortColumn) (region : String) :
    MongoCall (List Queue) := do
  let filter := unlessEmpty queuePrefix (startsWithClause "name" queuePrefix) ++
    unlessEmpty region (fieldIs "region" region)
  let options : FindOptions := {
    limit := if pageSize > 0 then pageSize.toNat else 0
    skip := if pageIndex > 0 then pageIndex * pageSize else 0
    sort := sortKeys sortColumns }
  readQueueList (← findPage order filter options (← readQueues))

def listQueues (order : Option Value → Option Value → Bool) (region : String) :
    MongoCall (List Queue) :=
  listQueuesPage order "" 0 0 [] region

def listQueueUrls (region queuePrefix : String) : MongoCall (List String) := do
  let filter := unlessEmpty region (fieldIs "region" region) ++
    unlessEmpty queuePrefix (startsWithClause "name" queuePrefix)
  return ((← readQueues).find filter).map fun document => getStringValue document "url"

def purgeQueue (queueArn : String) : MongoCall Int := do
  let filter : Filter := [fieldIs "queueArn" queueArn]
  let messages ← readMessages
  writeMessages (messages.deleteMany filter)
  return messages.countDocuments filter

/-- `find_one_and_update` with a plain document replaces the document found. -/
def updateQueue (now : Time) (queue : Queue) : MongoCall Queue := do
  let queue := { queue with modified := now }
  let result := (← readQueues).findOneAndReplace [fieldIs "arn" queue.arn] queue.toDocument
  writeQueues result.2
  match result.1 with
  | some document => Call.ofExcept ((Queue.fromDocument document).map fun read =>
    { read with contentType := queue.contentType })
  | none => return Queue.fresh now

def countQueues (region queuePrefix : String) : MongoCall Int := do
  let filter := unlessEmpty queuePrefix (startsWithClause "name" queuePrefix) ++
    unlessEmpty region (fieldIs "region" region)
  return (← readQueues).countDocuments filter

def deleteQueue (queue : Queue) : MongoCall Int := do
  let filter : Filter := [fieldIs "region" queue.region, fieldIs "url" queue.url]
  let queues ← readQueues
  writeQueues (queues.deleteMany filter)
  writeMessages ((← readMessages).deleteMany [fieldIs "queueArn" queue.arn])
  return queues.countDocuments filter

def createMessage (random : RandomSource) (message : Message) : MongoCall Message := do
  let oid := random.uuid (← Call.draw)
  writeMessages ((← readMessages).insertOne (withObjectId oid message.toDocument))
  return { message with oid }

def messageExists (receiptHandle : String) : MongoCall Bool := do
  return anyDocument [fieldIs "receiptHandle" receiptHandle] (← readMessages)

def messageExistsByMessageId (messageId : String) : MongoCall Bool := do
  return anyDocument [fieldIs "messageId" messageId] (← readMessages)

/-- The `getMessageBy…` lookups. A default message when there is none. -/
def getMessageBy (now : Time) (filter : Filter) : MongoCall Message := do
  match (← readMessages).findOne filter with
  | some document => Call.ofExcept (Message.fromDocument document)
  | none => return Message.fresh now

def getMessageByReceiptHandle (now : Time) (receiptHandle : String) : MongoCall Message :=
  getMessageBy now [fieldIs "receiptHandle" receiptHandle]

def getMessageByMessageId (now : Time) (messageId : String) : MongoCall Message :=
  getMessageBy now [fieldIs "messageId" messageId]

def idIs (oid : String) : List String × Condition := (["_id"], .eq (.objectId oid))

def updateMessage (now : Time) (message : Message) : MongoCall Message := do
  let message := { message with modified := now }
  let result := (← readMessages).findOneAndReplace [idIs message.oid] message.toDocument
  writeMessages result.2
  match result.1 with
  | some document => Call.ofExcept (Message.fromDocument document)
  | none => return Message.fresh now

/-- The paged `listMessages`. `order` is the server's order on field values. -/
def listMessages (order : Option Value → Option Value → Bool) (queueArn messagePrefix : String)
    (pageSize pageIndex : Int) (sortColumns : List SortColumn) : MongoCall (List Message) := do
  let options : FindOptions := {
    limit := if pageSize > 0 then pageSize.toNat else 0
    skip := if pageSize > 0 ∧ pageIndex > 0 then pageSize * pageIndex else 0
    sort := sortKeys sortColumns }
  let filter := unlessEmpty messagePrefix (startsWithClause "messageId" messagePrefix) ++
    unlessEmpty queueArn (fieldIs "queueArn" queueArn)
  readMessageList (← findPage order filter options (← readMessages))

def claimFilter (queueArn : String) : Filter :=
  [fieldIs "queueArn" queueArn, fieldIs "status" MessageStatus.initial.toString]

def claimUpdate (reset : Time) (receiptHandle : String) : Update where
  set := [setString "status" MessageStatus.invisible.toString, (["reset"], .date reset),
    setString "receiptHandle" receiptHandle]
  inc := [(["retries"], 1)]

def deadLetterUpdate (dlQueueArn : String) : Update where
  set := [setString "queueArn" dlQueueArn, setString "receiptHandle" "",
    setString "status" MessageStatus.initial.toString]

/-- The receive loop: claim a message, and move it on when it is dead. A handle
is drawn in every round, also in one that claims nothing. -/
def receiveLoop (random : RandomSource) (queueArn : String) (reset : Time) (maxResult : Int)
    (dlQueueArn : String) (maxRetries : Int) :
    Nat → List Message → MongoCall (List Message)
  | fuel, messageList =>
    if maxResult ≤ 0 ∨ messageList.length < maxResult then
      match fuel with
      | 0 => Action.outOfFuel
      | fuel + 1 => do
          let receiptHandle := random.receiptHandle (← Call.draw)
          let claim := (← readMessages).findOneAndUpdate (claimFilter queueArn)
            (claimUpdate reset receiptHandle)
          writeMessages claim.2
          match claim.1 with
          | none => return messageList
          | some document =>
            let result ← Call.ofExcept (Message.fromDocument document)
            if isDead dlQueueArn maxRetries result.retries then
              writeMessages ((← readMessages).updateOne [idIs result.oid]
                (deadLetterUpdate dlQueueArn))
              receiveLoop random queueArn reset maxResult dlQueueArn maxRetries fuel messageList
            else
              receiveLoop random queueArn reset maxResult dlQueueArn maxRetries fuel
                (messageList ++ [result])
    else return messageList

def receiveMessages (random : RandomSource) (fuel : Nat) (now : Time) (queueArn : String)
    (visibility maxResult : Int) (dlQueueArn : String) (maxRetries : Int)
    (messageList : List Message) : MongoCall (List Message) :=
  receiveLoop random queueArn (now + seconds visibility) maxResult dlQueueArn maxRetries fuel
    messageList

def updateMessages (filter : Filter) (update : Update) : MongoCall Int := do
  let messages ← readMessages
  writeMessages (messages.updateMany filter update)
  return messages.modifiedCount filter update

def resetMessages (now : Time) (queueArn : String) (visibility : Int) : MongoCall Int :=
  updateMessages [fieldIs "queueArn" queueArn, fieldIs "status" MessageStatus.invisible.toString,
      (["reset"], .lt now)]
    { set := [setString "status" MessageStatus.initial.toString, setString "receiptHandle" "",
        (["reset"], .date (now + seconds visibility))] }

/-- The filter asks for a field `arn`, and the number returned is that of the
upserted documents: none. -/
def resetDelayedMessages (now : Time) (queueArn : String) (_delay : Int) : MongoCall Int := do
  let messages ← readMessages
  writeMessages (messages.updateMany
    [fieldIs "arn" queueArn, fieldIs "status" MessageStatus.delayed.toString, (["reset"], .lt now)]
    { set := [setString "status" MessageStatus.initial.toString] })
  return 0

def redriveUpdate (now : Time) (originalQueue : Queue) : Update where
  set := [setString "queueArn" originalQueue.arn, setString "queueUrl" originalQueue.url,
    setString "name" originalQueue.name, (["retries"], .int32 0),
    (["reset"], .date (now + seconds originalQueue.attributes.visibilityTimeout)),
    setString "receiptHandle" "", setString "status" MessageStatus.initial.toString]

def redriveMessage (now : Time) (originalQueue dlqQueue : Queue) (messageId : String) :
    MongoCall Int :=
  updateMessages [fieldIs "queueArn" dlqQueue.arn, fieldIs "messageId" messageId]
    (redriveUpdate now originalQueue)

def redriveMessages (now : Time) (originalQueue dlqQueue : Queue) : MongoCall Int :=
  updateMessages [fieldIs "queueArn" dlqQueue.arn] (redriveUpdate now originalQueue)

def messageRetention (now : Time) (queueArn : String) (retentionPeriod : Int) :
    MongoCall Int := do
  let filter : Filter :=
    [fieldIs "queueArn" queueArn, (["created"], .lt (now - seconds retentionPeriod))]
  let messages ← readMessages
  writeMessages (messages.deleteMany filter)
  return messages.countDocuments filter

/-- The prefix is matched against a field `key`. -/
def countMessages (queueArn messagePrefix : String) : MongoCall Int := do
  let filter := unlessEmpty queueArn (fieldIs "queueArn" queueArn) ++
    unlessEmpty messagePrefix (startsWithClause "key" messagePrefix)
  return (← readMessages).countDocuments filter

def deleteMessages (queueArn : String) : MongoCall Int := do
  let filter : Filter := [fieldIs "queueArn" queueArn]
  let messages ← readMessages
  writeMessages (messages.deleteMany filter)
  return messages.countDocuments filter

/-- `deleteMessage` by receipt handle. -/
def deleteMessage (receiptHandle : String) : MongoCall Int := do
  let filter : Filter := [fieldIs "receiptHandle" receiptHandle]
  let messages ← readMessages
  writeMessages (messages.deleteOne filter)
  return min 1 (messages.countDocuments filter : Int)

/-- The number in a field, as `$sum` takes it. -/
def numberIn (document : Document) (name : String) : Int :=
  match document.get? name with
  | some (.scalar (.int32 value)) => value
  | some (.scalar (.int64 value)) => value
  | _ => 0

/-- The `$set` of the four counters of a queue. -/
def countersUpdate (size initial delayed invisible : Int) : Update where
  set := [(["size"], .int64 size), (["attributes", "approximateNumberOfMessages"], .int64 initial),
    (["attributes", "approximateNumberOfMessagesDelayed"], .int64 delayed),
    (["attributes", "approximateNumberOfMessagesNotVisible"], .int64 invisible)]

/-- The aggregated counters of the messages filed under an ARN. -/
def groupUpdate (messages : Collection) (queueArn : String) : Update :=
  let group := messages.filter fun document => getStringValue document "queueArn" = queueArn
  let count (status : MessageStatus) : Int :=
    group.countP fun document => (fieldIs "status" status.toString).2.holds (document.get? "status")
  countersUpdate ((group.map fun document => numberIn document "size").sum) (count .initial)
    (count .delayed) (count .invisible)

def adjustMessageCounters : MongoCall Unit :=
  Call.writeStore fun store =>
    let queuesWithMessages :=
      (store.messages.map fun document => getStringValue document "queueArn").dedup
    let counted := queuesWithMessages.foldl
      (fun queues queueArn =>
        Collection.updateOne [fieldIs "arn" queueArn] (groupUpdate store.messages queueArn) queues)
      store.queues
    { store with
      queues := Collection.updateMany [(["arn"], .notIn (queuesWithMessages.map .string))]
        (countersUpdate 0 0 0 0) counted }

end MongoRepository

end AwsMock.Sqs
