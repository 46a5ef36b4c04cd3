import AwsMock.Core.Text
import AwsMock.Foundation.UnorderedMap
import AwsMock.Sqs.Entity

/-! # The in-memory repository

`SQSMemoryRepository`: queues and messages in hash maps keyed by object id,
guarded by two mutexes. The clock reading of a call is its argument `now`.
-/

namespace AwsMock.Sqs

open Foundation

structure MemoryStore where
  queues : UnorderedMap String Queue
  messages : UnorderedMap String Message

def MemoryStore.empty : MemoryStore := ⟨.empty, .empty⟩

namespace MemoryRepository

abbrev MemoryCall (α : Type) := Call Mutex MemoryStore α

def writeQueues (queues : UnorderedMap String Queue) : MemoryCall Unit :=
  Call.writeStore fun store => { store with queues }

def writeMessages (messages : UnorderedMap String Message) : MemoryCall Unit :=
  Call.writeStore fun store => { store with messages }

def readQueues : MemoryCall (UnorderedMap String Queue) := Call.readStore MemoryStore.queues

def readMessages : MemoryCall (UnorderedMap String Message) := Call.readStore MemoryStore.messages

def queueExists (region name : String) : MemoryCall Bool := do
  return ((← readQueues).findIf fun queue => queue.region = region && queue.name = name).isSome

def queueUrlExists (region queueUrl : String) : MemoryCall Bool := do
  return ((← readQueues).findIf fun queue => queue.region = region && queue.url = queueUrl).isSome

def queueArnExists (queueArn : String) : MemoryCall Bool := do
  return ((← readQueues).findIf fun queue => queue.arn = queueArn).isSome

def createQueue (random : RandomSource) (queue : Queue) : MemoryCall Queue :=
  Action.scopedLock .sqsQueue do
    let oid := random.uuid (← Call.draw)
    let queue := { queue with oid }
    writeQueues ((← readQueues).assign oid queue)
    return queue

/-- The `getQueueBy…` lookups: the first queue selected, with its key as object
id, here and in the store. A default queue when there is none. -/
def getQueueBy (now : Time) (select : Queue → Bool) : MemoryCall Queue := do
  let queues ← readQueues
  match queues.findIf select with
  | some (key, queue) =>
    let queue := { queue with oid := key }
    writeQueues (queues.assign key queue)
    return queue
  | none => return Queue.fresh now

def getQueueByArn (now : Time) (queueArn : String) : MemoryCall Queue :=
  getQueueBy now fun queue => queue.arn = queueArn

def getQueueByUrl (now : Time) (region queueUrl : String) : MemoryCall Queue :=
  getQueueBy now fun queue => queue.url = queueUrl && queue.region = region

def getQueueByName (now : Time) (region queueName : String) : MemoryCall Queue :=
  getQueueBy now fun queue => queue.region = region && queue.name = queueName

def getQueueByDlq (now : Time) (dlqQueueArn : String) : MemoryCall Queue :=
  getQueueBy now fun queue => queue.attributes.redrivePolicy.deadLetterTargetArn = dlqQueueArn

def isDlq (queueArn : String) : MemoryCall (List Queue) := do
  let queues := (← readQueues).values
  return if queueArn = "" then queues
    else queues.filter fun queue =>
      queue.attributes.redrivePolicy.deadLetterTargetArn = queueArn

/-- `Core::PageVector`. The bounds convert to unsigned numbers. -/
def pageVector {α : Type} (values : List α) (pageSize pageIndex : Int) : List α :=
  if pageSize ≤ 0 then values
  else
    let startIndex := min ((pageSize * pageIndex) % 18446744073709551616).toNat values.length
    let endIndex := min ((pageSize * (pageIndex + 1)) % 18446744073709551616).toNat values.length
    (values.take endIndex).drop startIndex

/-- The paged `listQueues`. The sort orders a copy that is thrown away, so the
list keeps the order of the map. -/
def listQueuesPage (queuePrefix : String) (pageSize pageIndex : Int) (_sortColumns : List SortColumn)
    (region : String) : MemoryCall (List Queue) := do
  let queues := (← readQueues).values
  let queues := if region = "" then queues
    else queues.filter fun queue => queue.region = region
  let queues := if queuePrefix = "" then queues
    else queues.filter fun queue => StringUtils.startsWith queue.name queuePrefix
  return if pageSize > 0 then queues else pageVector queues pageSize pageIndex

def listQueues (region : String) : MemoryCall (List Queue) := do
  let queues := (← readQueues).values
  return if region = "" then queues else queues.filter fun queue => queue.region = region

/-- The prefix is not looked at; the region is looked at twice. -/
def listQueueUrls (region _prefix : String) : MemoryCall (List String) := do
  let queues := (← readQueues).values
  let queues := if region = "" then queues
    else queues.filter fun queue => queue.region = region
  let queues := if region = "" then queues
    else queues.filter fun queue => queue.region = region
  return queues.map Queue.url

def purgeQueue (queueArn : String) : MemoryCall Int :=
  Action.scopedLock .sqsQueue do
    let messages ← readMessages
    writeMessages (messages.eraseIf (Message.isIn queueArn))
    return messages.countIf (Message.isIn queueArn)

def updateQueue (now : Time) (queue : Queue) : MemoryCall Queue :=
  Action.scopedLock .sqsQueue do
    let queue := { queue with modified := now }
    let queues ← readQueues
    match queues.findIf fun other => other.region = queue.region && other.name = queue.name with
    | some (key, _) =>
      writeQueues (queues.assign key queue)
      return queue
    | none => return Queue.fresh now

/-- The prefix is applied twice when a region is given, the region never. -/
def countQueues (region queuePrefix : String) : MemoryCall Int := do
  let queues := (← readQueues).values
  let queues := if region = "" then queues
    else queues.filter fun queue => StringUtils.startsWith queue.name queuePrefix
  let queues := if region = "" then queues
    else queues.filter fun queue => StringUtils.startsWith queue.name queuePrefix
  return queues.length

def deleteQueue (queue : Queue) : MemoryCall Int :=
  Action.scopedLock .sqsQueue do
    let queues ← readQueues
    let matching (other : Queue) : Bool := other.region = queue.region && other.url = queue.url
    writeQueues (queues.eraseIf matching)
    return queues.countIf matching

def createMessage (random : RandomSource) (message : Message) : MemoryCall Message :=
  Action.scopedLock .sqsMessage do
    let oid := random.uuid (← Call.draw)
    let message := { message with oid }
    writeMessages ((← readMessages).assign oid message)
    return message

def messageExists (receiptHandle : String) : MemoryCall Bool := do
  return ((← readMessages).findIf (Message.carries receiptHandle)).isSome

def messageExistsByMessageId (messageId : String) : MemoryCall Bool := do
  return ((← readMessages).findIf fun message => message.messageId = messageId).isSome

/-- The `getMessageBy…` lookups, which set the object id like `getQueueBy`. -/
def getMessageBy (now : Time) (select : Message → Bool) : MemoryCall Message := do
  let messages ← readMessages
  match messages.findIf select with
  | some (key, message) =>
    let message := { message with oid := key }
    writeMessages (messages.assign key message)
    return message
  | none => return Message.fresh now

def getMessageByReceiptHandle (now : Time) (receiptHandle : String) : MemoryCall Message :=
  getMessageBy now (Message.carries receiptHandle)

def getMessageByMessageId (now : Time) (messageId : String) : MemoryCall Message :=
  getMessageBy now fun message => message.messageId = messageId

def updateMessage (now : Time) (message : Message) : MemoryCall Message :=
  Action.scopedLock .sqsMessage do
    let message := { message with modified := now }
    let messages ← readMessages
    match messages.findIf fun other => other.oid = message.oid with
    | some (key, _) =>
      writeMessages (messages.assign key message)
      return message
    | none => return Message.fresh now

/-- The paged `listMessages`: a substring test on the ARN, nothing else. -/
def listMessages (queueArn _prefix : String) (_pageSize _pageIndex : Int)
    (_sortColumns : List SortColumn) : MemoryCall (List Message) := do
  let messages := (← readMessages).values
  return if queueArn = "" then messages
    else messages.filter fun message => StringUtils.contains message.queueArn queueArn

/-- What becomes of a ready message that a receive visits: it moves to the
dead-letter queue, or it is claimed under the given handle. -/
def takeMessage (reset : Time) (dlQueueArn : String) (maxRetries : Int) (receiptHandle : String)
    (message : Message) : Message :=
  let message := { message with retries := message.retries + 1 }
  if isDead dlQueueArn maxRetries message.retries then
    { message with
      queueArn := dlQueueArn
      queueName := AwsUtils.convertSQSQueueArnToName dlQueueArn
      receiptHandle := ""
      status := .initial }
  else { message with reset, status := .invisible, receiptHandle }

/-- The limit test `messageList.size() >= maxResult`. The comparison is
unsigned: no list is as long as a negative limit. -/
def reachesLimit (maxResult : Int) (count : Nat) : Bool :=
  decide (0 ≤ maxResult) && decide (maxResult ≤ count)

/-- One round of the receive loop. Its state is the draws used and the list of
messages so far. A handle is only drawn for a claimed message. -/
def receiveRound (random : RandomSource) (queueArn : String) (reset : Time) (maxResult : Int)
    (dlQueueArn : String) (maxRetries : Int) (message : Message) (state : Nat × List Message) :
    UnorderedMap.Visit Message (Nat × List Message) :=
  if message.isIn queueArn && message.hasStatus .initial then
    let taken := takeMessage reset dlQueueArn maxRetries (random.receiptHandle state.1) message
    let draws :=
      if isDead dlQueueArn maxRetries (message.retries + 1) then state.1 else state.1 + 1
    let messageList := state.2 ++ [taken]
    ⟨taken, (draws, messageList), reachesLimit maxResult messageList.length⟩
  else ⟨message, state, false⟩

def receiveMessages (random : RandomSource) (now : Time) (queueArn : String)
    (visibility maxResult : Int) (dlQueueArn : String) (maxRetries : Int)
    (messageList : List Message) : MemoryCall (List Message) :=
  Action.scopedLock .sqsMessage <| Call.loop fun draws store =>
    let reset := now + seconds visibility
    let result := store.messages.visit
      (receiveRound random queueArn reset maxResult dlQueueArn maxRetries) (draws, messageList)
    (result.2.2, result.2.1, { store with messages := result.1 })

/-- A loop that rewrites the selected messages and returns their number. -/
def rewriteMessages (select : Message → Bool) (rewrite : Message → Message) : MemoryCall Int :=
  Action.scopedLock .sqsMessage do
    let result := (← readMessages).visit (UnorderedMap.countingBody select rewrite) 0
    writeMessages result.1
    return result.2

def resetMessages (now : Time) (queueArn : String) (_visibility : Int) : MemoryCall Int :=
  rewriteMessages
    (fun message =>
      message.isIn queueArn && message.hasStatus .invisible && decide (message.reset < now))
    (fun message => { message with status := .initial, receiptHandle := "" })

def resetDelayedMessages (now : Time) (queueArn : String) (_delay : Int) : MemoryCall Int :=
  rewriteMessages
    (fun message =>
      message.isIn queueArn && message.hasStatus .delayed && decide (message.reset < now))
    (fun message => { message with status := .initial })

/-- What a redrive makes of a message of the dead-letter queue. -/
def redriven (originalQueue : Queue) (message : Message) : Message :=
  { message with
    retries := 0
    queueArn := originalQueue.arn
    queueName := originalQueue.name
    status := .initial }

def redriveMessages (originalQueue dlqQueue : Queue) : MemoryCall Int :=
  rewriteMessages (fun message => message.isIn dlqQueue.arn) (redriven originalQueue)

def redriveMessage (originalQueue dlqQueue : Queue) (messageId : String) : MemoryCall Int :=
  rewriteMessages
    (fun message => message.isIn dlqQueue.arn && decide (message.messageId = messageId))
    (redriven originalQueue)

/-- `deleteMessage` by receipt handle. -/
def deleteMessage (receiptHandle : String) : MemoryCall Int :=
  Action.scopedLock .sqsMessage do
    let messages ← readMessages
    writeMessages (messages.eraseIf (Message.carries receiptHandle))
    return messages.countIf (Message.carries receiptHandle)

/-- The loop deletes through `deleteMessage`, which takes the lock held here. -/
def messageRetention (now : Time) (queueArn : String) (_retentionPeriod : Int) : MemoryCall Int :=
  Action.scopedLock .sqsMessage do
    (← readMessages).values.foldlM
      (fun count message =>
        if message.isIn queueArn && message.hasStatus .delayed && decide (message.reset < now) then
          return count + (← deleteMessage message.receiptHandle)
        else return count) 0

def countMessages (queueArn _prefix : String) : MemoryCall Int := do
  let messages ← readMessages
  return if queueArn = "" then messages.size else messages.countIf (Message.isIn queueArn)

def deleteMessages (queueArn : String) : MemoryCall Int :=
  Action.scopedLock .sqsMessage do
    let messages ← readMessages
    writeMessages (messages.eraseIf (Message.isIn queueArn))
    return messages.countIf (Message.isIn queueArn)

/-- `countMessagesByStatus`. -/
def countMessagesByStatus (messages : UnorderedMap String Message) (queueArn : String)
    (status : MessageStatus) : Int :=
  messages.countIf fun message => message.isIn queueArn && message.hasStatus status

/-- The counters are set under the object id a queue carries; sizes are not. -/
def adjustMessageCounters (now : Time) : MemoryCall Unit :=
  Action.scopedLock .sqsMessage <| Call.writeStore fun store =>
    let count := countMessagesByStatus store.messages
    { store with
      queues := store.queues.values.foldl
        (fun queues queue => queues.modifyAt queue.oid (Queue.fresh now) fun stored =>
          { stored with
            attributes := { stored.attributes with
              approximateNumberOfMessages := count queue.arn .initial
              approximateNumberOfMessagesNotVisible := count queue.arn .invisible
              approximateNumberOfMessagesDelayed := count queue.arn .delayed } })
        store.queues }

section Runs

variable {world : World MemoryStore}

theorem run_rewriteMessages {select : Message → Bool} {rewrite : Message → Message} :
    (rewriteMessages select rewrite).run [] world =
      .returns (world.store.messages.values.countP select : Int)
        { world with
          store := { world.store with
            messages := world.store.messages.rewriteIf select rewrite } } := by
  have hvisit := UnorderedMap.visit_countingBody world.store.messages select rewrite 0
  rw [rewriteMessages, Action.run_scopedLock_free List.not_mem_nil, readMessages]
  simp only [Action.run_bind, Call.run_readStore, Outcome.andThen_returns, writeMessages,
    Call.run_writeStore, Action.run_pure, hvisit, Int.zero_add]

theorem run_deleteMessage {receiptHandle : String} :
    (deleteMessage receiptHandle).run [] world =
      .returns (world.store.messages.countIf (Message.carries receiptHandle) : Int)
        { world with
          store := { world.store with
            messages := world.store.messages.eraseIf (Message.carries receiptHandle) } } := rfl

theorem run_createMessage {random : RandomSource} {message : Message} :
    (createMessage random message).run [] world =
      .returns { message with oid := random.uuid world.draws } ⟨{ world.store with
            messages := world.store.messages.assign (random.uuid world.draws)
              { message with oid := random.uuid world.draws } },
          world.draws + 1⟩ := rfl

end Runs

end MemoryRepository

section Keys

variable {store : MemoryStore}

variable (hkeyed : ∀ entry ∈ store.messages.entries, entry.2.oid = entry.1)
include hkeyed

theorem nodup_oids :
    (store.messages.values.map Message.oid).Nodup := by
  have hkeys : store.messages.values.map Message.oid = store.messages.entries.map Prod.fst := by
    rw [UnorderedMap.values, List.map_map]
    exact List.map_congr_left hkeyed
  rw [hkeys]
  exact store.messages.nodup

theorem eq_of_oid_eq
    {first second : Message} (hfirst : first ∈ store.messages.values)
    (hsecond : second ∈ store.messages.values) (hoid : first.oid = second.oid) :
    first = second :=
  List.inj_on_of_nodup_map (nodup_oids hkeyed) hfirst hsecond hoid

theorem keyed_rewriteIf {select : Message → Bool} {rewrite : Message → Message}
    (hoid : ∀ message, (rewrite message).oid = message.oid) :
    ∀ entry ∈ (store.messages.rewriteIf select rewrite).entries, entry.2.oid = entry.1 := by
  intro entry hentry
  obtain ⟨old, hold, rfl⟩ := List.mem_map.mp hentry
  refine Eq.trans ?_ (hkeyed old hold)
  simp only
  split
  · exact hoid old.2
  · rfl

end Keys

end AwsMock.Sqs
