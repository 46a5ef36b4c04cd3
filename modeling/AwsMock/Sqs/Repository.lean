import AwsMock.Sqs.MemoryRepository
import AwsMock.Sqs.MongoRepository

/-! # The repository interface

`ISQSRepository`, which the service and the server call, and its two
implementations. The clock reading of a call is an argument.
-/

namespace AwsMock.Sqs

open Foundation

/-- `ISQSRepository`: the functions the service and the server use. -/
structure Repository (Store : Type) where
  queueUrlExists : String → String → Call Mutex Store Bool
  queueArnExists : String → Call Mutex Store Bool
  createQueue : Queue → Call Mutex Store Queue
  getQueueByArn : Time → String → Call Mutex Store Queue
  getQueueByUrl : Time → String → String → Call Mutex Store Queue
  isDlq : String → Call Mutex Store (List Queue)
  listQueues : String → Call Mutex Store (List Queue)
  purgeQueue : String → Call Mutex Store Int
  updateQueue : Time → Queue → Call Mutex Store Queue
  deleteQueue : Queue → Call Mutex Store Int
  createMessage : Message → Call Mutex Store Message
  messageExistsByMessageId : String → Call Mutex Store Bool
  getMessageByMessageId : Time → String → Call Mutex Store Message
  updateMessage : Time → Message → Call Mutex Store Message
  receiveMessages : Time → String → Int → Int → String → Int → List Message →
    Call Mutex Store (List Message)
  resetMessages : Time → String → Int → Call Mutex Store Int
  resetDelayedMessages : Time → String → Int → Call Mutex Store Int
  redriveMessages : Time → Queue → Queue → Call Mutex Store Int
  redriveMessage : Time → Queue → Queue → String → Call Mutex Store Int
  messageRetention : Time → String → Int → Call Mutex Store Int
  countMessages : String → String → Call Mutex Store Int
  deleteMessages : String → Call Mutex Store Int
  deleteMessage : String → Call Mutex Store Int
  adjustMessageCounters : Time → Call Mutex Store Unit

/-- `SQSMemoryRepository`. -/
def memoryRepository (random : RandomSource) : Repository MemoryStore where
  queueUrlExists := MemoryRepository.queueUrlExists
  queueArnExists := MemoryRepository.queueArnExists
  createQueue := MemoryRepository.createQueue random
  getQueueByArn := MemoryRepository.getQueueByArn
  getQueueByUrl := MemoryRepository.getQueueByUrl
  isDlq := MemoryRepository.isDlq
  listQueues := MemoryRepository.listQueues
  purgeQueue := MemoryRepository.purgeQueue
  updateQueue := MemoryRepository.updateQueue
  deleteQueue := MemoryRepository.deleteQueue
  createMessage := MemoryRepository.createMessage random
  messageExistsByMessageId := MemoryRepository.messageExistsByMessageId
  getMessageByMessageId := MemoryRepository.getMessageByMessageId
  updateMessage := MemoryRepository.updateMessage
  receiveMessages := MemoryRepository.receiveMessages random
  resetMessages := MemoryRepository.resetMessages
  resetDelayedMessages := MemoryRepository.resetDelayedMessages
  redriveMessages := fun _ => MemoryRepository.redriveMessages
  redriveMessage := fun _ => MemoryRepository.redriveMessage
  messageRetention := MemoryRepository.messageRetention
  countMessages := MemoryRepository.countMessages
  deleteMessages := MemoryRepository.deleteMessages
  deleteMessage := MemoryRepository.deleteMessage
  adjustMessageCounters := MemoryRepository.adjustMessageCounters

/-- `SQSMongoRepository`, with a bound on the rounds of its receive loop. -/
def mongoRepository (random : RandomSource) (order : Option Value → Option Value → Bool)
    (fuel : Nat) : Repository MongoStore where
  queueUrlExists := MongoRepository.queueUrlExists
  queueArnExists := MongoRepository.queueArnExists
  createQueue := MongoRepository.createQueue random
  getQueueByArn := fun _ => MongoRepository.getQueueByArn
  getQueueByUrl := fun _ => MongoRepository.getQueueByUrl
  isDlq := MongoRepository.isDlq
  listQueues := MongoRepository.listQueues order
  purgeQueue := MongoRepository.purgeQueue
  updateQueue := MongoRepository.updateQueue
  deleteQueue := MongoRepository.deleteQueue
  createMessage := MongoRepository.createMessage random
  messageExistsByMessageId := MongoRepository.messageExistsByMessageId
  getMessageByMessageId := MongoRepository.getMessageByMessageId
  updateMessage := MongoRepository.updateMessage
  receiveMessages := MongoRepository.receiveMessages random fuel
  resetMessages := MongoRepository.resetMessages
  resetDelayedMessages := MongoRepository.resetDelayedMessages
  redriveMessages := MongoRepository.redriveMessages
  redriveMessage := MongoRepository.redriveMessage
  messageRetention := MongoRepository.messageRetention
  countMessages := MongoRepository.countMessages
  deleteMessages := MongoRepository.deleteMessages
  deleteMessage := MongoRepository.deleteMessage
  adjustMessageCounters := fun _ => MongoRepository.adjustMessageCounters

section Samples

def MemoryStore.single (message : Message) : MemoryStore :=
  ⟨.empty, ⟨[(message.oid, message)], List.nodup_singleton _⟩⟩

def MongoStore.single (message : Message) : MongoStore :=
  ⟨[], [MongoRepository.withObjectId message.oid message.toDocument]⟩

def MemoryStore.singleQueue (queue : Queue) : MemoryStore :=
  ⟨⟨[(queue.oid, queue)], List.nodup_singleton _⟩, .empty⟩

def MongoStore.singleQueue (queue : Queue) : MongoStore :=
  ⟨[MongoRepository.withObjectId queue.oid queue.toDocument], []⟩

def orderQueue : Queue :=
  { region := "eu-central-1", oid := "6630f1", name := "orders",
    url := "http://sqs.eu-central-1.localhost:4566/000000000000/orders",
    arn := "arn:aws:sqs:eu-central-1:000000000000:orders" }

def orderMessage (retries : Int) : Message :=
  { oid := "6630f0", queueArn := "arn:aws:sqs:eu-central-1:000000000000:orders",
    queueName := "orders", messageId := "m-1", receiptHandle := "sent",
    retries, reset := 1000, created := 1000, modified := 1000 }

end Samples

end AwsMock.Sqs
