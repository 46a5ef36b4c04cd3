import Mathlib.Algebra.Ring.Int.Defs
import AwsMock.Foundation.KeyedList
import AwsMock.Foundation.Runs

/-! # Topics with their messages, in two stores

The memory store keeps topics and messages in maps from random keys, and a message is searched
there by its key; the document store keeps two collections and searches messages by their
message id. Counters of topics are adjusted by the document store after its operations, and by
the memory store when it is told to.
-/

namespace AwsMock.Sns.Messages

open Foundation

inductive MessageStatus where
  | initial | send | resend
deriving DecidableEq, Repr

structure Topic where
  oid : String := ""
  region : String := ""
  topicName : String := ""
  topicArn : String := ""
  tags : List (String × String) := []
  size : Int := 0
  messages : Int := 0
  messagesSend : Int := 0
  messagesResend : Int := 0
deriving DecidableEq, Repr

structure Message where
  oid : String := ""
  region : String := ""
  topicArn : String := ""
  messageId : String := ""
  message : String := ""
  size : Int := 0
  status : MessageStatus := .initial
  created : Int := 0
  messageAttributes : List (String × String) := []
deriving DecidableEq, Repr

namespace Topic

def content (topic : Topic) : Topic := { topic with oid := "" }

def setCounters (topic : Topic) (messages messagesSend messagesResend : Int) : Topic :=
  { topic with
    messages := messages, messagesSend := messagesSend, messagesResend := messagesResend }

def setSize (topic : Topic) (size : Int) : Topic := { topic with size := size }

end Topic

def Message.content (message : Message) : Message := { message with oid := "" }

abbrev Entry (α : Type) := String × α

/-! ## The memory store -/

structure MemoryRepository where
  topics : List (Entry Topic) := []
  messages : List (Entry Message) := []
  /-- An iterator to the end of a map has been used. -/
  crashed : Bool := false

namespace MemoryRepository

variable (repository : MemoryRepository)

/-- What is assigned to a key replaces what is there, or gets a place of its own. -/
def assign {α : Type} (place : Nat) (entry : Entry α) (entries : List (Entry α)) :
    List (Entry α) :=
  if entries.any fun other => other.1 = entry.1 then
    rewriteFirst (fun other => other.1 = entry.1) (fun _ => entry) entries
  else entries.take place ++ entry :: entries.drop place

/-- The random identifier and its place among the keys are drawn. -/
def createTopic (topic : Topic) (oid : String) (place : Nat) : MemoryRepository :=
  { repository with topics := assign place (oid, { topic with oid := oid }) repository.topics }

def updateTopic (topic : Topic) : MemoryRepository :=
  let isNamed (entry : Entry Topic) : Bool :=
    entry.2.region = topic.region && entry.2.topicName = topic.topicName
  if repository.topics.any isNamed then
    { repository with
      topics := rewriteFirst isNamed (fun entry => (entry.1, topic)) repository.topics }
  else { repository with crashed := true }

def createMessage (message : Message) (oid : String) (place : Nat) : MemoryRepository :=
  { repository with messages := assign place (oid, message) repository.messages }

def setMessageStatus (oid : String) (status : MessageStatus) : MemoryRepository :=
  { repository with
    messages := rewriteFirst (fun entry => entry.1 = oid)
      (fun entry => (entry.1, { entry.2 with status := status })) repository.messages }

def deleteMessage (messageId : String) : MemoryRepository :=
  { repository with
    messages := repository.messages.filter fun entry => entry.2.messageId ≠ messageId }

def deleteOldMessages (timeout now : Int) : MemoryRepository :=
  { repository with
    messages := repository.messages.filter fun entry => ¬ entry.2.created < now - timeout * 1000 }

def purgeTopic (topicArn : String) : MemoryRepository :=
  { repository with
    messages := repository.messages.filter fun entry => entry.2.topicArn ≠ topicArn }

def deleteTopic (region topicArn : String) : MemoryRepository :=
  { repository with
    topics := repository.topics.filter fun entry =>
      ¬ (entry.2.region = region ∧ entry.2.topicArn = topicArn) }

def countMessagesByStatus (topicArn : String) (status : MessageStatus) : Nat :=
  repository.messages.countP fun entry => entry.2.topicArn = topicArn ∧ entry.2.status = status

/-- The counters of the topic go to the entry under the identifier that the topic has. -/
def adjustTopic (topics : List (Entry Topic)) (topic : Topic) : List (Entry Topic) :=
  let stored := ((topics.find? fun entry => entry.1 = topic.oid).map Prod.snd).getD {}
  assign topics.length (topic.oid, stored.setCounters
        (repository.countMessagesByStatus topic.topicArn .initial)
        (repository.countMessagesByStatus topic.topicArn .send)
        (repository.countMessagesByStatus topic.topicArn .resend)) topics

def adjustMessageCounters : MemoryRepository :=
  { repository with
    topics := (repository.topics.map Prod.snd).foldl repository.adjustTopic repository.topics }

/-! ### Answers -/

def messageExists (messageId : String) : Bool :=
  repository.messages.any fun entry => entry.1 = messageId

def getMessageByMessageId (messageId : String) : Message :=
  ((repository.messages.find? fun entry => entry.1 = messageId).map Prod.snd).getD {}

def countMessages (topicArn : String) : Nat :=
  if topicArn = "" then repository.messages.length
  else repository.messages.countP fun entry => entry.2.topicArn = topicArn

def listTopics (region : String) : List Topic :=
  if region = "" then repository.topics.map Prod.snd
  else (repository.topics.map Prod.snd).filter fun topic => topic.region = region

end MemoryRepository

/-! ## The document store -/

structure MongoRepository where
  topics : List Topic := []
  messages : List Message := []

namespace MongoRepository

variable (repository : MongoRepository)

def adjustTopics (topics : List Topic) : List Topic :=
  let arns := (repository.messages.map (·.topicArn)).dedup
  let written := arns.foldl (fun topics topicArn =>
    let found := repository.messages.filter fun message => message.topicArn = topicArn
    rewriteFirst (fun topic => topic.topicArn = topicArn) (fun topic =>
      (topic.setCounters found.length (found.countP fun message => message.status = .send)
        (found.countP fun message => message.status = .resend)).setSize
          (found.map (·.size)).sum) topics) topics
  written.map fun topic =>
    if topic.topicArn ∈ arns then topic else (topic.setCounters 0 0 0).setSize 0

def adjustMessageCounters : MongoRepository :=
  { repository with topics := repository.adjustTopics repository.topics }

def createTopic (topic : Topic) (oid : String) : MongoRepository :=
  { repository with topics := repository.topics ++ [{ topic with oid := oid }] }

def updateTopic (topic : Topic) : MongoRepository :=
  { repository with
    topics := rewriteFirst
      (fun other => other.region = topic.region && other.topicArn = topic.topicArn)
      (fun other => { topic with oid := other.oid }) repository.topics }

def createMessage (message : Message) (oid : String) : MongoRepository :=
  adjustMessageCounters
    { repository with messages := repository.messages ++ [{ message with oid := oid }] }

def setMessageStatus (oid : String) (status : MessageStatus) : MongoRepository :=
  { repository with
    messages := rewriteFirst (fun message => message.oid = oid)
      (fun message => { message with status := status }) repository.messages }

def deleteMessage (messageId : String) : MongoRepository :=
  { repository with
    messages := repository.messages.eraseP fun message => message.messageId = messageId }

def deleteOldMessages (timeout now : Int) : MongoRepository :=
  adjustMessageCounters
    { repository with
      messages := repository.messages.filter fun message =>
        ¬ message.created < now - timeout * 86400000 }

def purgeTopic (topicArn : String) : MongoRepository :=
  adjustMessageCounters
    { repository with
      messages := repository.messages.filter fun message => message.topicArn ≠ topicArn }

def deleteTopic (topicArn : String) : MongoRepository :=
  adjustMessageCounters
    { repository with topics := repository.topics.filter fun topic => topic.topicArn ≠ topicArn }

/-! ### Answers -/

def messageExists (messageId : String) : Bool :=
  repository.messages.any fun message => message.messageId = messageId

/-- The attributes are written under one name and read under another. -/
def fromDocument (message : Message) : Message := { message with messageAttributes := [] }

/-- Nothing is said about a message that is not there: an empty result is used. -/
def getMessageByMessageId (messageId : String) : Option Message :=
  (repository.messages.find? fun message => message.messageId = messageId).map fromDocument

def countMessages (topicArn : String) : Nat :=
  if topicArn = "" then repository.messages.length
  else repository.messages.countP fun message => message.topicArn = topicArn

def listTopics (region : String) : List Topic :=
  if region = "" then repository.topics
  else repository.topics.filter fun topic => topic.region = region

end MongoRepository

/-! ## Operations on both -/

/-- What a repository draws: an identifier and, in the map, its place. -/
structure Draw where
  memoryOid : String
  mongoOid : String
  place : Nat := 0

/-- A topic or a message that is written back comes with the identifier that the store has
given to it. -/
inductive Operation where
  | createTopic (topic : Topic) (draw : Draw)
  | updateTopic (topic : Topic)
  | createMessage (message : Message) (draw : Draw)
  | setMessageStatus (memoryOid mongoOid : String) (status : MessageStatus)
  | deleteMessage (messageId : String)
  | deleteOldMessages (timeout now : Int)
  | purgeTopic (topicArn : String)
  | deleteTopic (region topicArn : String)
  | adjustMessageCounters

structure Repositories where
  memory : MemoryRepository := {}
  mongo : MongoRepository := {}

def MemoryRepository.step (repository : MemoryRepository) : Operation → MemoryRepository
  | .createTopic topic draw => repository.createTopic topic draw.memoryOid draw.place
  | .updateTopic topic => repository.updateTopic topic
  | .createMessage message draw => repository.createMessage message draw.memoryOid draw.place
  | .setMessageStatus memoryOid _ status => repository.setMessageStatus memoryOid status
  | .deleteMessage messageId => repository.deleteMessage messageId
  | .deleteOldMessages timeout now => repository.deleteOldMessages timeout now
  | .purgeTopic topicArn => repository.purgeTopic topicArn
  | .deleteTopic region topicArn => repository.deleteTopic region topicArn
  | .adjustMessageCounters => repository.adjustMessageCounters

def MongoRepository.step (repository : MongoRepository) : Operation → MongoRepository
  | .createTopic topic draw => repository.createTopic topic draw.mongoOid
  | .updateTopic topic => repository.updateTopic topic
  | .createMessage message draw => repository.createMessage message draw.mongoOid
  | .setMessageStatus _ mongoOid status => repository.setMessageStatus mongoOid status
  | .deleteMessage messageId => repository.deleteMessage messageId
  | .deleteOldMessages timeout now => repository.deleteOldMessages timeout now
  | .purgeTopic topicArn => repository.purgeTopic topicArn
  | .deleteTopic _ topicArn => repository.deleteTopic topicArn
  | .adjustMessageCounters => repository.adjustMessageCounters

def step (repositories : Repositories) (operation : Operation) : Repositories :=
  ⟨repositories.memory.step operation, repositories.mongo.step operation⟩

end AwsMock.Sns.Messages
