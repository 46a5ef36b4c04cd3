import AwsMock.Sqs.MongoRepository
import AwsMock.Sqs.Stored

/-! # Message commands on documents that stand for messages

What the filters and updates of the MongoDB repository do to documents that
stand for messages: a filter accepts a document exactly when its message
satisfies the condition, and an updated document stands for an updated message.
-/

namespace AwsMock.Sqs

open Foundation MongoRepository

namespace Message.StoredAs

variable {message : Message} {document : Document}

section Conditions

variable (hstored : message.StoredAs document)
include hstored

theorem holds_queueArn (queueArn : String) :
    (fieldIs "queueArn" queueArn).2.holds (document.getPath ["queueArn"]) =
      message.isIn queueArn := by
  simp [fieldIs, Condition.holds_eq_some, hstored.queueArn, Message.isIn]

theorem holds_status (status : MessageStatus) :
    (fieldIs "status" status.toString).2.holds (document.getPath ["status"]) =
      message.hasStatus status := by
  simp [fieldIs, Condition.holds_eq_some, hstored.status, Message.hasStatus, MessageStatus.toString_inj]

theorem holds_messageId (messageId : String) :
    (fieldIs "messageId" messageId).2.holds (document.getPath ["messageId"]) =
      decide (message.messageId = messageId) := by
  simp [fieldIs, Condition.holds_eq_some, hstored.messageId]

theorem holds_oid (oid : String) :
    (idIs oid).2.holds (document.getPath ["_id"]) = decide (message.oid = oid) := by
  simp [idIs, Condition.holds_eq_some, hstored.oid]

end Conditions

section Filters

variable (hstored : message.StoredAs document)
include hstored

theorem accepts_claimFilter (queueArn : String) :
    Filter.accepts (claimFilter queueArn) document =
      (message.isIn queueArn && message.hasStatus .initial) := by
  simp only [claimFilter, Filter.accepts_cons, Filter.accepts_nil, Bool.and_true]
  exact congrArg₂ _ (hstored.holds_queueArn queueArn) (hstored.holds_status .initial)

theorem accepts_idIs (oid : String) :
    Filter.accepts [idIs oid] document = decide (message.oid = oid) := by
  rw [← hstored.holds_oid]
  exact Bool.and_true _

theorem accepts_queueArn (queueArn : String) :
    Filter.accepts [fieldIs "queueArn" queueArn] document = message.isIn queueArn := by
  rw [← hstored.holds_queueArn]
  exact Bool.and_true _

theorem accepts_messageId (messageId : String) :
    Filter.accepts [fieldIs "messageId" messageId] document =
      decide (message.messageId = messageId) := by
  rw [← hstored.holds_messageId]
  exact Bool.and_true _

end Filters

section Updates

variable (hstored : message.StoredAs document)
include hstored

theorem increment_retries :
    StoredAs { message with retries := message.retries + 1 }
      (document.increment ["retries"] 1) := by
  rcases hstored.retries with hlong | ⟨hfits, hint⟩
  · rw [Document.increment, Document.getPath_singleton, hlong]
    exact hstored.setRetries (Or.inl rfl)
  · rw [Document.increment, Document.getPath_singleton, hint]
    refine hstored.setRetries ?_
    rw [Scalar.ofSum]
    split
    next hsum => exact Or.inr ⟨hsum, rfl⟩
    next => exact Or.inl rfl

theorem claim (reset : Time) (receiptHandle : String) :
    StoredAs { message with
        retries := message.retries + 1, reset, status := .invisible, receiptHandle }
      ((claimUpdate reset receiptHandle).apply document) :=
  (((hstored.setStatus .invisible).setReset reset).setReceiptHandle receiptHandle).increment_retries

theorem deadLetter (dlQueueArn : String) :
    StoredAs { message with queueArn := dlQueueArn, receiptHandle := "", status := .initial }
      ((deadLetterUpdate dlQueueArn).apply document) :=
  ((hstored.setQueueArn dlQueueArn).setReceiptHandle "").setStatus .initial

theorem redrive (now : Time) (originalQueue : Queue) :
    StoredAs { message with
        queueArn := originalQueue.arn
        retries := 0
        reset := now + seconds originalQueue.attributes.visibilityTimeout
        receiptHandle := ""
        status := .initial }
      ((redriveUpdate now originalQueue).apply document) := by
  have hurl := (hstored.setQueueArn originalQueue.arn).setExtra "queueUrl"
    (.scalar (.string originalQueue.url)) (by simp [toDocument, Document.get?_cons])
    (by decide)
  have hnames := hurl.setExtra "name" (.scalar (.string originalQueue.name))
    (by simp [toDocument, Document.get?_cons]) (by decide)
  have hretries : StoresInteger (some (.scalar (.int32 0))) 0 := Or.inr ⟨by decide, rfl⟩
  exact (((hnames.setRetries hretries).setReset
    (now + seconds originalQueue.attributes.visibilityTimeout)).setReceiptHandle "").setStatus
      .initial

end Updates

end Message.StoredAs

end AwsMock.Sqs
