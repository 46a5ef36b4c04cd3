import AwsMock.Core.Fields
import AwsMock.Sqs.Stored

/-! # Queues and messages read into others

`FromDocument` of what `ToDocument` has written, on an entity that may hold another one. Most
numbers are cut off at 32 bits, a message loses times up to the epoch, and a queue keeps what its
document does not hold.
-/

namespace AwsMock.Sqs

open Foundation BsonUtils MongoUtils

structure WholeQueue extends Queue where
  paginationToken : String := ""
  score : Rat := 0

def ifPresent {α : Type} (document : Document) (name : String) (read base : α) : α :=
  if (document.get? name).isSome then read else base

/-- `Message::FromDocument`, on a message that may hold another one. -/
def Message.fromDocumentInto (base : Message) (document : Document) :
    Except CoreException Message := do
  let read ← fromDocument document
  return { read with
    messageAttributes := ifPresent document "messageAttributes" read.messageAttributes
      base.messageAttributes
    attributes := ifPresent document "attributes" read.attributes base.attributes }

/-- `QueueAttribute::FromDocument`, on attributes that may hold others. -/
def QueueAttribute.fromDocumentInto (base : QueueAttribute) (document : Document) :
    Except CoreException QueueAttribute := do
  let read ← fromDocument document
  return { read with
    redrivePolicy := ifPresent document "redrivePolicy" read.redrivePolicy base.redrivePolicy }

/-- The default message attributes of a queue are assigned, and none is cleared. -/
def assignMessageAttributes (base : StringMap MessageAttribute) (document : Document) :
    Except CoreException (StringMap MessageAttribute) :=
  document.foldlM
    (fun map field => do
      let messageAttribute ← MessageAttribute.fromDocument (← getDocument (document.get? field.1))
      return map.insert field.1 messageAttribute) base

/-- `Queue::FromDocument`, on a queue that may hold another one. -/
def WholeQueue.fromDocumentInto (base : WholeQueue) (document : Document) :
    Except CoreException WholeQueue := do
  let read ← Queue.fromDocument document
  let defaultMessageAttributes ← match document.get? "defaultMessageAttributes" with
    | some value => do
      assignMessageAttributes base.defaultMessageAttributes (← getDocument (some value))
    | none => pure base.defaultMessageAttributes
  let attributes ← match document.get? "attributes" with
    | some value => do base.attributes.fromDocumentInto (← getDocument (some value))
    | none => pure base.attributes
  return { base with toQueue := { read with
    contentType := base.contentType
    tags := ifPresent document "tags" read.tags base.tags
    defaultMessageAttributes
    attributes } }

/-! ## Entities that are restored -/

/-- The message is read into the other one as it is, but for its object id. -/
def Message.Restores (base message : Message) : Prop :=
  ∃ read, base.fromDocumentInto message.toDocument = .ok read ∧
    read = { message with oid := read.oid }

/-- The queue is read into the other one as it is, but for its object id. -/
def WholeQueue.Restores (base queue : WholeQueue) : Prop :=
  ∃ read, base.fromDocumentInto queue.toDocument = .ok read ∧ read = { queue with oid := read.oid }

/-- The retries have 32 bits, and the times are after the epoch or the minimum. -/
structure Message.Fits (message : Message) : Prop where
  retries : Fits32 message.retries
  reset : 0 < message.reset ∨ message.reset = timePointMin
  created : 0 < message.created ∨ message.created = timePointMin
  modified : 0 < message.modified ∨ message.modified = timePointMin

structure QueueAttribute.Fits (attributes : QueueAttribute) : Prop where
  delaySeconds : Fits32 attributes.delaySeconds
  maxMessageSize : Fits32 attributes.maxMessageSize
  messageRetentionPeriod : Fits32 attributes.messageRetentionPeriod
  receiveMessageWaitTime : Fits32 attributes.receiveMessageWaitTime
  visibilityTimeout : Fits32 attributes.visibilityTimeout
  maxReceiveCount : Fits32 attributes.redrivePolicy.maxReceiveCount

/-- The attributes fit, and the other queue has nothing that is left there. -/
structure WholeQueue.Fits (base queue : WholeQueue) : Prop where
  attributes : queue.attributes.Fits
  contentType : base.contentType = queue.contentType
  defaultMessageAttributes : ∀ key ∈ base.defaultMessageAttributes,
    key ∈ queue.defaultMessageAttributes
  paginationToken : base.paginationToken = queue.paginationToken
  score : base.score = queue.score

/-! ## Object ids -/

section ObjectIds

variable (oid : String) (document : Document)

theorem get?_withOid {name : String} (hname : "_id" ≠ name) :
    Document.get? name (("_id", .scalar (.objectId oid)) :: document) = document.get? name := by
  rw [Document.get?_cons, if_neg hname]

theorem Message.fromDocument_withOid :
    fromDocument (("_id", .scalar (.objectId oid)) :: document) =
      (fun read => { read with oid }) <$> fromDocument document := by
  have hread : readDocument (("_id", .scalar (.objectId oid)) :: document) =
      (fun read => { read with oid }) <$> readDocument document := by
    rw [readDocument, readDocument]
    simp (disch := decide) only [getIntValue, getLongValue, getStringValue, getDatetime,
      readMessageAttributesField, readStringMapField, get?_withOid, map_bind, map_pure]
    rfl
  rw [fromDocument, fromDocument, hread]
  cases readDocument document <;> rfl

theorem Queue.fromDocument_withOid :
    fromDocument (("_id", .scalar (.objectId oid)) :: document) =
      (fun read => { read with oid }) <$> fromDocument document := by
  have hread : readDocument (("_id", .scalar (.objectId oid)) :: document) =
      (fun read => { read with oid }) <$> readDocument document := by
    rw [readDocument, readDocument]
    simp (disch := decide) only [getLongValue, getStringValue, getDateValue,
      readMessageAttributesField, readStringMapField, get?_withOid, map_bind]
    cases document.get? "attributes" <;> simp only [map_bind, map_pure] <;> rfl
  rw [fromDocument, fromDocument, hread]
  cases readDocument document <;> rfl

end ObjectIds

/-! ## Messages -/

section Messages

theorem Message.settledTime_eq_iff {time : Time} :
    settledTime time = time ↔ 0 < time ∨ time = timePointMin := by
  rw [settledTime]
  split
  next hpositive => exact iff_of_true rfl (Or.inl hpositive)
  next hpositive => exact ⟨fun heq => Or.inr heq.symm, fun hor => (hor.resolve_left hpositive).symm⟩

theorem Message.fromDocument_toDocument (message : Message) :
    ∃ oid, fromDocument message.toDocument = .ok { message.settled.reread with oid } := by
  have hread := (storedAs_settled message message.oid).fromDocument_eq
  rw [fromDocument_withOid] at hread
  cases hliteral : fromDocument message.toDocument with
  | error exn =>
    rw [hliteral] at hread
    cases hread
  | ok read =>
    rw [hliteral] at hread
    have hsettled : { read with oid := message.oid } = message.settled.reread :=
      Except.ok.inj hread
    exact ⟨read.oid, by rw [← hsettled]⟩

theorem Message.restores_iff (base message : Message) : base.Restores message ↔ message.Fits := by
  obtain ⟨oid, hliteral⟩ := fromDocument_toDocument message
  have hread : base.fromDocumentInto message.toDocument =
      .ok { message.settled.reread with oid } := by
    rw [fromDocumentInto, hliteral]
    rfl
  have hiff : base.Restores message ↔ message.settled.reread = message := by
    constructor
    · rintro ⟨read, hother, heq⟩
      rw [hread] at hother
      cases hother
      exact congrArg (fun read => { read with oid := message.oid }) heq
    · exact fun heq => ⟨_, hread, by rw [heq]⟩
  rw [hiff]
  constructor
  · intro heq
    exact {
      retries := toInt32_eq_iff.mp (congrArg (·.retries) heq)
      reset := settledTime_eq_iff.mp (congrArg (·.reset) heq)
      created := settledTime_eq_iff.mp (congrArg (·.created) heq)
      modified := settledTime_eq_iff.mp (congrArg (·.modified) heq) }
  · rintro ⟨hretries, hreset, hcreated, hmodified⟩
    rw [reread, settled, toInt32_eq_iff.mpr hretries, settledTime_eq_iff.mpr hreset,
      settledTime_eq_iff.mpr hcreated, settledTime_eq_iff.mpr hmodified]

end Messages

/-! ## Queues -/

section Queues

theorem assignMessageAttributes_document (base map : StringMap MessageAttribute) :
    assignMessageAttributes base (messageAttributesDocument map) =
      .ok (StringMap.assignAll base map) := by
  refine Eq.trans List.foldlM_map (foldlM_ok (fun acc entry hentry => ?_) base)
  simp only [messageAttributesDocument,
    get?_toList_map (fun value : MessageAttribute => .document value.toDocument) hentry,
    getDocument, bind, Except.bind, MessageAttribute.fromDocument_toDocument]
  rfl

theorem Queue.fromDocument_toDocument (queue : Queue) :
    ∃ oid, fromDocument queue.toDocument = .ok { queue.reread with oid } := by
  have hread := (storedAs_toDocument queue queue.oid).fromDocument_eq
  rw [fromDocument_withOid] at hread
  cases hliteral : fromDocument queue.toDocument with
  | error exn =>
    rw [hliteral] at hread
    cases hread
  | ok read =>
    rw [hliteral] at hread
    have hreread : { read with oid := queue.oid } = queue.reread := Except.ok.inj hread
    exact ⟨read.oid, by rw [← hreread]⟩

theorem QueueAttribute.reread_eq_iff {attributes : QueueAttribute} :
    attributes.reread = attributes ↔ attributes.Fits := by
  constructor
  · intro heq
    have hpolicy := congrArg (·.redrivePolicy) heq
    exact {
      delaySeconds := toInt32_eq_iff.mp (congrArg (·.delaySeconds) heq)
      maxMessageSize := toInt32_eq_iff.mp (congrArg (·.maxMessageSize) heq)
      messageRetentionPeriod := toInt32_eq_iff.mp (congrArg (·.messageRetentionPeriod) heq)
      receiveMessageWaitTime := toInt32_eq_iff.mp (congrArg (·.receiveMessageWaitTime) heq)
      visibilityTimeout := toInt32_eq_iff.mp (congrArg (·.visibilityTimeout) heq)
      maxReceiveCount := toInt32_eq_iff.mp (congrArg (·.maxReceiveCount) hpolicy) }
  · rintro ⟨hdelay, hsize, hperiod, hwait, htimeout, hcount⟩
    rw [reread, toInt32_eq_iff.mpr hdelay, toInt32_eq_iff.mpr hsize, toInt32_eq_iff.mpr hperiod,
      toInt32_eq_iff.mpr hwait, toInt32_eq_iff.mpr htimeout, toInt32_eq_iff.mpr hcount]

def WholeQueue.filled (base queue : WholeQueue) : WholeQueue :=
  { base with toQueue := { queue with
    attributes := queue.attributes.reread
    contentType := base.contentType
    defaultMessageAttributes :=
      StringMap.assignAll base.defaultMessageAttributes queue.defaultMessageAttributes } }

theorem WholeQueue.fromDocumentInto_toDocument (base queue : WholeQueue) :
    ∃ oid, base.fromDocumentInto queue.toDocument = .ok { base.filled queue with oid } := by
  obtain ⟨oid, hliteral⟩ := Queue.fromDocument_toDocument queue.toQueue
  obtain ⟨-, -, -, -, -, -, hattributes, htags, hdefaults, -⟩ :=
    Queue.storedAs_toDocument queue.toQueue queue.oid
  rw [get?_withOid _ _ (by decide)] at hattributes htags hdefaults
  have hinto : base.attributes.fromDocumentInto queue.attributes.toDocument =
      .ok queue.attributes.reread := by
    rw [QueueAttribute.fromDocumentInto, QueueAttribute.fromDocument_toDocument]
    rfl
  refine ⟨oid, ?_⟩
  rw [fromDocumentInto, hliteral]
  simp only [hattributes, hdefaults, htags, getDocument, bind, Except.bind, ifPresent,
    assignMessageAttributes_document, hinto]
  rfl

theorem WholeQueue.restores_iff (base queue : WholeQueue) :
    base.Restores queue ↔ base.Fits queue := by
  obtain ⟨oid, hread⟩ := fromDocumentInto_toDocument base queue
  have hiff : base.Restores queue ↔ base.filled queue = queue := by
    constructor
    · rintro ⟨read, hother, heq⟩
      rw [hread] at hother
      cases hother
      exact congrArg (fun read => { read with oid := queue.oid }) heq
    · exact fun heq => ⟨_, hread, by rw [heq]⟩
  rw [hiff]
  constructor
  · intro heq
    exact {
      attributes := QueueAttribute.reread_eq_iff.mp (congrArg (·.attributes) heq)
      contentType := congrArg (·.contentType) heq
      defaultMessageAttributes :=
        StringMap.assignAll_eq_iff.mp (congrArg (·.defaultMessageAttributes) heq)
      paginationToken := congrArg (·.paginationToken) heq
      score := congrArg (·.score) heq }
  · rintro ⟨hattributes, htype, hdefaults, htoken, hscore⟩
    rw [filled, QueueAttribute.reread_eq_iff.mpr hattributes, htype, htoken, hscore,
      StringMap.assignAll_eq_iff.mpr hdefaults]

end Queues

end AwsMock.Sqs
