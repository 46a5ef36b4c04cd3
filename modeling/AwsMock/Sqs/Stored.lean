import AwsMock.Foundation.Collection
import AwsMock.Sqs.Documents

/-! # Documents that hold a message or a queue

`StoredAs` relates an entity to the documents that stand for it: the document
its `ToDocument` writes, with an `_id`, and whatever updates of the same fields
make of it. Reading such a document gives the entity back.
-/

namespace AwsMock.Sqs

open Foundation BsonUtils MongoUtils

theorem foldlM_ok {α β ε : Type} {step : β → α → Except ε β} {next : β → α → β} {xs : List α}
    (hstep : ∀ acc, ∀ x ∈ xs, step acc x = .ok (next acc x)) (acc : β) :
    xs.foldlM step acc = .ok (xs.foldl next acc) := by
  induction xs generalizing acc with
  | nil => rfl
  | cons x xs ih =>
    rw [List.foldlM_cons, hstep acc x List.mem_cons_self]
    exact ih (fun acc y hy => hstep acc y (List.mem_cons_of_mem _ hy)) _

theorem mapM_getString (texts : List String) :
    (texts.map fun text => Value.scalar (.string text)).mapM
      (fun element => getString (some element)) = .ok texts := by
  induction texts with
  | nil => rfl
  | cons text texts ih =>
    rw [List.map_cons, List.mapM_cons, ih]
    rfl

theorem MessageAttribute.fromDocument_toDocument (messageAttribute : MessageAttribute) :
    fromDocument messageAttribute.toDocument = .ok messageAttribute := by
  obtain ⟨stringValue, stringListValues, binaryValue, dataType⟩ := messageAttribute
  have htype : MessageAttributeType.fromString dataType.toString = dataType :=
    MessageAttributeType.fromString_toString dataType
  by_cases hlist : stringListValues = [] <;> by_cases hbinary : binaryValue = [] <;>
    simp [fromDocument, readDocument, toDocument, hlist, hbinary, Document.get?_cons,
      getStringValue, getArray, getBinary, mapM_getString, htype, Except.mapError, pure,
      Except.pure, bind, Except.bind, -List.mapM_map]

theorem get?_toList_map {α : Type} {map : StringMap α} (toValue : α → Value) {entry : String × α}
    (hentry : entry ∈ map.toList) :
    Document.get? entry.1 (map.toList.map fun entry => (entry.1, toValue entry.2)) =
      some (toValue entry.2) := by
  have hnodup : ((map.toList.map fun entry => (entry.1, toValue entry.2)).map Prod.fst).Nodup := by
    rw [List.map_map]
    exact StringMap.nodup_keys_toList
  exact Document.get?_of_mem hnodup (List.mem_map.mpr ⟨entry, hentry, rfl⟩)

theorem readStringMap_stringMapDocument (map : StringMap String) :
    readStringMap (stringMapDocument map) = .ok map := by
  have hfold : readStringMap (stringMapDocument map) =
      .ok (map.toList.foldl (fun result entry => result.insertIfNew entry.1 entry.2) ∅) := by
    refine Eq.trans List.foldlM_map (foldlM_ok (fun acc entry hentry => ?_) ∅)
    simp only [stringMapDocument, get?_toList_map (fun text => .scalar (.string text)) hentry]
    rfl
  rw [hfold, StringMap.foldl_insertIfNew_toList]

theorem readMessageAttributes_messageAttributesDocument (map : StringMap MessageAttribute) :
    readMessageAttributes (messageAttributesDocument map) = .ok map := by
  have hfold : readMessageAttributes (messageAttributesDocument map) =
      .ok (map.toList.foldl (fun result entry => result.insert entry.1 entry.2) ∅) := by
    refine Eq.trans List.foldlM_map (foldlM_ok (fun acc entry _ => ?_) ∅)
    simp only [getDocument, bind, Except.bind, MessageAttribute.fromDocument_toDocument]
    rfl
  rw [hfold, StringMap.foldl_insert_toList]

variable {name : String}

theorem readStringMapField_eq {document : Document} {map : StringMap String}
    (hfield : document.get? name = some (.document (stringMapDocument map))) :
    readStringMapField document name = .ok map := by
  rw [readStringMapField, hfield]
  exact readStringMap_stringMapDocument map

theorem readMessageAttributesField_eq {document : Document}
    {map : StringMap MessageAttribute}
    (hfield : document.get? name = some (.document (messageAttributesDocument map))) :
    readMessageAttributesField document name = .ok map := by
  rw [readMessageAttributesField, hfield]
  exact readMessageAttributes_messageAttributesDocument map

/-- Whether a field holds a time: a date, or the null that reads as the minimum. -/
def StoresTime (field : Option Value) (time : Time) : Prop :=
  field = some (.scalar (.date time)) ∨ field = some (.scalar .null) ∧ time = timePointMin

theorem storesTime_date (time : Time) : StoresTime (some (.scalar (.date time))) time :=
  Or.inl rfl

/-- A time written by `SetDatetime` is stored when it is after the epoch or the minimum. -/
theorem storesTime_datetimeValue {time : Time} (htime : 0 < time ∨ time = timePointMin) :
    StoresTime (some (datetimeValue time)) time := by
  rcases htime with hpositive | rfl
  · rw [datetimeValue, if_pos hpositive]
    exact Or.inl rfl
  · exact Or.inr ⟨rfl, rfl⟩

theorem StoresTime.getDatetime_eq {document : Document} {time : Time}
    (hstores : StoresTime (document.get? name) time) : getDatetime document name = .ok time := by
  rcases hstores with hdate | ⟨hnull, rfl⟩
  · rw [getDatetime, hdate]
  · rw [getDatetime, hnull]

theorem StoresTime.unique {field : Option Value} {left right : Time}
    (hleft : StoresTime field left) (hright : StoresTime field right) : left = right := by
  rcases hleft with hdate | ⟨hnull, hmin⟩
  · rcases hright with hother | ⟨hother, -⟩
    · have hsame := hdate.symm.trans hother
      injection hsame with hsame
      injection hsame with hsame
      injection hsame
    · rw [hdate] at hother
      cases hother
  · rcases hright with hother | ⟨-, hother⟩
    · rw [hnull] at hother
      cases hother
    · rw [hmin, hother]

def StoresInteger (field : Option Value) (value : Int) : Prop :=
  field = some (.scalar (.int64 value)) ∨ FitsInt32 value ∧ field = some (.scalar (.int32 value))

theorem StoresInteger.getIntValue_eq {document : Document} {value : Int}
    (hstores : StoresInteger (document.get? name) value) :
    getIntValue document name = .ok (toInt32 value) := by
  rcases hstores with hlong | ⟨hfits, hint⟩
  · rw [getIntValue, hlong]
  · rw [getIntValue, hint, toInt32_of_fits hfits.1 hfits.2]

theorem StoresInteger.unique {field : Option Value} {left right : Int}
    (hleft : StoresInteger field left) (hright : StoresInteger field right) : left = right := by
  rcases hleft with hlong | ⟨-, hint⟩
  · rcases hright with hother | ⟨-, hother⟩
    · rw [hlong] at hother
      injection hother with hother
      injection hother with hother
      injection hother
    · rw [hlong] at hother
      cases hother
  · rcases hright with hother | ⟨-, hother⟩
    · rw [hint] at hother
      cases hother
    · rw [hint] at hother
      injection hother with hother
      injection hother with hother
      injection hother

/-- The documents that stand for a message. Messages have no field `arn`. -/
structure Message.StoredAs (message : Message) (document : Document) : Prop where
  oid : document.get? "_id" = some (.scalar (.objectId message.oid))
  queueArn : document.get? "queueArn" = some (.scalar (.string message.queueArn))
  queueName : document.get? "queueName" = some (.scalar (.string message.queueName))
  body : document.get? "body" = some (.scalar (.string message.body))
  type : document.get? "type" = some (.scalar (.string message.type))
  status : document.get? "status" = some (.scalar (.string message.status.toString))
  retries : StoresInteger (document.get? "retries") message.retries
  size : document.get? "size" = some (.scalar (.int64 message.size))
  messageId : document.get? "messageId" = some (.scalar (.string message.messageId))
  receiptHandle : document.get? "receiptHandle" = some (.scalar (.string message.receiptHandle))
  md5Body : document.get? "md5Body" = some (.scalar (.string message.md5Body))
  md5MessageAttributes : document.get? "md5MessageAttributes" =
    some (.scalar (.string message.md5MessageAttributes))
  md5MessageSystemAttributes : document.get? "md5MessageSystemAttributes" =
    some (.scalar (.string message.md5MessageSystemAttributes))
  contentType : document.get? "contentType" = some (.scalar (.string message.contentType))
  attributes : document.get? "attributes" = some (.document (stringMapDocument message.attributes))
  messageAttributes : document.get? "messageAttributes" =
    some (.document (messageAttributesDocument message.messageAttributes))
  reset : StoresTime (document.get? "reset") message.reset
  created : StoresTime (document.get? "created") message.created
  modified : StoresTime (document.get? "modified") message.modified
  arn : document.get? "arn" = none

namespace Message

variable {message : Message} {document : Document}

/-- What is read back of a message: retries are narrowed to 32 bits. -/
def reread (message : Message) : Message := { message with retries := toInt32 message.retries }

theorem StoredAs.fromDocument_eq (hstored : message.StoredAs document) :
    fromDocument document = .ok message.reread := by
  simp only [fromDocument, readDocument, hstored.retries.getIntValue_eq,
    hstored.reset.getDatetime_eq, hstored.created.getDatetime_eq, hstored.modified.getDatetime_eq,
    getLongValue, getOidValue, getStringValue, hstored.oid, hstored.queueArn, hstored.queueName,
    hstored.body, hstored.type, hstored.status, hstored.size, hstored.messageId,
    hstored.receiptHandle, hstored.md5Body, hstored.md5MessageAttributes,
    hstored.md5MessageSystemAttributes, hstored.contentType,
    readStringMapField_eq hstored.attributes,
    readMessageAttributesField_eq hstored.messageAttributes, MessageStatus.fromString_toString,
    bind, Except.bind, pure, Except.pure, Except.mapError, reread]

theorem StoredAs.unique {first second : Message} (hfirst : first.StoredAs document)
    (hsecond : second.StoredAs document) : first = second := by
  have hsame : first.reread = second.reread := by
    have hread := hfirst.fromDocument_eq.symm.trans hsecond.fromDocument_eq
    injection hread
  have hretries : first.retries = second.retries := hfirst.retries.unique hsecond.retries
  calc first = { first.reread with retries := first.retries } := rfl
    _ = { second.reread with retries := second.retries } := by rw [hsame, hretries]
    _ = second := rfl

section

variable (hstored : message.StoredAs document)
include hstored

theorem StoredAs.setStatus (status : MessageStatus) :
    StoredAs { message with status }
      (document.set "status" (.scalar (.string status.toString))) := by
  obtain ⟨⟩ := hstored
  constructor <;> simp [Document.get?_set, *]

theorem StoredAs.setQueueArn (queueArn : String) :
    StoredAs { message with queueArn } (document.set "queueArn" (.scalar (.string queueArn))) := by
  obtain ⟨⟩ := hstored
  constructor <;> simp [Document.get?_set, *]

theorem StoredAs.setReceiptHandle (receiptHandle : String) :
    StoredAs { message with receiptHandle }
      (document.set "receiptHandle" (.scalar (.string receiptHandle))) := by
  obtain ⟨⟩ := hstored
  constructor <;> simp [Document.get?_set, *]

theorem StoredAs.setReset (reset : Time) :
    StoredAs { message with reset } (document.set "reset" (.scalar (.date reset))) := by
  obtain ⟨⟩ := hstored
  constructor <;> simp [Document.get?_set, storesTime_date, *]

theorem StoredAs.setRetries {retries : Int}
    {value : Value} (hvalue : StoresInteger (some value) retries) :
    StoredAs { message with retries } (document.set "retries" value) := by
  obtain ⟨⟩ := hstored
  constructor <;> simp [Document.get?_set, *]

theorem StoredAs.setExtra (name : String) (value : Value)
    (hextra : Document.get? name (("_id", value) :: message.toDocument) = none)
    (hname : name ≠ "arn") : message.StoredAs (document.set name value) := by
  have hne : ∀ other, Document.get? other (("_id", value) :: message.toDocument) ≠ none →
      Document.get? other (document.set name value) = Document.get? other document := by
    intro other hother
    rw [Document.get?_set, if_neg]
    rintro rfl
    exact hother hextra
  have harn : Document.get? "arn" (document.set name value) = none := by
    rw [Document.get?_set, if_neg hname]
    exact hstored.arn
  obtain ⟨⟩ := hstored
  constructor
  case arn => exact harn
  all_goals
    rw [hne _ (by simp [toDocument, Document.get?_cons])]
    assumption

end

theorem storedAs_toDocument (message : Message) (oid : String)
    (hreset : 0 < message.reset ∨ message.reset = timePointMin)
    (hcreated : 0 < message.created ∨ message.created = timePointMin)
    (hmodified : 0 < message.modified ∨ message.modified = timePointMin) :
    StoredAs { message with oid } (("_id", .scalar (.objectId oid)) :: message.toDocument) := by
  have hretries : StoresInteger (some (.scalar (.int64 message.retries))) message.retries :=
    Or.inl rfl
  constructor <;>
    simp [toDocument, Document.get?_cons, storesTime_datetimeValue, *]

/-- A time as it is read back: times up to the epoch are written as null. -/
def settledTime (time : Time) : Time := if 0 < time then time else timePointMin

theorem settledTime_spec (time : Time) : 0 < settledTime time ∨ settledTime time = timePointMin := by
  rw [settledTime]
  split
  next hpositive => exact Or.inl hpositive
  next => exact Or.inr rfl

theorem datetimeValue_settledTime (time : Time) :
    datetimeValue (settledTime time) = datetimeValue time := by
  by_cases hpositive : 0 < time
  · rw [settledTime, if_pos hpositive]
  · rw [settledTime, if_neg hpositive, datetimeValue, datetimeValue, if_neg hpositive]
    exact if_neg (by decide)

def settled (message : Message) : Message :=
  { message with
    reset := settledTime message.reset
    created := settledTime message.created
    modified := settledTime message.modified }

theorem storedAs_settled (message : Message) (oid : String) :
    StoredAs { message.settled with oid } (("_id", .scalar (.objectId oid)) :: message.toDocument) := by
  have hdocument : message.toDocument = message.settled.toDocument := by
    simp only [toDocument, settled, datetimeValue_settledTime]
  rw [hdocument]
  exact storedAs_toDocument message.settled oid (settledTime_spec _) (settledTime_spec _)
    (settledTime_spec _)

end Message

/-- Whether a field holds a string that is left out when it is empty. -/
def StoresText (field : Option Value) (text : String) : Prop :=
  field = if text = "" then none else some (.scalar (.string text))

theorem StoresText.getStringValue_eq {document : Document} {name text : String}
    (hstores : StoresText (document.get? name) text) : getStringValue document name = text := by
  rw [getStringValue, hstores]
  by_cases htext : text = ""
  · rw [if_pos htext, htext]
  · rw [if_neg htext]

structure Queue.StoredAs (queue : Queue) (document : Document) : Prop where
  oid : document.get? "_id" = some (.scalar (.objectId queue.oid))
  region : StoresText (document.get? "region") queue.region
  owner : StoresText (document.get? "owner") queue.owner
  name : StoresText (document.get? "name") queue.name
  url : StoresText (document.get? "url") queue.url
  arn : StoresText (document.get? "arn") queue.arn
  attributes : document.get? "attributes" = some (.document queue.attributes.toDocument)
  tags : document.get? "tags" = some (.document (stringMapDocument queue.tags))
  defaultMessageAttributes : document.get? "defaultMessageAttributes" =
    some (.document (messageAttributesDocument queue.defaultMessageAttributes))
  size : document.get? "size" = some (.scalar (.int64 queue.size))
  created : document.get? "created" = some (.scalar (.date queue.created))
  modified : document.get? "modified" = some (.scalar (.date queue.modified))

/-- What is read back of queue attributes: most numbers are narrowed to 32 bits. -/
def QueueAttribute.reread (attributes : QueueAttribute) : QueueAttribute :=
  { attributes with
    delaySeconds := toInt32 attributes.delaySeconds
    maxMessageSize := toInt32 attributes.maxMessageSize
    messageRetentionPeriod := toInt32 attributes.messageRetentionPeriod
    receiveMessageWaitTime := toInt32 attributes.receiveMessageWaitTime
    visibilityTimeout := toInt32 attributes.visibilityTimeout
    redrivePolicy := { attributes.redrivePolicy with
      maxReceiveCount := toInt32 attributes.redrivePolicy.maxReceiveCount } }

theorem RedrivePolicy.fromDocument_toDocument (policy : RedrivePolicy) :
    fromDocument policy.toDocument =
      .ok { policy with maxReceiveCount := toInt32 policy.maxReceiveCount } := by
  by_cases harn : policy.deadLetterTargetArn = "" <;>
    simp [fromDocument, toDocument, setStringValue, setLongValue, getIntValue, getStringValue,
      Document.get?_cons, harn, bind, Except.bind, pure, Except.pure]

theorem QueueAttribute.fromDocument_toDocument (attributes : QueueAttribute) :
    fromDocument attributes.toDocument = .ok attributes.reread := by
  simp [fromDocument, readDocument, toDocument, reread, getIntValue, getLongValue,
    getStringValue, getDocument, Document.get?_cons, RedrivePolicy.fromDocument_toDocument,
    bind, Except.bind, pure, Except.pure, Except.mapError]

namespace Queue

variable {queue : Queue} {document : Document}

/-- What is read back of a queue. The content type is not read. -/
def reread (queue : Queue) : Queue :=
  { queue with attributes := queue.attributes.reread, contentType := "" }

theorem StoredAs.fromDocument_eq (hstored : queue.StoredAs document) :
    fromDocument document = .ok queue.reread := by
  simp only [fromDocument, readDocument, reread, getOidValue, hstored.oid,
    hstored.region.getStringValue_eq, hstored.owner.getStringValue_eq,
    hstored.name.getStringValue_eq, hstored.url.getStringValue_eq,
    hstored.arn.getStringValue_eq, hstored.attributes, readStringMapField_eq hstored.tags,
    readMessageAttributesField_eq hstored.defaultMessageAttributes, getLongValue, hstored.size,
    getDateValue, hstored.created, hstored.modified, getDocument,
    QueueAttribute.fromDocument_toDocument,
    bind, Except.bind, pure, Except.pure, Except.mapError]

theorem storedAs_toDocument (queue : Queue) (oid : String) :
    StoredAs { queue with oid } (("_id", .scalar (.objectId oid)) :: queue.toDocument) := by
  constructor <;>
    simp [toDocument, StoresText, Document.get?_cons, get?_setStringValue, get?_setLongValue,
      get?_setDateValue, get?_setDocumentValue]

end Queue

end AwsMock.Sqs
