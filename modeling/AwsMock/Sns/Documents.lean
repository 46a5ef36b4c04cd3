import AwsMock.Core.Fields

/-! # Topics and messages as documents

`ToDocument` and `FromDocument` of the entities of the notification service. The decoder of a
topic adds tags and default attributes to those that are there, and the decoder of a message
looks for the attributes under another name than the encoder writes them.
-/

namespace AwsMock.Sns.Entity

open Foundation BsonUtils MongoUtils

inductive MessageAttributeType where
  | string | number | binary
deriving DecidableEq, Repr

namespace MessageAttributeType

def toString : MessageAttributeType → String
  | .string => "String"
  | .number => "Number"
  | .binary => "Binary"

def fromString (messageAttributeType : String) : MessageAttributeType :=
  if messageAttributeType = "String" then .string
  else if messageAttributeType = "Number" then .number
  else if messageAttributeType = "Binary" then .binary
  else .string

theorem fromString_toString (dataType : MessageAttributeType) :
    fromString dataType.toString = dataType := by
  cases dataType <;> decide

end MessageAttributeType

inductive MessageStatus where
  | initial | send | resend
deriving DecidableEq, Repr

namespace MessageStatus

def toString : MessageStatus → String
  | .initial => "INITIAL"
  | .send => "SEND"
  | .resend => "RESEND"

def fromString (s : String) : MessageStatus :=
  if s = "INITIAL" then .initial
  else if s = "SEND" then .send
  else if s = "RESEND" then .resend
  else .initial

theorem fromString_toString (status : MessageStatus) : fromString status.toString = status := by
  cases status <;> decide

end MessageStatus

structure MessageAttribute where
  stringValue : String := ""
  stringListValues : List String := []
  binaryValue : List UInt8 := []
  binaryListValues : List (List UInt8) := []
  dataType : MessageAttributeType := .string

structure Subscription where
  protocol : String := ""
  endpoint : String := ""
  subscriptionArn : String := ""

structure TopicAttribute where
  deliveryPolicy : String := ""
  displayName : String := ""
  fifoTopic : Bool := false
  policy : String := ""
  signatureVersion : String := ""
  tracingConfig : String := ""
  kmsMasterKeyId : String := ""
  archivePolicy : String := ""
  beginningArchiveTime : Time := 0
  contentBasedDeduplication : Bool := false
  availableMessages : Int := 0

structure Topic where
  oid : String := ""
  region : String := ""
  topicName : String := ""
  owner : String := ""
  topicUrl : String := ""
  topicArn : String := ""
  targetArn : String := ""
  subscriptions : List Subscription := []
  topicAttribute : TopicAttribute := {}
  tags : StringMap String := ∅
  defaultMessageAttributes : StringMap MessageAttribute := ∅
  size : Int := 0
  messages : Int := 0
  messagesSend : Int := 0
  messagesResend : Int := 0
  created : Time := 0
  modified : Time := 0

structure Message where
  oid : String := ""
  region : String := ""
  topicArn : String := ""
  targetArn : String := ""
  message : String := ""
  messageId : String := ""
  status : MessageStatus := .initial
  messageAttributes : StringMap MessageAttribute := ∅
  contentType : String := ""
  size : Int := 0
  lastSend : Time := 0
  created : Time := 0
  modified : Time := 0

/-! ## Attributes of a message -/

namespace MessageAttribute

def toDocument (messageAttribute : MessageAttribute) : Document :=
  Document.ofFields [("stringValue", some (.scalar (.string messageAttribute.stringValue))),
      ("dataType", some (.scalar (.string messageAttribute.dataType.toString))),
      ("stringListValues",
        if messageAttribute.stringListValues = [] then none
        else some (.array (stringValues messageAttribute.stringListValues))),
      ("binaryValue",
        if messageAttribute.binaryValue = [] then none
        else some (.binary messageAttribute.binaryValue))]

def fromDocument (messageAttribute : MessageAttribute) (object : Document) :
    Except CoreException MessageAttribute := do
  let stringListValues ← readIfFound object "stringListValues" messageAttribute.stringListValues
    (readArrayField getString messageAttribute.stringListValues)
  let binaryValue ← readIfFound object "binaryValue" messageAttribute.binaryValue getBinary
  return { messageAttribute with
    stringValue := getStringValue object "stringValue"
    dataType := .fromString (getStringValue object "dataType")
    stringListValues
    binaryValue }

def persisted (messageAttribute : MessageAttribute) : MessageAttribute :=
  { messageAttribute with binaryListValues := [] }

theorem fromDocument_toDocument (messageAttribute : MessageAttribute) :
    fromDocument {} messageAttribute.toDocument = .ok messageAttribute.persisted := by
  have hlist : readIfFound messageAttribute.toDocument "stringListValues" []
      (readArrayField getString []) = .ok messageAttribute.stringListValues := by
    have hfield : messageAttribute.toDocument.get? "stringListValues" =
        if messageAttribute.stringListValues = [] then none
        else some (.array (stringValues messageAttribute.stringListValues)) :=
      Document.get?_ofFields (by simp) 2 rfl
    split at hfield
    next hempty => rw [readIfFound_of_none hfield, hempty]
    next =>
      rw [readIfFound_of_some hfield, readArrayField_array, readElements_stringValues,
        List.nil_append]
  have hbinary : readIfFound messageAttribute.toDocument "binaryValue" [] getBinary =
      .ok messageAttribute.binaryValue := by
    have hfield : messageAttribute.toDocument.get? "binaryValue" =
        if messageAttribute.binaryValue = [] then none
        else some (.binary messageAttribute.binaryValue) :=
      Document.get?_ofFields (by simp) 3 rfl
    split at hfield
    next hempty => rw [readIfFound_of_none hfield, hempty]
    next =>
      rw [readIfFound_of_some hfield]
      rfl
  have hstring : getStringValue messageAttribute.toDocument "stringValue" =
      messageAttribute.stringValue :=
    getStringValue_of_string (Document.get?_ofFields (by simp) 0 rfl)
  have htype : getStringValue messageAttribute.toDocument "dataType" =
      messageAttribute.dataType.toString :=
    getStringValue_of_string (Document.get?_ofFields (by simp) 1 rfl)
  rw [fromDocument, hlist, ok_bind, hbinary, ok_bind, hstring, htype,
    MessageAttributeType.fromString_toString]
  rfl

theorem persisted_eq_iff {messageAttribute : MessageAttribute} :
    messageAttribute.persisted = messageAttribute ↔ messageAttribute.binaryListValues = [] := by
  obtain ⟨stringValue, strings, binaryValue, binaries, dataType⟩ := messageAttribute
  simp [persisted, eq_comm]

end MessageAttribute

/-! ## Topics -/

namespace Subscription

def toDocument (subscription : Subscription) : Document :=
  [("protocol", .scalar (.string subscription.protocol)),
    ("endpoint", .scalar (.string subscription.endpoint)),
    ("subscriptionArn", .scalar (.string subscription.subscriptionArn))]

/-- The fields of an element of the array, which all have to be there. -/
def read (subscriptionElement : Document) : Except CoreException Subscription := do
  let protocol ← getString (subscriptionElement.get? "protocol")
  let endpoint ← getString (subscriptionElement.get? "endpoint")
  let subscriptionArn ← getString (subscriptionElement.get? "subscriptionArn")
  return { protocol, endpoint, subscriptionArn }

theorem read_toDocument (subscription : Subscription) :
    read subscription.toDocument = .ok subscription := by
  simp [read, toDocument, Document.get?_cons, getString]
  rfl

end Subscription

namespace TopicAttribute

def toDocument (topicAttribute : TopicAttribute) : Document :=
  [("deliveryPolicy", .scalar (.string topicAttribute.deliveryPolicy)),
    ("displayName", .scalar (.string topicAttribute.displayName)),
    ("fifoTopic", .scalar (.bool topicAttribute.fifoTopic)),
    ("policy", .scalar (.string topicAttribute.policy)),
    ("signatureVersion", .scalar (.string topicAttribute.signatureVersion)),
    ("tracingConfig", .scalar (.string topicAttribute.tracingConfig)),
    ("kmsMasterKeyId", .scalar (.string topicAttribute.kmsMasterKeyId)),
    ("archivePolicy", .scalar (.string topicAttribute.archivePolicy)),
    ("beginningArchiveTime", .scalar (.date topicAttribute.beginningArchiveTime)),
    ("contentBasedDeduplication", .scalar (.bool topicAttribute.contentBasedDeduplication)),
    ("availableMessages", .scalar (.int64 topicAttribute.availableMessages))]

def fromDocument (mResult : Document) : Except CoreException TopicAttribute := do
  let availableMessages ← getLongValue mResult "availableMessages"
  return {
    deliveryPolicy := getStringValue mResult "deliveryPolicy"
    displayName := getStringValue mResult "displayName"
    fifoTopic := getBoolValue mResult "fifoTopic"
    policy := getStringValue mResult "policy"
    signatureVersion := getStringValue mResult "signatureVersion"
    tracingConfig := getStringValue mResult "tracingConfig"
    kmsMasterKeyId := getStringValue mResult "kmsMasterKeyId"
    archivePolicy := getStringValue mResult "archivePolicy"
    beginningArchiveTime := getDateValue mResult "beginningArchiveTime"
    contentBasedDeduplication := getBoolValue mResult "contentBasedDeduplication"
    availableMessages }

theorem fromDocument_toDocument (topicAttribute : TopicAttribute) :
    fromDocument topicAttribute.toDocument = .ok topicAttribute := by
  have hmessages : getLongValue topicAttribute.toDocument "availableMessages" =
      .ok topicAttribute.availableMessages :=
    getLongValue_of_int64 (by simp [toDocument, Document.get?_cons])
  rw [fromDocument, hmessages, ok_bind]
  simp [toDocument, getStringValue, getBoolValue, getDateValue, Document.get?_cons]
  rfl

end TopicAttribute

namespace Topic

def toDocument (topic : Topic) : Document :=
  let topicDoc := setStringValue [] "region" topic.region
  let topicDoc := setStringValue topicDoc "topicName" topic.topicName
  let topicDoc := setStringValue topicDoc "topicArn" topic.topicArn
  let topicDoc := setStringValue topicDoc "targetArn" topic.targetArn
  let topicDoc := setLongValue topicDoc "messages" topic.messages
  let topicDoc := setLongValue topicDoc "messagesSend" topic.messagesSend
  let topicDoc := setLongValue topicDoc "messagesResend" topic.messagesResend
  let topicDoc := setLongValue topicDoc "size" topic.size
  let topicDoc := setDocumentValue topicDoc "defaultMessageAttributes"
    (mapDocument (fun messageAttribute => .document messageAttribute.toDocument)
      topic.defaultMessageAttributes)
  let topicDoc := setDateValue topicDoc "created" topic.created
  let topicDoc := setDateValue topicDoc "modified" topic.modified
  let topicDoc := appendField topicDoc "subscriptions"
    (.array (topic.subscriptions.map fun subscription => .document subscription.toDocument))
  let topicDoc := appendField topicDoc "attributes" (.document topic.topicAttribute.toDocument)
  appendField topicDoc "tags" (.document (stringsDocument topic.tags))

def readFields (topic : Topic) (mResult : Document) : Except CoreException Topic := do
  let size ← getLongValue mResult "size"
  let messages ← getLongValue mResult "messages"
  let messagesSend ← getLongValue mResult "messagesSend"
  let messagesResend ← getLongValue mResult "messagesResend"
  let topicAttribute ← readIfFound mResult "attributes" topic.topicAttribute
    (readDocumentField TopicAttribute.fromDocument)
  let subscriptions ← readIfFound mResult "subscriptions" topic.subscriptions
    (readArrayField (readDocumentField Subscription.read) [])
  let tags ← readIfFound mResult "tags" topic.tags
    (readDocumentField (readMap byKey getString Std.ExtTreeMap.insertIfNew topic.tags))
  let defaultMessageAttributes ←
    readIfFound mResult "defaultMessageAttributes" topic.defaultMessageAttributes
      (readDocumentField (readMap byKey (readDocumentField (MessageAttribute.fromDocument {}))
        Std.ExtTreeMap.insert topic.defaultMessageAttributes))
  return { topic with
    oid := getOidValue mResult "_id"
    region := getStringValue mResult "region"
    topicName := getStringValue mResult "topicName"
    owner := getStringValue mResult "owner"
    topicArn := getStringValue mResult "topicArn"
    targetArn := getStringValue mResult "targetArn"
    size
    messages
    messagesSend
    messagesResend
    created := getDateValue mResult "created"
    modified := getDateValue mResult "modified"
    topicAttribute
    subscriptions
    tags
    defaultMessageAttributes }

/-- An exception of the standard library is passed on as one of the JSON functions. -/
def fromDocument (topic : Topic) (mResult : Document) : Except CoreException Topic :=
  (readFields topic mResult).mapError fun exc => .json exc.what

/-- What decoding the document of a topic leaves in an entity. -/
def decoded (filled topic : Topic) : Topic :=
  { topic with
    oid := ""
    owner := ""
    topicUrl := filled.topicUrl
    tags := .emplaceAll filled.tags topic.tags
    defaultMessageAttributes := .assignAll filled.defaultMessageAttributes
      (topic.defaultMessageAttributes.map fun _ => MessageAttribute.persisted) }

def fields (topic : Topic) : List (String × Option Value) :=
  [("region", textField topic.region), ("topicName", textField topic.topicName),
    ("topicArn", textField topic.topicArn), ("targetArn", textField topic.targetArn),
    ("messages", some (.scalar (.int64 topic.messages))),
    ("messagesSend", some (.scalar (.int64 topic.messagesSend))),
    ("messagesResend", some (.scalar (.int64 topic.messagesResend))),
    ("size", some (.scalar (.int64 topic.size))),
    ("defaultMessageAttributes",
      some (.document (mapDocument (fun messageAttribute => .document messageAttribute.toDocument)
        topic.defaultMessageAttributes))),
    ("created", some (.scalar (.date topic.created))),
    ("modified", some (.scalar (.date topic.modified))),
    ("subscriptions",
      some (.array (topic.subscriptions.map fun subscription =>
        .document subscription.toDocument))),
    ("attributes", some (.document topic.topicAttribute.toDocument)),
    ("tags", some (.document (stringsDocument topic.tags)))]

theorem toDocument_eq (topic : Topic) : topic.toDocument = Document.ofFields topic.fields := by
  simp only [toDocument, setStringValue_eq, setLongValue_eq, setDateValue_eq, setDocumentValue_eq,
    appendField_eq, ← Document.ofFields_append, List.nil_append, List.append_assoc]
  rfl

section Reading

variable (topic : Topic)

theorem get?_toDocument {topic : Topic} {name : String} {value : Option Value} (place : Nat)
    (hfield : topic.fields[place]? = some (name, value)) : topic.toDocument.get? name = value := by
  rw [toDocument_eq]
  exact Document.get?_ofFields (by simp [fields]) place hfield

theorem get?_toDocument_of_notMem {topic : Topic} {name : String}
    (hnot : name ∉ topic.fields.map Prod.fst) : topic.toDocument.get? name = none := by
  rw [toDocument_eq]
  exact Document.get?_ofFields_of_notMem hnot

theorem readSubscriptions (subscriptions : List Subscription) :
    readElements (readDocumentField Subscription.read) []
        (subscriptions.map fun subscription => .document subscription.toDocument) =
      .ok subscriptions :=
  readElements_exact Subscription.read_toDocument [] subscriptions

theorem readAttributes (base messageAttributes : StringMap MessageAttribute) :
    readMap byKey (readDocumentField (MessageAttribute.fromDocument {})) Std.ExtTreeMap.insert base
        (mapDocument (fun messageAttribute => .document messageAttribute.toDocument)
          messageAttributes) =
      .ok (.assignAll base (messageAttributes.map fun _ => MessageAttribute.persisted)) :=
  readMap_mapDocument (fun _ hentry => byKey_mapDocument hentry)
    MessageAttribute.fromDocument_toDocument base

theorem fromDocument_toDocument (filled topic : Topic) :
    fromDocument filled topic.toDocument = .ok (decoded filled topic) := by
  have hread : readFields filled topic.toDocument = .ok (decoded filled topic) := by
    rw [readFields, getLongValue_of_int64 (get?_toDocument 7 rfl), ok_bind,
      getLongValue_of_int64 (get?_toDocument 4 rfl), ok_bind,
      getLongValue_of_int64 (get?_toDocument 5 rfl), ok_bind,
      getLongValue_of_int64 (get?_toDocument 6 rfl), ok_bind,
      readIfFound_of_some (get?_toDocument 12 rfl), readDocumentField_document,
      TopicAttribute.fromDocument_toDocument, ok_bind,
      readIfFound_of_some (get?_toDocument 11 rfl), readArrayField_array, readSubscriptions, ok_bind,
      readIfFound_of_some (get?_toDocument 13 rfl), readDocumentField_document,
      readMap_stringsDocument, ok_bind,
      readIfFound_of_some (get?_toDocument 8 rfl), readDocumentField_document, readAttributes,
      ok_bind, getOidValue_of_none (get?_toDocument_of_notMem (by simp [fields])),
      getStringValue_of_textField (get?_toDocument 0 rfl),
      getStringValue_of_textField (get?_toDocument 1 rfl),
      getStringValue_of_textField (get?_toDocument 2 rfl),
      getStringValue_of_textField (get?_toDocument 3 rfl),
      getDateValue_of_date (get?_toDocument 9 rfl), getDateValue_of_date (get?_toDocument 10 rfl),
      getStringValue_of_none (get?_toDocument_of_notMem (by simp [fields]))]
    rfl
  rw [fromDocument, hread]
  rfl

end Reading

def fresh (now : Time) : Topic := { created := now }

/-- A fresh entity is the topic again but for the object id, and an entity with content is
decoded to the same. -/
structure RoundTrips (now : Time) (filled topic : Topic) : Prop where
  restores : ∃ restored, fromDocument (fresh now) topic.toDocument = .ok restored ∧
    { restored with oid := topic.oid } = topic
  sameAsFresh : fromDocument filled topic.toDocument = fromDocument (fresh now) topic.toDocument

/-- What a topic must not have, and what an entity must not have that is not in the topic. -/
structure LosesNothing (filled topic : Topic) : Prop where
  owner : topic.owner = ""
  topicUrl : topic.topicUrl = ""
  binaryListValues : ∀ (key : String) messageAttribute,
    topic.defaultMessageAttributes[key]? = some messageAttribute →
      messageAttribute.binaryListValues = []
  filledUrl : filled.topicUrl = ""
  filledTags : ∀ (key value : String), filled.tags[key]? = some value →
    topic.tags[key]? = some value
  filledAttributes : ∀ key ∈ filled.defaultMessageAttributes, key ∈ topic.defaultMessageAttributes

variable (now : Time)

theorem decoded_fresh (topic : Topic) :
    decoded (fresh now) topic =
      { topic with
        oid := ""
        owner := ""
        topicUrl := ""
        defaultMessageAttributes :=
          topic.defaultMessageAttributes.map fun _ => MessageAttribute.persisted } := by
  rw [decoded]
  simp only [fresh, StringMap.emplaceAll_empty, StringMap.assignAll_empty]

theorem restores_iff (topic : Topic) :
    (∃ restored, fromDocument (fresh now) topic.toDocument = .ok restored ∧
      { restored with oid := topic.oid } = topic) ↔
      topic.owner = "" ∧ topic.topicUrl = "" ∧ ∀ (key : String) messageAttribute,
          topic.defaultMessageAttributes[key]? = some messageAttribute →
            messageAttribute.binaryListValues = [] := by
  have hattributes : (topic.defaultMessageAttributes.map fun _ => MessageAttribute.persisted) =
      topic.defaultMessageAttributes ↔ ∀ (key : String) messageAttribute,
        topic.defaultMessageAttributes[key]? = some messageAttribute →
          messageAttribute.binaryListValues = [] := by
    simp only [StringMap.map_eq_iff, MessageAttribute.persisted_eq_iff]
  rw [fromDocument_toDocument, decoded_fresh, ← hattributes]
  obtain ⟨_, _, _, owner, url, _, _, _, _, _, defaults⟩ := topic
  constructor
  · rintro ⟨restored, hrestored, heq⟩
    cases hrestored
    simp only [mk.injEq, true_and, and_true] at heq
    exact ⟨heq.1.symm, heq.2.1.symm, heq.2.2⟩
  · rintro ⟨howner, hurl, hdefaults⟩
    refine ⟨_, rfl, ?_⟩
    simp only [mk.injEq, true_and, and_true]
    exact ⟨howner.symm, hurl.symm, hdefaults⟩

theorem sameAsFresh_iff (filled topic : Topic) :
    fromDocument filled topic.toDocument = fromDocument (fresh now) topic.toDocument ↔
      filled.topicUrl = "" ∧
        (∀ (key value : String), filled.tags[key]? = some value → topic.tags[key]? = some value) ∧
        ∀ key ∈ filled.defaultMessageAttributes, key ∈ topic.defaultMessageAttributes := by
  rw [fromDocument_toDocument, fromDocument_toDocument, decoded_fresh, Except.ok.injEq, decoded,
    ← StringMap.emplaceAll_eq_iff]
  have hattributes := @StringMap.assignAll_eq_iff _
    (topic.defaultMessageAttributes.map fun _ => MessageAttribute.persisted)
    filled.defaultMessageAttributes
  simp only [Std.ExtTreeMap.mem_map] at hattributes
  rw [← hattributes]
  simp only [mk.injEq, true_and, and_true]

theorem roundTrips_iff_losesNothing (filled topic : Topic) :
    RoundTrips now filled topic ↔ LosesNothing filled topic := by
  constructor
  · rintro ⟨hrestores, hsame⟩
    obtain ⟨howner, hurl, hvalues⟩ := (restores_iff now topic).mp hrestores
    obtain ⟨hfilled, htags, hattributes⟩ := (sameAsFresh_iff now filled topic).mp hsame
    exact ⟨howner, hurl, hvalues, hfilled, htags, hattributes⟩
  · rintro ⟨howner, hurl, hvalues, hfilled, htags, hattributes⟩
    exact ⟨(restores_iff now topic).mpr ⟨howner, hurl, hvalues⟩,
      (sameAsFresh_iff now filled topic).mpr ⟨hfilled, htags, hattributes⟩⟩

end Topic

/-! ## Messages -/

namespace Message

/-- The attributes are written under the name `messageAttribute`. -/
def toDocument (message : Message) : Document :=
  let messageDoc :=
    [("region", .scalar (.string message.region)),
      ("topicArn", .scalar (.string message.topicArn)),
      ("targetArn", .scalar (.string message.targetArn)),
      ("message", .scalar (.string message.message)),
      ("messageId", .scalar (.string message.messageId)),
      ("contentType", .scalar (.string message.contentType)),
      ("size", .scalar (.int64 message.size)),
      ("status", .scalar (.string message.status.toString)),
      ("messageAttribute",
        .document (mapDocument (fun messageAttribute => .document messageAttribute.toDocument)
          message.messageAttributes))]
  let messageDoc := setDatetime messageDoc "lastSend" message.lastSend
  let messageDoc := setDatetime messageDoc "created" message.created
  setDatetime messageDoc "modified" message.modified

/-- The attributes are looked for under the name `messageAttributes`. -/
def readFields (message : Message) (mResult : Document) : Except CoreException Message := do
  let size ← getLongValue mResult "size"
  let messageAttributes ← readIfFound mResult "messageAttributes" message.messageAttributes
    (readDocumentField (readMap element (readDocumentField (MessageAttribute.fromDocument {}))
      Std.ExtTreeMap.insert ∅))
  return {
    oid := getOidValue mResult "_id"
    region := getStringValue mResult "region"
    topicArn := getStringValue mResult "topicArn"
    targetArn := getStringValue mResult "targetArn"
    message := getStringValue mResult "message"
    status := .fromString (getStringValue mResult "status")
    messageId := getStringValue mResult "messageId"
    size
    contentType := getStringValue mResult "contentType"
    lastSend := getDateValue mResult "lastSend"
    created := getDateValue mResult "created"
    modified := getDateValue mResult "modified"
    messageAttributes }

def fromDocument (message : Message) (mResult : Document) : Except CoreException Message :=
  (readFields message mResult).mapError fun exc => .json exc.what

/-- A time is written as null when it is not after the epoch, and null is read as the epoch. -/
def decodedTime (time : Time) : Time := if 0 < time then time else 0

/-- What decoding the document of a message leaves in an entity. -/
def decoded (filled message : Message) : Message :=
  { message with
    oid := ""
    messageAttributes := filled.messageAttributes
    lastSend := decodedTime message.lastSend
    created := decodedTime message.created
    modified := decodedTime message.modified }

theorem getDateValue_of_datetimeValue {document : Document} {name : String} {time : Time}
    (hfield : document.get? name = some (datetimeValue time)) :
    getDateValue document name = decodedTime time := by
  rw [getDateValue, hfield, datetimeValue, decodedTime]
  by_cases hafter : 0 < time
  · rw [if_pos hafter, if_pos hafter]
  · rw [if_neg hafter, if_neg hafter]

theorem decodedTime_eq_iff {time : Time} : decodedTime time = time ↔ 0 ≤ time := by
  unfold decodedTime
  split
  next hafter => exact ⟨fun _ => Int.le_of_lt hafter, fun _ => rfl⟩
  next hafter =>
    constructor
    · intro heq
      exact Int.le_of_eq heq
    · intro hle
      exact Int.le_antisymm hle (Int.not_lt.mp hafter)

theorem fromDocument_toDocument (filled message : Message) :
    fromDocument filled message.toDocument = .ok (decoded filled message) := by
  have hsize : message.toDocument.get? "size" = some (.scalar (.int64 message.size)) := by
    simp [toDocument, setDatetime, Document.get?_cons]
  have hattributes : message.toDocument.get? "messageAttributes" = none := by
    simp [toDocument, setDatetime, Document.get?_cons]
  have hread : readFields filled message.toDocument = .ok (decoded filled message) := by
    rw [readFields, getLongValue_of_int64 hsize, ok_bind, readIfFound_of_none hattributes, ok_bind,
      getDateValue_of_datetimeValue (by simp [toDocument, setDatetime, Document.get?_cons]; rfl),
      getDateValue_of_datetimeValue (by simp [toDocument, setDatetime, Document.get?_cons]; rfl),
      getDateValue_of_datetimeValue (by simp [toDocument, setDatetime, Document.get?_cons]; rfl)]
    simp [toDocument, decoded, setDatetime, getOidValue, getStringValue, Document.get?_cons,
      MessageStatus.fromString_toString]
    rfl
  rw [fromDocument, hread]
  rfl

def fresh (now : Time) : Message := { created := now, modified := now }

/-- A fresh entity is the message again but for the object id, and an entity with content is
decoded to the same. -/
structure RoundTrips (now : Time) (filled message : Message) : Prop where
  restores : ∃ restored, fromDocument (fresh now) message.toDocument = .ok restored ∧
    { restored with oid := message.oid } = message
  sameAsFresh : fromDocument filled message.toDocument = fromDocument (fresh now) message.toDocument

/-- There are no attributes in either entity, and no times before the epoch. -/
structure LosesNothing (filled message : Message) : Prop where
  messageAttributes : message.messageAttributes = ∅
  lastSend : 0 ≤ message.lastSend
  created : 0 ≤ message.created
  modified : 0 ≤ message.modified
  filledAttributes : filled.messageAttributes = ∅

theorem roundTrips_iff_losesNothing (now : Time) (filled message : Message) :
    RoundTrips now filled message ↔ LosesNothing filled message := by
  have hsame : fromDocument filled message.toDocument =
      fromDocument (fresh now) message.toDocument ↔ filled.messageAttributes = ∅ := by
    rw [fromDocument_toDocument, fromDocument_toDocument, Except.ok.injEq, decoded, decoded]
    simp only [mk.injEq, true_and, and_true]
    rfl
  have hrestores : (∃ restored, fromDocument (fresh now) message.toDocument = .ok restored ∧
      { restored with oid := message.oid } = message) ↔
      (∅ : StringMap MessageAttribute) = message.messageAttributes ∧ 0 ≤ message.lastSend ∧
        0 ≤ message.created ∧ 0 ≤ message.modified := by
    rw [fromDocument_toDocument, ← decodedTime_eq_iff, ← decodedTime_eq_iff, ← decodedTime_eq_iff]
    obtain ⟨_, _, _, _, _, _, _, _, _, _, lastSend, created, modified⟩ := message
    constructor
    · rintro ⟨restored, hrestored, heq⟩
      cases hrestored
      simpa only [decoded, fresh, mk.injEq, true_and, and_true] using heq
    · intro hkept
      refine ⟨_, rfl, ?_⟩
      simpa only [decoded, fresh, mk.injEq, true_and, and_true] using hkept
  constructor
  · rintro ⟨hrestored, hfilled⟩
    obtain ⟨hattributes, hlastSend, hcreated, hmodified⟩ := hrestores.mp hrestored
    exact ⟨hattributes.symm, hlastSend, hcreated, hmodified, hsame.mp hfilled⟩
  · rintro ⟨hattributes, hlastSend, hcreated, hmodified, hfilled⟩
    exact ⟨hrestores.mpr ⟨hattributes.symm, hlastSend, hcreated, hmodified⟩, hsame.mpr hfilled⟩

end Message

/-- Topics and messages round trip exactly when they lose nothing. -/
theorem entities_roundTrip_iff (now : Time) :
    (∀ filled topic, Topic.RoundTrips now filled topic ↔ Topic.LosesNothing filled topic) ∧
      ∀ filled message,
        Message.RoundTrips now filled message ↔ Message.LosesNothing filled message :=
  ⟨Topic.roundTrips_iff_losesNothing now, Message.roundTrips_iff_losesNothing now⟩

def oneAttribute : Message where
  messageAttributes := (∅ : StringMap MessageAttribute).insert "kind" ⟨"", [], [], [], .string⟩

/-- An owner and an attribute are lost. -/
theorem not_entities_roundTrip :
    ¬Topic.RoundTrips 0 {} { owner := "000000000000" } ∧ ¬Message.RoundTrips 0 {} oneAttribute := by
  constructor
  · intro hroundTrips
    exact absurd ((Topic.roundTrips_iff_losesNothing _ _ _).mp hroundTrips).owner (by decide)
  · intro hroundTrips
    have hempty := ((Message.roundTrips_iff_losesNothing _ _ _).mp hroundTrips).messageAttributes
    have hkey : "kind" ∈ oneAttribute.messageAttributes := Std.ExtTreeMap.mem_insert_self
    rw [hempty] at hkey
    exact Std.ExtTreeMap.not_mem_empty hkey

end AwsMock.Sns.Entity
